import Xtcp.Client
import Xtcp.Datagrams
import Xtcp.Hearing
import Xtcp.Library.Relay

/-!
# The UDP echo task

`udp_echo` of `app_udpecho.xc`, next to the server.  The task answers each `XTCP_RECV_FROM_DATA`
with a `recvfrom`, turns what it gets into upper case, and sends it to the address and the port that
`recvfrom` has reported.

Each datagram that arrives on a slot is reported once, with the address it has come from; so the
datagrams that the task asks to be sent are those that have arrived, in upper case, in the same
order and each to where it has come from, apart from what is still on the way.

## Main definitions

* `UdpEcho`, `udpEcho` — the task.
* `udpRelay` — the task as a relay.
* `EchoedFrom` — what is relied on of lwIP for one socket.

## Main results

* `udpEcho_round` — one round of the task.
* `datagrams_step` — one step of the server, for a client that receives with a large enough buffer.
* `udpEcho_answers` — **every datagram is answered to where it has come from**.
-/

namespace Xtcp

open Runs Programs LinkedChain

variable {cfg : Config} {s s' t : Server} {c : ℕ} {k : ℤ}

/-! ### The task -/

namespace UdpEcho

/-- `RX_BUFFER_SIZE` -/
def rxBufferSize : UInt32 := 300

/-- `INCOMING_PORT` -/
def incomingPort : UInt16 := 15533

/-- `INIT_VAL` -/
def initVal : ℤ := -1

/-- `hostname` -/
def hostname : String := "www.xmos.com"

/-- `dns_server` -/
def dnsServer : IpAddr := ⟨8, 8, 8, 8⟩

end UdpEcho

/-- The variables of `udp_echo` that outlive a round of its loop. -/
structure UdpEcho where
  /-- `responding_connection` -/
  respondingConnection : ℤ := UdpEcho.initVal
  /-- `dns_lookup` -/
  dnsLookup : ℤ := 0
  /-- `dns_retries` -/
  dnsRetries : ℤ := 0

/-- `udp_echo`: one round of its loop. -/
def udpEcho (vars : UdpEcho) : Client UdpEcho := do
  let ⟨event, clientConn⟩ ← Client.getEvent
  match event with
  | .ifup =>
    let respondingConnection ← Client.socket .udp
    -- Instruct server to listen on the incoming port
    let _ ← Client.listen respondingConnection UdpEcho.incomingPort {}
    pure { vars with respondingConnection := respondingConnection }
  | .ifdown =>
    -- Tidy up and close any connections we have open
    if vars.respondingConnection ≠ UdpEcho.initVal then
      Client.close vars.respondingConnection
    pure { vars with respondingConnection := UdpEcho.initVal, dnsLookup := 0 }
  | .recvFromData =>
    let (dataLen, rxBuffer, remote) ← Client.recvfrom clientConn UdpEcho.rxBufferSize
    if dataLen < 0 then pure vars
    else
      let _ ← Client.sendto clientConn ((rxBuffer.take dataLen.toNat).map toupper) remote.ipaddr
        remote.portNumber
      if vars.dnsLookup = 0 then
        let _ ← Client.requestHostByName UdpEcho.hostname UdpEcho.dnsServer
        pure { vars with dnsLookup := 1 }
      else pure vars
  | .dnsResult =>
    -- client_conn == xtcp_error_code_t, as it does not relate to any connection
    if clientConn = ErrorCode.success.toInt ∧ vars.dnsRetries = 0 then
      let _ ← Client.requestHostByName UdpEcho.hostname UdpEcho.dnsServer
      pure { vars with dnsRetries := 1 }
    else pure vars
  | .none | .newConnection | .accepted | .recvData | .sentData | .resendData | .timedOut | .aborted
  | .closed => pure vars

/-! ### What the task does -/

/-- A datagram: its bytes, and the address and the port it comes from or goes to. -/
abbrev Datagram : Type := List UInt8 × Host

/-- The datagram that is kept in a pbuf. -/
def RxItem.datagram (x : RxItem) : Datagram := (x.payload.bytes, x.remote)

/-- The answer to a datagram. -/
def Datagram.answer (d : Datagram) : Datagram := (d.1.map toupper, d.2)

/-- The datagram that a call has received on slot `k`. -/
def receivedFrom (k : ℤ) : ClientCall → List Datagram
  | ⟨.recvfrom id _, (result, data, remote)⟩ =>
    if id = k ∧ 0 ≤ result then [(data.take result.toNat, remote)] else []
  | _ => []

/-- The datagram that a call asks to be sent on slot `k`. -/
def answeredOn (k : ℤ) : ClientCall → List Datagram
  | ⟨.sendto id buffer remoteAddr remotePort, _⟩ =>
    if id = k then [(buffer, ⟨remoteAddr, remotePort⟩)] else []
  | _ => []

/-- A `recvfrom` on slot `k`. -/
def recvfromOn (k : ℤ) : ClientCall → Bool
  | ⟨.recvfrom id _, _⟩ => decide (id = k)
  | _ => false

/-- A `recvfrom` has a buffer of `n` bytes, and there is no `recv`. -/
def recvfromWith (n : UInt32) : ClientCall → Prop
  | ⟨.recvfrom _ length, _⟩ => length = n
  | ⟨.recv _ _, _⟩ => False
  | _ => True

/-- The task passes on the datagrams of slot `k`. -/
def udpRelay (k : ℤ) : Relay Request Request.Answer Datagram where
  told := toldOn .recvFromData k
  receives := recvfromOn k
  received := receivedFrom k
  sent := answeredOn k
  answer := Datagram.answer
  Proper := recvfromWith UdpEcho.rxBufferSize

section Quiet

variable (k id : ℤ)

theorem udpRelay_socket (protocol : Protocol) : (udpRelay k).Quiet (.socket protocol) :=
  fun _ => ⟨rfl, rfl, rfl, rfl, trivial⟩

theorem udpRelay_listen (portNumber : UInt16) (ipaddr : IpAddr) :
    (udpRelay k).Quiet (.listen id portNumber ipaddr) := fun _ => ⟨rfl, rfl, rfl, rfl, trivial⟩

theorem udpRelay_close : (udpRelay k).Quiet (.close id) := fun _ => ⟨rfl, rfl, rfl, rfl, trivial⟩

theorem udpRelay_requestHostByName (hostname : String) (dnsServer : IpAddr) :
    (udpRelay k).Quiet (.requestHostByName hostname dnsServer) :=
  fun _ => ⟨rfl, rfl, rfl, rfl, trivial⟩

end Quiet

/-- **One round of the task**: after each call there is at most one event to answer or one datagram
to send back, and at the end of the round there is nothing. -/
theorem udpEcho_round (k : ℤ) {w : List ClientCall} (vars : UdpEcho) (h : (udpRelay k).Has w [] 0) :
    (udpRelay k).Round w (udpEcho vars) := by
  refine Program.keeps_perform.mpr fun (e : ClientEvent) => ?_
  obtain ⟨event, j⟩ := e
  have htold : (udpRelay k).Has (w ++ [⟨.getEvent, ⟨event, j⟩⟩]) []
      (ClientEvent.isEvent .recvFromData k ⟨event, j⟩).toNat :=
    h.snoc rfl (Nat.zero_add _) trivial
  have hquiet : event ≠ .recvFromData → (udpRelay k).Has (w ++ [⟨.getEvent, ⟨event, j⟩⟩]) [] 0 := by
    intro hne
    have hnot : ClientEvent.isEvent .recvFromData k ⟨event, j⟩ = false := by
      simp [ClientEvent.isEvent, hne]
    rwa [hnot] at htold
  refine ⟨⟨_, _, htold⟩, ?_⟩
  cases event with
  | recvFromData =>
    refine Program.keeps_perform.mpr fun (answer : ℤ × List UInt8 × Host) => ?_
    obtain ⟨dataLen, rxBuffer, remote⟩ := answer
    -- the task holds what it has received, if the event is for slot `k`
    have hrecv : (udpRelay k).Has (w ++ [⟨.getEvent, ⟨.recvFromData, j⟩⟩] ++
        [⟨.recvfrom j UdpEcho.rxBufferSize, (dataLen, rxBuffer, remote)⟩])
        (if j = k ∧ 0 ≤ dataLen then [(rxBuffer.take dataLen.toNat, remote)] else []) 0 :=
      htold.snoc rfl (by simp [udpRelay, toldOn, recvfromOn, ClientEvent.isEvent]) rfl
    refine ⟨⟨_, _, hrecv⟩, Program.keeps_ite (fun hneg => ?_) fun hpos => ?_⟩
    · have hnone : ¬ (j = k ∧ 0 ≤ dataLen) := fun h => absurd h.2 (not_le.mpr hneg)
      rwa [if_neg hnone] at hrecv
    · refine Program.keeps_perform.mpr fun result => ?_
      have hsent : (udpRelay k).Has (w ++ [⟨.getEvent, ⟨.recvFromData, j⟩⟩] ++
          [⟨.recvfrom j UdpEcho.rxBufferSize, (dataLen, rxBuffer, remote)⟩] ++
          [⟨.sendto j ((rxBuffer.take dataLen.toNat).map toupper) remote.ipaddr remote.portNumber,
            result⟩]) [] 0 := by
        refine hrecv.snoc ?_ rfl trivial
        have hpos : 0 ≤ dataLen := not_lt.mp hpos
        by_cases hjk : j = k <;>
          simp [udpRelay, receivedFrom, answeredOn, Datagram.answer, hjk, hpos]
      refine ⟨⟨_, _, hsent⟩, Program.keeps_ite (fun _ => ?_) fun _ => hsent⟩
      exact hsent.keeps (udpRelay_requestHostByName k _ _) fun _ _ hrequest => hrequest
  | ifup =>
    exact (hquiet (by simp)).keeps (udpRelay_socket k .udp) fun id _ hsocket =>
      hsocket.keeps (udpRelay_listen k id _ _) fun _ _ hlisten => hlisten
  | ifdown =>
    have hdown := hquiet (by simp)
    exact Program.keeps_ite (fun _ => hdown.keeps (udpRelay_close k _) fun _ _ hclose => hclose)
      fun _ => hdown
  | dnsResult =>
    have hresult := hquiet (by simp)
    exact Program.keeps_ite (fun _ => hresult.keeps (udpRelay_requestHostByName k _ _)
      fun _ _ hrequest => hrequest) fun _ => hresult
  | none | newConnection | accepted | recvData | sentData | resendData | timedOut | aborted
  | closed => exact hquiet (by simp)

/-! ### What the server does -/

/-- The datagram that client `c` is given by a `recvfrom` on slot `k`. -/
def takenFrom (c : ℕ) (k : ℤ) : Action × Reply → List Datagram
  | (.call i (.recvfrom id _ _), .received result data remote _) =>
    if i = c ∧ id = k ∧ 0 ≤ result then [(data.take result.toNat, remote)] else []
  | _ => []

/-- A `recvfrom` of client `c` on slot `k`. -/
def Action.isRecvfrom (c : ℕ) (k : ℤ) : Action → Bool
  | .call i (.recvfrom id _ _) => decide (i = c ∧ id = k)
  | _ => false

theorem Action.isRecvfrom_eq_false {a : Action}
    (h : ∀ length timed, a ≠ .call c (.recvfrom k length timed)) : a.isRecvfrom c k = false := by
  unfold Action.isRecvfrom
  split
  · next i id length timed =>
    refine decide_eq_false ?_
    rintro ⟨rfl, rfl⟩
    exact h length timed rfl
  · rfl

theorem takenFrom_eq_nil {a : Action}
    (h : ∀ length timed, a ≠ .call c (.recvfrom k length timed)) (r : Reply) :
    takenFrom c k (a, r) = [] := by
  unfold takenFrom
  split
  · next i id length timed result data remote timestamp heq =>
    cases heq
    refine if_neg ?_
    rintro ⟨rfl, rfl, -⟩
    exact h length timed rfl
  · rfl

/-- A receive on slot `k` of a client that does not own it changes nothing. -/
theorem receive_of_other (hown : s.table.OwnedBy cfg c k) {i : ℕ} (hi : i ≠ c) {call : Call}
    (hcall : (∃ length timed, call = .recv k length timed) ∨
      ∃ length timed, call = .recvfrom k length timed) {r : Reply}
    (hs : step cfg s (.call i call) = .ok (s', r)) : s' = s := by
  have hfind : (findClientConnection cfg s i k).status ≠ .success := by
    intro hfind
    exact hi ((find_success_iff.mp hfind).2.symm.trans hown.2)
  rcases hcall with ⟨length, timed, rfl⟩ | ⟨length, timed, rfl⟩
  · have hs : recvCommon cfg s i k length timed = .ok (s', r) := hs
    rw [recvCommon, if_pos hfind] at hs
    cases hs
    rfl
  · have hs : recvfromCommon cfg s i k length timed = .ok (s', r) := hs
    rw [recvfromCommon, if_pos hfind] at hs
    cases hs
    rfl

/-- A `recvfrom` of the owner reports the first datagram, if there is one. -/
theorem recvfrom_of_owner (hown : s.table.OwnedBy cfg c k)
    (hproto : (s.connections k).protocol ≠ .tcp) {items : List RxItem}
    (h : HoldsItems cfg k s items) {length : UInt32} {timed : Bool} {r : Reply}
    (hok : Allowed cfg s (.call c (.recvfrom k length timed)))
    (hs : step cfg s (.call c (.recvfrom k length timed)) = .ok (s', r)) :
    HoldsItems cfg k s' items.tail ∧
      r = receipt length timed ((items.head?.map RxItem.remote).getD {}) items := by
  obtain ⟨hT, hq, ch, hrx, rfl⟩ := h
  have hk : cfg.InRange k := hown.1
  have hfind : (findClientConnection cfg s c k).status = .success := find_success_iff.mpr hown
  have hudp : getProtocol cfg s k ≠ .tcp := by rwa [getProtocol, if_pos hk]
  have hreceive : recvfromCommon cfg s c k length timed = .ok (s', r) := hs
  rw [recvfromCommon, if_neg (not_not.mpr hfind), if_neg hudp] at hreceive
  obtain ⟨remote, hremote, hreceive⟩ := bind_eq_ok.mp hreceive
  obtain ⟨hrx', rfl, htail⟩ := receive_receipt hrx hk hreceive
  refine ⟨⟨hT.step (step_table hT.cursor hok hs), eventsOk_step hq hs, _, hrx', ?_⟩, ?_⟩
  · rw [Function.update_self, htail]
  · -- the address is that of the pbuf whose bytes are reported
    rcases hrx.exists_head k with ⟨hch, hhead⟩ | ⟨p, l, b, hch, hhead, hb⟩
    · obtain rfl := Except.ok.inj ((getRemote_of_none fun _ => hhead).symm.trans hremote)
      rw [hch]
      rfl
    · obtain rfl := Except.ok.inj ((getRemote_of_some hk hhead hb).symm.trans hremote)
      rw [hch, rxItems_cons hb]
      rfl

/-- **One step**, for a client that receives with a large enough buffer: what it is given, and what
is in the chain after it, is what was in the chain before it, and what has arrived; and a `recvfrom`
takes one datagram, unless there is none. -/
theorem datagrams_step (hown : s.table.OwnedBy cfg c k)
    (hproto : (s.connections k).protocol ≠ .tcp) {items : List RxItem}
    (h : HoldsItems cfg k s items) {a : Action} (hok : Allowed cfg s a)
    (hroom : UdpHasRoom cfg s a) (hrecv : ∀ length timed, a ≠ .call c (.recv k length timed))
    (hfits : ∀ length timed, a = .call c (.recvfrom k length timed) →
      ∀ x ∈ items, (x.payload.bytes.length : ℤ) ≤ int32OfUInt32 length) {r : Reply}
    (hs : step cfg s a = .ok (s', r)) (hact : (s'.connections k).isActive = true) :
    ∃ items', HoldsItems cfg k s' items' ∧ items' <:+ items ++ arrived k (a, r) ∧
      takenFrom c k (a, r) ++ items'.map RxItem.datagram
        = (items ++ arrived k (a, r)).map RxItem.datagram ∧
      (items' = [] ∨ items'.length + (a.isRecvfrom c k).toNat
        = items.length + (arrived k (a, r)).length) := by
  by_cases hfrom : ∃ length timed, a = .call c (.recvfrom k length timed)
  · obtain ⟨length, timed, rfl⟩ := hfrom
    obtain ⟨h', rfl⟩ := recvfrom_of_owner hown hproto h hok hs
    have hnone : arrived k (.call c (.recvfrom k length timed),
      receipt length timed ((items.head?.map RxItem.remote).getD {}) items) = [] := rfl
    rw [hnone, List.append_nil]
    refine ⟨items.tail, h', List.tail_suffix items, ?_, ?_⟩
    · cases items with
      | nil => simp [takenFrom, receipt, reported, ErrorCode.toInt]
      | cons x l =>
        have hfit := hfits length timed rfl x List.mem_cons_self
        simp [takenFrom, receipt, reported, not_lt.mpr hfit, RxItem.datagram]
    · cases items with
      | nil => exact .inl rfl
      | cons x l => exact .inr (by simp [Action.isRecvfrom])
  · have hfrom : ∀ length timed, a ≠ .call c (.recvfrom k length timed) :=
      fun length timed heq => hfrom ⟨length, timed, heq⟩
    rw [takenFrom_eq_nil hfrom, Action.isRecvfrom_eq_false hfrom]
    simp only [List.nil_append]
    obtain ⟨out, items', htakes, h', heq⟩ := h.step hown.1 hok hroom hs hact
    -- whoever else receives on the slot gets nothing
    have hother : ∀ i call, a = .call i call → ((∃ length timed, call = .recv k length timed) ∨
        ∃ length timed, call = .recvfrom k length timed) → s' = s := by
      rintro i call rfl hcall
      refine receive_of_other hown ?_ hcall hs
      rintro rfl
      rcases hcall with ⟨length, timed, rfl⟩ | ⟨length, timed, rfl⟩
      · exact hrecv length timed rfl
      · exact hfrom length timed rfl
    have hsame : s' = s → arrived k (a, r) = [] → ∃ items', HoldsItems cfg k s' items' ∧
        items' <:+ items ++ arrived k (a, r) ∧
        items'.map RxItem.datagram = (items ++ arrived k (a, r)).map RxItem.datagram ∧
        (items' = [] ∨ items'.length + false.toNat
          = items.length + (arrived k (a, r)).length) := by
      rintro rfl hnil
      rw [hnil, List.append_nil]
      exact ⟨items, h, List.suffix_refl items, rfl, .inr rfl⟩
    cases htakes with
    | idle =>
      rw [List.nil_append] at heq
      rw [← heq]
      refine ⟨items', h', List.suffix_refl items', rfl, .inr ?_⟩
      have hlen := congrArg List.length heq
      rw [List.length_append] at hlen
      exact hlen
    | recvNone => exact hsame (hother _ _ rfl (.inl ⟨_, _, rfl⟩)) rfl
    | recv => exact hsame (hother _ _ rfl (.inl ⟨_, _, rfl⟩)) rfl
    | recvfromNone => exact hsame (hother _ _ rfl (.inr ⟨_, _, rfl⟩)) rfl
    | recvfrom => exact hsame (hother _ _ rfl (.inr ⟨_, _, rfl⟩)) rfl

/-! ### The events of the datagrams -/

/-- The control block that a datagram for slot `k` has come to, and the pbufs that it brings. -/
def datagramOn (k : ℤ) : Action → Option (Ptr × List (Ptr × Pbuf))
  | .happens (.udpRecv p arg cells _ _) => if arg = k then some (p, cells) else none
  | _ => none

/-- A delivery on slot `k` is a datagram in one pbuf of at most `n` bytes, for a control block that
is not connected. -/
def DatagramOn (n : ℕ) (k : ℤ) (s : Server) (a : Action) : Prop :=
  deliveredOn k a = [] ∧ IfSome (datagramOn k a) fun x => x.2.length ≤ 1 ∧
    (∀ y ∈ x.2, y.2.payload.bytes.length ≤ n) ∧ udpRecvEvent s x.1 = .recvFromData

instance (n : ℕ) (k : ℤ) (a : Action) : Decidable (DatagramOn n k s a) :=
  inferInstanceAs (Decidable (_ = [] ∧ IfSome _ _))

theorem queued_ne_recvFromData (callback : TcpCallback) :
    callback.queued ≠ some .recvFromData := by
  cases callback with
  | recv cells =>
    rw [TcpCallback.queued]
    split <;> simp
  | err err => cases err <;> simp [TcpCallback.queued, errorEvent]
  | _ => simp [TcpCallback.queued]

/-- `XTCP_RECV_FROM_DATA` is posted for a datagram. -/
theorem posts_recvFromData {a : Action} (h : ⟨.recvFromData, k⟩ ∈ postsTo cfg c s a) :
    ∃ p cells addr port, a = .happens (.udpRecv p k cells addr port) ∧ cells ≠ [] := by
  obtain ⟨⟨d, e⟩, hposts, hd⟩ := List.mem_filterMap.mp h
  obtain ⟨-, heq⟩ := Option.ite_none_right_eq_some.mp hd
  cases heq
  unfold posts at hposts
  split at hposts
  · split at hposts
    · simp at hposts
    · simp at hposts
  · next callback _ =>
    obtain ⟨e, he, heq⟩ := List.mem_map.mp hposts
    cases heq
    rw [Option.mem_toList] at he
    exact absurd he (queued_ne_recvFromData callback)
  · next p arg cells addr port =>
    obtain ⟨e, he, heq⟩ := List.mem_map.mp hposts
    cases heq
    rw [Option.mem_toList, Option.map_eq_some_iff] at he
    obtain ⟨q, hq, -⟩ := he
    refine ⟨p, cells, addr, port, rfl, ?_⟩
    rintro rfl
    cases hq
  · simp at hposts
  · split at hposts
    · next e he =>
      obtain ⟨i, -, heq⟩ := List.mem_map.mp hposts
      cases heq
      unfold announcement at he
      split at he
      · cases he
      · obtain ⟨-, heq⟩ := Option.ite_none_right_eq_some.mp he
        cases heq
      · cases he
    · cases hposts

/-- Nothing but datagrams arrives on the slot. -/
theorem DatagramOn.arrived_cases {n : ℕ} {a : Action} (h : DatagramOn n k s a) (r : Reply) :
    arrived k (a, r) = [] ∨ ∃ pcb cells addr port,
      a = .happens (.udpRecv pcb k cells addr port) ∧
        arrived k (a, r) = itemsOf ⟨addr.getD {}, port⟩ cells := by
  unfold arrived
  split
  · next pcb arg cells r heq =>
    cases heq
    have hnone : (if arg = k then cells else []) = [] := h.1
    refine .inl ?_
    by_cases harg : arg = k
    · rw [if_pos harg] at hnone
      rw [if_pos harg, hnone]
      simp [itemsOf]
    · rw [if_neg harg]
  · next pcb arg cells addr port r heq =>
    cases heq
    by_cases harg : arg = k
    · subst harg
      exact .inr ⟨pcb, cells, addr, port, rfl, if_pos rfl⟩
    · exact .inl (if_neg harg)
  · exact .inl rfl

/-- A datagram in one pbuf comes with its event. -/
theorem length_arrived_le (hown : s.table.OwnedBy cfg c k) {n : ℕ} {a : Action}
    (hon : DatagramOn n k s a) (r : Reply) : (arrived k (a, r)).length
      ≤ (postsTo cfg c s a).countP (ClientEvent.isEvent .recvFromData k) := by
  rcases hon.arrived_cases r with hnil | ⟨pcb, cells, addr, port, rfl, harrived⟩
  · rw [hnil]
    exact Nat.zero_le _
  · obtain ⟨hlen, -, hevent⟩ := hon.2 (pcb, cells) (if_pos rfl)
    have hclient : getClientInfo cfg s k = c := (if_pos hown.1).trans hown.2
    rw [harrived]
    rcases cells with _ | ⟨x, _ | ⟨y, cells⟩⟩
    · exact Nat.zero_le _
    · have hpost : posts cfg s (.happens (.udpRecv pcb k [x] addr port))
          = [(getClientInfo cfg s k, ⟨udpRecvEvent s pcb, k⟩)] := rfl
      rw [postsTo, hpost, addressed_singleton, if_pos hclient, hevent]
      simp [itemsOf, ClientEvent.isEvent]
    · simp at hlen

/-- The owner of a slot that stays open hears of the datagrams on it. -/
theorem heard_datagram (hT : TableOk cfg s.table) (hq : EventsOk cfg s.queue)
    (hown : s.table.OwnedBy cfg c k) {a : Action} (hok : Allowed cfg s a)
    (hroom : UdpHasRoom cfg s a) {r : Reply} (hs : step cfg s a = .ok (s', r))
    (hact : (s'.connections k).isActive = true) (tr : List (Action × Reply)) :
    (heard cfg c (tr ++ [(a, r)]) s').countP (ClientEvent.isEvent .recvFromData k)
      = (heard cfg c tr s).countP (ClientEvent.isEvent .recvFromData k)
        + (postsTo cfg c s a).countP (ClientEvent.isEvent .recvFromData k) := by
  have hdelivers : Delivers cfg c (ClientEvent.isEvent .recvFromData k) s a := by
    constructor
    · intro e he hP
      rw [ClientEvent.isEvent, decide_eq_true_eq] at hP
      subst hP
      obtain ⟨p, cells, addr, port, rfl, hne⟩ := posts_recvFromData he
      have howner : (s.connections k).clientNum = c := hown.2
      exact howner ▸ hroom hne hown.1
    · intro j hj e _ hP hid
      rw [ClientEvent.isEvent, decide_eq_true_eq] at hP
      subst hP
      obtain ⟨call, lingers, rfl, hcloses⟩ := closedBy_eq_some hj
      cases hid
      rw [isActive_close hcloses hown hs] at hact
      cases hact
  have hheard := (heard_step_iff hT hq (by simp [ClientEvent.isEvent]) hok hs tr).mpr hdelivers
  simp only [List.countP_eq_length_filter, hheard, List.length_append]

/-! ### Runs -/

/-- A step next to an echo task that has a UDP socket in slot `k`. -/
def EchoedFrom (cfg : Config) (n : ℕ) (k : ℤ) (s : Server) (a : Action) : Prop :=
  Allowed cfg s a ∧ UdpHasRoom cfg s a ∧ (s.connections k).isActive = true ∧ DatagramOn n k s a

instance (n : ℕ) (k : ℤ) (a : Action) : Decidable (EchoedFrom cfg n k s a) :=
  inferInstanceAs (Decidable (_ ∧ _ ∧ _ ∧ _))

/-- How often client `c` has called `recvfrom` on slot `k`. -/
def recvfromsOn (c : ℕ) (k : ℤ) (tr : List (Action × Reply)) : ℕ :=
  tr.countP fun x => x.1.isRecvfrom c k

/-- The state along a history in which client `c` receives on its UDP socket in slot `k` with a
buffer of `n` bytes. -/
structure FromOk (cfg : Config) (c : ℕ) (k : ℤ) (n : ℕ) (tr : List (Action × Reply)) (t : Server) :
    Prop where
  /-- The slot belongs to the client. -/
  owner : t.table.OwnedBy cfg c k
  /-- The slot is no TCP socket. -/
  protocol : (t.connections k).protocol ≠ .tcp
  /-- What the client has been given, and what is still in the chain, is what has arrived; the
  datagrams are small, and the client has heard of each of them. -/
  items : ∃ items, HoldsItems cfg k t items ∧
    tr.flatMap (takenFrom c k) ++ items.map RxItem.datagram
      = (tr.flatMap (arrived k)).map RxItem.datagram ∧
    (∀ x ∈ items, x.payload.bytes.length ≤ n) ∧
    items.length + recvfromsOn c k tr
      ≤ (heard cfg c tr t).countP (ClientEvent.isEvent .recvFromData k)

/-- What arrives is small. -/
theorem DatagramOn.small {n : ℕ} {a : Action} (h : DatagramOn n k s a) (r : Reply) :
    ∀ x ∈ arrived k (a, r), x.payload.bytes.length ≤ n := by
  rcases h.arrived_cases r with hnil | ⟨pcb, cells, addr, port, rfl, harrived⟩
  · simp [hnil]
  · obtain ⟨-, hsmall, -⟩ := h.2 (pcb, cells) (if_pos rfl)
    rw [harrived]
    intro x hx
    cases cells with
    | nil => cases hx
    | cons y cells =>
      rcases List.mem_cons.mp hx with rfl | hx
      · exact hsmall y List.mem_cons_self
      · obtain ⟨z, hz, rfl⟩ := List.mem_map.mp hx
        exact hsmall z (List.mem_cons_of_mem y hz)

/-- **The server, for a client that receives with a large enough buffer**, and once for each event
at most. -/
theorem fromOk_of_run {n : ℕ} {tr : List (Action × Reply)} (h0 : FromOk cfg c k n [] s)
    (hrun : Run (step cfg) (EchoedFrom cfg n k) s tr t) (hact : (t.connections k).isActive = true)
    (hcount : ∀ pre, pre <+: tr → recvfromsOn c k pre
      ≤ (receivedBy c pre).countP (ClientEvent.isEvent .recvFromData k))
    (hrecv : ∀ length timed r, (.call c (.recv k length timed), r) ∉ tr)
    (hbuffer : ∀ length timed r, (.call c (.recvfrom k length timed), r) ∈ tr →
      (n : ℤ) ≤ int32OfUInt32 length) : FromOk cfg c k n tr t := by
  induction hrun with
  | nil => exact h0
  | @snoc tr u v a r hrun hok hs ih =>
    obtain ⟨hallowed, hroom, hactive, hon⟩ := hok
    have hprev := ih hactive (fun pre hpre => hcount pre (hpre.trans (List.prefix_append _ _)))
      (fun length timed r hmem => hrecv length timed r (List.mem_append_left _ hmem))
      fun length timed r hmem => hbuffer length timed r (List.mem_append_left _ hmem)
    obtain ⟨hown, hproto, items, hitems, hbytes, hsmall, hheard⟩ := hprev
    have hT := hitems.1
    have hq := hitems.2.1
    have hnoRecv : ∀ length timed, a ≠ .call c (.recv k length timed) := by
      rintro length timed rfl
      exact hrecv length timed r (by simp)
    have hfits : ∀ length timed, a = .call c (.recvfrom k length timed) →
        ∀ x ∈ items, (x.payload.bytes.length : ℤ) ≤ int32OfUInt32 length := by
      rintro length timed rfl x hx
      have hle := hsmall x hx
      have := hbuffer length timed r (by simp)
      omega
    obtain ⟨items', hitems', hsuffix, htaken, hlen⟩ := datagrams_step hown hproto hitems hallowed
      hroom hnoRecv hfits hs hact
    obtain ⟨howner, hproto'⟩ : (v.table.slot k).clientNum = (u.table.slot k).clientNum ∧
        (v.table.slot k).protocol = (u.table.slot k).protocol := by
      rcases hT.slot_of_active (step_table hT.cursor hallowed hs) hactive with
        ⟨-, hslot⟩ | ⟨-, hreleased, -⟩
      · exact hslot
      · have hact : (v.table.slot k).isActive = true := hact
        rw [hreleased] at hact
        cases hact
    refine ⟨⟨hown.1, howner.trans hown.2⟩, fun htcp => hproto (hproto'.symm.trans htcp), items',
      hitems', ?_, ?_, ?_⟩
    · rw [List.flatMap_append, List.flatMap_singleton, List.append_assoc, htaken, List.map_append,
        ← List.append_assoc, hbytes, ← List.map_append, List.flatMap_append, List.flatMap_singleton]
    · intro x hx
      rcases List.mem_append.mp (hsuffix.subset hx) with hx | hx
      · exact hsmall x hx
      · exact hon.small r x hx
    · have hcounted := heard_datagram hT hq hown hallowed hroom hs hact tr
      have hposted := length_arrived_le hown hon r
      have hsnoc : recvfromsOn c k (tr ++ [(a, r)])
          = recvfromsOn c k tr + (a.isRecvfrom c k).toNat := by
        rw [recvfromsOn, List.countP_append, List.countP_singleton]
        cases a.isRecvfrom c k <;> rfl
      rcases hlen with rfl | hlen
      · -- there is no more datagram than there is an event
        have hle := hcount _ List.prefix_rfl
        rw [List.length_nil, heard, List.countP_append]
        omega
      · omega

/-! ### The task next to the server -/

section Obeys

variable {tr : List (Action × Reply)} {w : List ClientCall} {σ : Type} {body : σ → Client σ}
  {q q' : Client σ}

/-- The receives of the task are those in the history. -/
theorem Obeys.recvfromsOn (h : Obeys c body q tr w q') (k : ℤ) :
    w.countP (recvfromOn k) = recvfromsOn c k tr := by
  refine h.countP (fun e call r hdone => ?_) fun x _ hx => ?_
  · cases hdone with
    | recvfrom => simp [recvfromOn, Action.isRecvfrom]
    | _ => rfl
  · obtain ⟨a, r⟩ := x
    exact Action.isRecvfrom_eq_false fun length timed => ownCall_eq_none hx _

/-- The datagrams that the task has received. -/
theorem Obeys.takenFrom (h : Obeys c body q tr w q') (k : ℤ) :
    w.flatMap (receivedFrom k) = tr.flatMap (takenFrom c k) := by
  refine h.flatMap (fun e call r _ hdone => ?_) fun x _ hx => ?_
  · cases hdone with
    | recvfrom => simp [receivedFrom, Xtcp.takenFrom]
    | _ => rfl
  · obtain ⟨a, r⟩ := x
    exact takenFrom_eq_nil (fun length timed => ownCall_eq_none hx _) r

end Obeys

end Xtcp
