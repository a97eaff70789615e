import Xtcp.Client
import Xtcp.Library.Relay
import Xtcp.Stranded
import Xtcp.Streams

/-!
# The TCP echo task

`tcp_echo` of `app_tcpecho.xc`, next to the server.  The task answers each `XTCP_RECV_DATA` with a
`recv`, turns what it gets into upper case, and sends it back on the same connection.

What the task does is the same whatever happens around it; what the server does with a connection
is the same whatever the task is.  The bytes that the task has been given, and those that it still
holds, are those that the server has taken off the chain of the connection; and those that it has
sent are those that the server has queued.  So everything that lwIP delivers on a connection comes
back on it in upper case, in the same order and each byte once, apart from what is still on the way.

## Main definitions

* `TcpEcho`, `tcpEcho` — the task.
* `tcpRelay` — the task as a relay.
* `EchoedOn` — what is relied on of lwIP for one connection.

## Main results

* `tcpEcho_round` — one round of the task.
* `echoOk_of_run` — the server, for a client that receives with a large enough buffer.
* `tcpEcho_echoes` — **what is delivered on a connection comes back in upper case**.
-/

namespace Xtcp

open Runs Programs LinkedChain

variable {cfg : Config} {s s' t : Server} {c : ℕ} {k : ℤ} {p : Ptr}

/-! ### The task -/

namespace TcpEcho

/-- `RX_BUFFER_SIZE` -/
def rxBufferSize : UInt32 := 300

/-- `INCOMING_PORT` -/
def incomingPort : UInt16 := 15534

/-- `INIT_VAL` -/
def initVal : ℤ := -1

end TcpEcho

/-- The variables of `tcp_echo` that outlive a round of its loop. -/
structure TcpEcho where
  /-- `listening_connection` -/
  listeningConnection : ℤ := TcpEcho.initVal
  /-- `responding_connection` -/
  respondingConnection : ℤ := TcpEcho.initVal

/-- `tcp_echo`: one round of its loop. -/
def tcpEcho (vars : TcpEcho) : Client TcpEcho := do
  let ⟨event, clientConn⟩ ← Client.getEvent
  match event with
  | .ifup =>
    let listeningConnection ← Client.socket .tcp
    -- Instruct server to listen and create new connections on the incoming port
    let _ ← Client.listen listeningConnection TcpEcho.incomingPort {}
    pure { vars with listeningConnection := listeningConnection }
  | .ifdown =>
    -- Tidy up and close any connections we have open
    if vars.respondingConnection ≠ TcpEcho.initVal then
      Client.close vars.respondingConnection
    if vars.listeningConnection ≠ TcpEcho.initVal then
      Client.close vars.listeningConnection
    pure { vars with
      listeningConnection := TcpEcho.initVal, respondingConnection := TcpEcho.initVal }
  | .accepted =>
    if vars.respondingConnection = TcpEcho.initVal then
      pure { vars with respondingConnection := clientConn }
    else
      Client.close clientConn
      pure vars
  | .recvData =>
    let (dataLen, rxBuffer) ← Client.recv clientConn TcpEcho.rxBufferSize
    if dataLen < 0 then pure vars
    else
      let _ ← Client.getIpconfigRemote clientConn
      let _ ← Client.send clientConn ((rxBuffer.take dataLen.toNat).map toupper)
      pure vars
  | .closed =>
    -- Closed by the remote host, confirm and close our socket
    Client.close clientConn
    pure { vars with respondingConnection := TcpEcho.initVal }
  | .timedOut | .aborted => pure { vars with respondingConnection := TcpEcho.initVal }
  | .none | .newConnection | .sentData | .recvFromData | .resendData | .dnsResult => pure vars

/-! ### What the task does -/

/-- The bytes that a call has received on slot `k`. -/
def receivedOn (k : ℤ) : ClientCall → List UInt8
  | ⟨.recv id _, (result, data)⟩ => if id = k then data.take result.toNat else []
  | _ => []

/-- The bytes that a call sends on slot `k`. -/
def sentTo (k : ℤ) : ClientCall → List UInt8
  | ⟨.send id buffer, _⟩ => if id = k then buffer else []
  | _ => []

/-- A `recv` on slot `k`. -/
def recvOn (k : ℤ) : ClientCall → Bool
  | ⟨.recv id _, _⟩ => decide (id = k)
  | _ => false

/-- A `recv` has a buffer of `n` bytes. -/
def recvWith (n : UInt32) : ClientCall → Prop
  | ⟨.recv _ length, _⟩ => length = n
  | _ => True

/-- The task passes on the bytes of slot `k`. -/
def tcpRelay (k : ℤ) : Relay Request Request.Answer UInt8 where
  told := toldOn .recvData k
  receives := recvOn k
  received := receivedOn k
  sent := sentTo k
  answer := toupper
  Proper := recvWith TcpEcho.rxBufferSize

section Quiet

variable (k id : ℤ)

theorem tcpRelay_socket (protocol : Protocol) : (tcpRelay k).Quiet (.socket protocol) :=
  fun _ => ⟨rfl, rfl, rfl, rfl, trivial⟩

theorem tcpRelay_listen (portNumber : UInt16) (ipaddr : IpAddr) :
    (tcpRelay k).Quiet (.listen id portNumber ipaddr) := fun _ => ⟨rfl, rfl, rfl, rfl, trivial⟩

theorem tcpRelay_close : (tcpRelay k).Quiet (.close id) := fun _ => ⟨rfl, rfl, rfl, rfl, trivial⟩

theorem tcpRelay_getIpconfigRemote : (tcpRelay k).Quiet (.getIpconfigRemote id) :=
  fun _ => ⟨rfl, rfl, rfl, rfl, trivial⟩

end Quiet

/-- **One round of the task**: after each call there is at most one event to answer or some data to
send back, and at the end of the round there is nothing. -/
theorem tcpEcho_round (k : ℤ) {w : List ClientCall} (vars : TcpEcho) (h : (tcpRelay k).Has w [] 0) :
    (tcpRelay k).Round w (tcpEcho vars) := by
  refine Program.keeps_perform.mpr fun (e : ClientEvent) => ?_
  obtain ⟨event, j⟩ := e
  have htold : (tcpRelay k).Has (w ++ [⟨.getEvent, ⟨event, j⟩⟩]) []
      (ClientEvent.isEvent .recvData k ⟨event, j⟩).toNat :=
    h.snoc rfl (Nat.zero_add _) trivial
  have hquiet : event ≠ .recvData → (tcpRelay k).Has (w ++ [⟨.getEvent, ⟨event, j⟩⟩]) [] 0 := by
    intro hne
    have hnot : ClientEvent.isEvent .recvData k ⟨event, j⟩ = false := by
      simp [ClientEvent.isEvent, hne]
    rwa [hnot] at htold
  refine ⟨⟨_, _, htold⟩, ?_⟩
  cases event with
  | recvData =>
    refine Program.keeps_perform.mpr fun (answer : ℤ × List UInt8) => ?_
    obtain ⟨dataLen, rxBuffer⟩ := answer
    -- the task holds what it has received, if the event is for slot `k`
    have hrecv : (tcpRelay k).Has (w ++ [⟨.getEvent, ⟨.recvData, j⟩⟩] ++
        [⟨.recv j TcpEcho.rxBufferSize, (dataLen, rxBuffer)⟩])
        (if j = k then rxBuffer.take dataLen.toNat else []) 0 :=
      htold.snoc rfl (by simp [tcpRelay, toldOn, recvOn, ClientEvent.isEvent]) rfl
    refine ⟨⟨_, _, hrecv⟩, Program.keeps_ite (fun hneg => ?_) fun _ => ?_⟩
    · have hnone : (if j = k then rxBuffer.take dataLen.toNat else []) = [] := by
        have hzero : dataLen.toNat = 0 := Int.toNat_eq_zero.mpr hneg.le
        rw [hzero, List.take_zero, ite_self]
      rwa [hnone] at hrecv
    · refine hrecv.keeps (tcpRelay_getIpconfigRemote k j) fun _ v hv =>
        Program.keeps_perform.mpr fun result => ?_
      have hsent : (tcpRelay k).Has
          (v ++ [⟨.send j ((rxBuffer.take dataLen.toNat).map toupper), result⟩]) [] 0 := by
        refine hv.snoc ?_ rfl trivial
        by_cases hjk : j = k <;> simp [tcpRelay, receivedOn, sentTo, hjk]
      exact ⟨⟨_, _, hsent⟩, hsent⟩
  | ifup =>
    exact (hquiet (by simp)).keeps (tcpRelay_socket k .tcp) fun id _ hsocket =>
      hsocket.keeps (tcpRelay_listen k id _ _) fun _ _ hlisten => hlisten
  | ifdown =>
    have hdown := hquiet (by simp)
    refine Program.keeps_ite (fun _ => hdown.keeps (tcpRelay_close k _) fun _ _ hclosed => ?_)
      fun _ => ?_
    · exact Program.keeps_ite (fun _ => hclosed.keeps (tcpRelay_close k _) fun _ _ hclose => hclose)
        fun _ => hclosed
    · exact Program.keeps_ite (fun _ => hdown.keeps (tcpRelay_close k _) fun _ _ hclose => hclose)
        fun _ => hdown
  | accepted =>
    exact Program.keeps_ite (fun _ => hquiet (by simp))
      fun _ => (hquiet (by simp)).keeps (tcpRelay_close k j) fun _ _ hclose => hclose
  | closed => exact (hquiet (by simp)).keeps (tcpRelay_close k j) fun _ _ hclose => hclose
  | timedOut | aborted | none | newConnection | sentData | recvFromData | resendData | dnsResult =>
    exact hquiet (by simp)

/-! ### What the server does -/

/-- The bytes that client `c` is given by a `recv` on slot `k`. -/
def takenBytes (c : ℕ) (k : ℤ) : Action × Reply → List UInt8
  | (.call i (.recv id _ _), .received result data _ _) =>
    if i = c ∧ id = k then data.take result.toNat else []
  | _ => []

/-- A delivery on slot `k` is one pbuf of at most `n` bytes, or none when the other side has closed
the connection. -/
def SmallPbuf (n : ℕ) (k : ℤ) (a : Action) : Prop :=
  (deliveredOn k a).length ≤ 1 ∧ ∀ x ∈ deliveredOn k a, x.2.payload.bytes.length ≤ n

instance (n : ℕ) (k : ℤ) (a : Action) : Decidable (SmallPbuf n k a) :=
  inferInstanceAs (Decidable (_ ∧ ∀ _ ∈ _, _))

theorem SmallPbuf.onePbuf {n : ℕ} {a : Action} (h : SmallPbuf n k a) : OnePbuf k a := by
  unfold OnePbuf
  split
  · rintro rfl
    have hlen := h.1
    rwa [deliveredOn, if_pos rfl] at hlen
  · trivial

/-- A `send` of client `c` on slot `k` finds memory for its bytes. -/
def QueuesOn (c : ℕ) (k : ℤ) (a : Action) : Prop :=
  ∀ x ∈ sentOn c k a, x.2.alloc.isSome = true ∧ x.2.write = .ok

instance (c : ℕ) (k : ℤ) (a : Action) : Decidable (QueuesOn c k a) :=
  inferInstanceAs (Decidable (IfSome _ _))

/-- A step next to an echo task that has a connection in slot `k`. -/
def EchoedOn (cfg : Config) (n : ℕ) (k : ℤ) (s : Server) (a : Action) : Prop :=
  ServedOn cfg k s a ∧ ConnectsAtZero cfg s a ∧ UdpHasRoom cfg s a ∧ SmallPbuf n k a

instance (n : ℕ) (k : ℤ) (a : Action) : Decidable (EchoedOn cfg n k s a) :=
  inferInstanceAs (Decidable (_ ∧ _ ∧ _ ∧ _))

/-- A `recv` of another client returns nothing. -/
theorem returnedBytes_eq (hown : s.table.OwnedBy cfg c k) {a : Action} {r : Reply}
    (hs : step cfg s a = .ok (s', r)) : returnedBytes k (a, r) = takenBytes c k (a, r) := by
  unfold returnedBytes
  split
  · next i id length timed result data remote timestamp heq =>
    cases heq
    have htaken : takenBytes c k (.call i (.recv id length timed),
        .received result data remote timestamp)
          = if i = c ∧ id = k then data.take result.toNat else [] := rfl
    have hs : recvCommon cfg s i id length timed
        = .ok (s', .received result data remote timestamp) := hs
    rw [htaken]
    by_cases hid : id = k
    · subst hid
      rw [if_pos rfl]
      unfold recvCommon at hs
      dsimp only at hs
      split at hs
      · cases hs
        simp
      · next hfind =>
        have howner := find_success_iff.mp (not_not.mp hfind)
        rw [if_pos ⟨howner.2.symm.trans hown.2, rfl⟩, take_receive hs]
    · rw [if_neg hid, if_neg fun h => hid h.2]
  · next hnot =>
    unfold takenBytes
    split
    · next heq => exact absurd heq (hnot _ _ _ _ _ _ _ _)
    · rfl

/-- The state along a history in which client `c` receives on its connection in slot `k` with a
buffer of `n` bytes. -/
structure EchoOk (cfg : Config) (c : ℕ) (k : ℤ) (p : Ptr) (n : ℕ) (s : Server)
    (tr : List (Action × Reply)) (t : Server) : Prop extends OpenOn cfg c k p t where
  /-- The queues are sound. -/
  queue : EventsOk cfg t.queue
  /-- What has been sent is queued. -/
  stream : t.stream p = s.stream p ++ tr.flatMap (queuedBytes c k)
  /-- What the client has been given, and what is still in the chain, is what was accepted; the
  pbufs are small, and the client has heard of each of them. -/
  chain : ∃ ch, RxOk t t.refused ch ∧
    tr.flatMap (takenBytes c k) ++ (rxData t.pbufs (ch (.inl k))).flatMap Chunk.bytes
      = tr.flatMap (acceptedBytes k) ∧
    (∀ y ∈ rxData t.pbufs (ch (.inl k)), y.bytes.length ≤ n) ∧
    (rxData t.pbufs (ch (.inl k))).length + recvsOn c k tr ≤ heardOf cfg c k tr t

/-- The pbufs in the chain stay small. -/
theorem ChainStep.small {n : ℕ} {a : Action} {r : Reply} {x x' : List Chunk}
    (hstep : ChainStep k c a r x x') (hsmall : SmallPbuf n k a)
    (hx : ∀ y ∈ x, y.bytes.length ≤ n) : ∀ y ∈ x', y.bytes.length ≤ n := by
  cases hstep with
  | idle => exact hx
  | @accepted pcb cells =>
    intro y hy
    rcases List.mem_append.mp hy with hy | hy
    · exact hx y hy
    · obtain ⟨cell, hcell, rfl⟩ := List.mem_map.mp hy
      exact hsmall.2 cell (by rwa [deliveredOn, if_pos rfl])
  | @refused pcb cells e _ he =>
    rw [hsmall.onePbuf.tail_eq_nil, List.map_nil, List.append_nil]
    exact hx
  | receivedNone => exact hx
  | received => exact fun y hy => hx y (List.mem_cons_of_mem _ hy)

/-- **The server, for a client that receives with a large enough buffer**, and once for each event
at most. -/
theorem echoOk_of_run {n : ℕ} {tr : List (Action × Reply)} (h0 : EchoOk cfg c k p n s [] s)
    (hrun : Run (step cfg) (EchoedOn cfg n k) s tr t) (hact : (t.connections k).isActive = true)
    (hcount : ∀ pre, pre <+: tr → recvsOn c k pre ≤ recvDataEvents c k pre)
    (hbuffer : ∀ length timed r, (.call c (.recv k length timed), r) ∈ tr →
      (n : ℤ) ≤ int32OfUInt32 length) : EchoOk cfg c k p n s tr t := by
  induction hrun with
  | nil => exact h0
  | @snoc tr u v a r hrun hok hs ih =>
    obtain ⟨⟨hallowed, hactive, hudp⟩, hzero, hroom, hsmall⟩ := hok
    have hprev := ih hactive (fun pre hpre => hcount pre (hpre.trans (List.prefix_append _ _)))
      fun length timed r hmem => hbuffer length timed r (List.mem_append_left _ hmem)
    obtain ⟨hopen, hq, hstream, ch, hrx, hbytes, hlen, hheard⟩ := hprev
    have hopen' := hopen.step hallowed hzero hs hact
    have hk := hopen.on.1.1
    have hslot : TcpSlotOk cfg k u := ⟨hopen.table, hq, hopen.on.2.1⟩
    obtain ⟨ch', hrx', hstep⟩ := chainStep hrx hslot hk hallowed hroom
      (ServedOn.ne_udpRecv ⟨hallowed, hactive, hudp⟩) hs hact
    refine ⟨hopen', eventsOk_step hq hs, ?_, ch', hrx', ?_, hstep.small hsmall hlen, ?_⟩
    · obtain ⟨hadd, -⟩ := stream_step hopen.table hopen.routed hopen.on hallowed hs hopen'.on.2.2.2
      rw [hadd, hstream, List.flatMap_append, List.flatMap_singleton, List.append_assoc]
    · have hfits : FitsChain k (u.connections k).clientNum (rxData u.pbufs (ch (.inl k))) a := by
        refine ⟨hsmall.onePbuf, ?_⟩
        rintro length timed rfl y hy
        rw [hopen.on.1.2] at hbuffer
        have hle := hlen y (List.mem_of_mem_head? hy)
        have := hbuffer length timed r (by simp)
        omega
      have hcons := hstep.conserves hfits
      rw [returnedBytes_eq hopen.on.1 hs] at hcons
      simp only [List.flatMap_append, List.flatMap_singleton]
      rw [List.append_assoc, hcons, ← List.append_assoc, hbytes]
    · have howner : (u.connections k).clientNum = c := hopen.on.1.2
      subst howner
      exact hstep.length_add_le hopen.table hq hk hallowed hs hact hsmall.onePbuf
        (hcount _ List.prefix_rfl) hheard

/-! ### The task next to the server -/

section Obeys

variable {tr : List (Action × Reply)} {w : List ClientCall} {σ : Type} {body : σ → Client σ}
  {q q' : Client σ}

/-- The receives of the task are those in the history. -/
theorem Obeys.recvsOn (h : Obeys c body q tr w q') (k : ℤ) :
    w.countP (recvOn k) = recvsOn c k tr := by
  refine h.countP (fun e call r hdone => ?_) fun x _ hx => ?_
  · cases hdone with
    | recv => simp [recvOn, Action.isRecv]
    | _ => rfl
  · obtain ⟨a, r⟩ := x
    unfold Action.isRecv
    split
    · next i id length timed heq =>
      refine decide_eq_false fun hi => ?_
      dsimp only at heq
      rw [heq, hi.1] at hx
      exact ownCall_eq_none hx _ rfl
    · rfl

/-- The bytes that the task has received. -/
theorem Obeys.takenBytes (h : Obeys c body q tr w q') (k : ℤ) :
    w.flatMap (receivedOn k) = tr.flatMap (takenBytes c k) := by
  refine h.flatMap (fun e call r _ hdone => ?_) fun x _ hx => ?_
  · cases hdone with
    | recv => simp [receivedOn, Xtcp.takenBytes]
    | _ => rfl
  · unfold Xtcp.takenBytes
    split
    · next i id length timed result data remote timestamp =>
      exact if_neg fun hi => ownCall_eq_none hx _ (by rw [hi.1])
    · rfl

/-- The bytes that the task has sent, if there has been memory for them. -/
theorem Obeys.queuedBytes (h : Obeys c body q tr w q') (k : ℤ)
    (hqueues : ∀ x ∈ tr, QueuesOn c k x.1) :
    w.flatMap (sentTo k) = tr.flatMap (queuedBytes c k) := by
  refine h.flatMap (fun e call r hmem hdone => ?_) fun x _ hx => ?_
  · cases hdone with
    | @send id buffer answer result timestamp reads =>
      have hwell := hqueues _ hmem
      unfold Xtcp.queuedBytes
      by_cases hid : id = k
      · subst hid
        have hsent : sentOn c id (.call c (.send id buffer false answer)) = some (buffer, answer) :=
          if_pos ⟨rfl, rfl⟩
        obtain ⟨halloc, hwrite⟩ : answer.alloc.isSome = true ∧ answer.write = .ok := hwell _ hsent
        simp [sentTo, hsent, halloc, hwrite]
      · have hnone : sentOn c k (.call c (.send id buffer false answer)) = none :=
          if_neg fun hk => hid hk.2
        simp [sentTo, hnone, hid]
    | _ => rfl
  · unfold Xtcp.queuedBytes
    split
    · next buffer answer hsent =>
      obtain ⟨timed, hcall⟩ := sentOn_eq_some hsent
      obtain ⟨a, r⟩ := x
      exact absurd hcall (ownCall_eq_none hx _)
    · rfl

/-- The buffers of the task. -/
theorem Obeys.buffer (h : Obeys c body q tr w q') {n : UInt32} (hw : ∀ e ∈ w, recvWith n e)
    {id : ℤ} {length : UInt32} {timed : Bool} {r : Reply}
    (hmem : (.call c (.recv id length timed), r) ∈ tr) : length = n := by
  obtain ⟨e, he, hdone⟩ := h.mem hmem
  cases hdone
  exact hw _ he

end Obeys

end Xtcp
