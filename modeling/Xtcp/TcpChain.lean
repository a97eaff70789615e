import Xtcp.Close

/-!
# The chain of a TCP connection

The chain of a slot, read as a list of what its pbufs hold.  Three kinds of steps change the list
of a TCP connection that stays open: a delivery that is accepted adds its pbufs at the end; a
delivery that is refused adds its pbufs all the same, apart from the first one, since lwIP gets
back only that one; and a receive of the owner takes off the first pbuf.

## Main definitions

* `Chunk`, `rxData` — what a pbuf holds, and what a chain holds.
* `TcpSlotOk` — the table and the queues are sound, and a slot is a TCP socket.
* `ChainStep` — what one step does to the chain of a connection.

## Main results

* `chainStep` — **every step does one of these things**.
-/

namespace Xtcp

open Runs LinkedChain

variable {cfg : Config} {s s' : Server} {m m' : Pbufs}

/-- What a pbuf holds: its bytes, and what its field `tot_len` says. -/
structure Chunk where
  /-- The bytes of the payload. -/
  bytes : List UInt8
  /-- `tot_len` -/
  totLen : ℕ
  deriving DecidableEq

/-- What a pbuf holds. -/
def Pbuf.chunk (b : Pbuf) : Chunk := ⟨b.payload.bytes, b.totLen⟩

/-- What the pbufs of a chain hold. -/
def rxData (m : Pbufs) (l : List Ptr) : List Chunk := l.filterMap fun p => (m p).map Pbuf.chunk

theorem rxData_append (m : Pbufs) (l l' : List Ptr) :
    rxData m (l ++ l') = rxData m l ++ rxData m l' := List.filterMap_append

theorem rxData_cons {p : Ptr} {b : Pbuf} (h : m p = some b) (l : List Ptr) :
    rxData m (p :: l) = b.chunk :: rxData m l := by
  rw [rxData, List.filterMap_cons, h]
  rfl

/-- Pbufs that hold the same. -/
theorem rxData_congr {l : List Ptr}
    (h : ∀ q ∈ l, (m' q).map Pbuf.chunk = (m q).map Pbuf.chunk) : rxData m' l = rxData m l :=
  List.filterMap_congr h

theorem SameData.chunk_eq (h : SameData m m') (q : Ptr) :
    (m' q).map Pbuf.chunk = (m q).map Pbuf.chunk := by
  have hq := congrArg (Option.map fun x : Payload × ℕ × ℕ => (⟨x.1.bytes, x.2.2⟩ : Chunk)) (h q)
  rwa [Option.map_map, Option.map_map] at hq

/-- What a delivery holds. -/
theorem rxData_deliver (m : Pbufs) {cells : List (Ptr × Pbuf)}
    (hnd : (cells.map Prod.fst).Nodup) :
    ∀ l, l ⊆ cells → rxData (deliver m cells) (l.map Prod.fst) = l.map fun c => c.2.chunk := by
  intro l
  induction l with
  | nil => intro _; rfl
  | cons c l ih =>
    intro hl
    obtain ⟨hc, hl⟩ := List.cons_subset.mp hl
    rw [List.map_cons, List.map_cons, rxData_cons (deliver_of_mem hnd hc), ih hl]

/-- The table and the queues are sound, and slot `k` is a TCP socket. -/
structure TcpSlotOk (cfg : Config) (k : ℤ) (s : Server) : Prop where
  /-- The table is sound. -/
  table : TableOk cfg s.table
  /-- The queues are sound. -/
  queue : EventsOk cfg s.queue
  /-- The slot is a TCP socket. -/
  protocol : (s.connections k).protocol = .tcp

/-- A slot that is active before and after a step is still a TCP socket, and has kept its owner. -/
theorem TcpSlotOk.step {k : ℤ} (h : TcpSlotOk cfg k s) {a : Action} (hok : Allowed cfg s a)
    {r : Reply} (hs : step cfg s a = .ok (s', r)) (hact : (s.connections k).isActive = true)
    (hact' : (s'.connections k).isActive = true) :
    TcpSlotOk cfg k s' ∧ (s'.connections k).clientNum = (s.connections k).clientNum := by
  have hstep := step_table h.table.cursor hok hs
  obtain ⟨-, hclient, hproto⟩ | ⟨-, hreleased, -⟩ := h.table.slot_of_active hstep hact
  · refine ⟨⟨h.table.step hstep, eventsOk_step h.queue hs, ?_⟩, hclient⟩
    have hproto : (s'.connections k).protocol = (s.connections k).protocol := hproto
    rw [hproto, h.protocol]
  · have hslot : (s'.connections k).isActive = false := congrArg Slot.isActive hreleased
    rw [hslot] at hact'
    cases hact'

/-- What one step can do to the chain of slot `k`, which is a TCP connection of client `c` before
and after it. -/
inductive ChainStep (k : ℤ) (c : ℕ) : Action → Reply → List Chunk → List Chunk → Prop
  /-- Nothing.  A receive of another client returns no data. -/
  | idle {a : Action} {r : Reply} {x : List Chunk} :
      (∀ length timed, a ≠ .call c (.recv k length timed)) →
      (∀ pcb cells, a ≠ .happens (.tcpEvent pcb k (.recv cells))) →
      (∀ i length timed result data remote timestamp, a = .call i (.recv k length timed) →
        r = .received result data remote timestamp → data = []) → ChainStep k c a r x x
  /-- A delivery is accepted. -/
  | accepted {pcb : Ptr} {cells : List (Ptr × Pbuf)} {x : List Chunk} :
      ChainStep k c (.happens (.tcpEvent pcb k (.recv cells))) (.err .ok) x
        (x ++ cells.map fun c => c.2.chunk)
  /-- A delivery is refused. -/
  | refused {pcb : Ptr} {cells : List (Ptr × Pbuf)} {e : Err} {x : List Chunk} : e ≠ .ok →
      ChainStep k c (.happens (.tcpEvent pcb k (.recv cells))) (.err e) x
        (x ++ cells.tail.map fun c => c.2.chunk)
  /-- A receive on an empty chain. -/
  | receivedNone {length : UInt32} {timed : Bool} {result : ℤ} {remote : Host}
      {timestamp : UInt32} :
      ChainStep k c (.call c (.recv k length timed)) (.received result [] remote timestamp) [] []
  /-- A receive takes off the first pbuf, and returns its bytes if the buffer is long enough. -/
  | received {length : UInt32} {timed : Bool} {result : ℤ} {data : List UInt8} {remote : Host}
      {timestamp : UInt32} {y : Chunk} {x : List Chunk} :
      ((y.bytes.length : ℤ) ≤ int32OfUInt32 length → data = y.bytes) →
      ChainStep k c (.call c (.recv k length timed)) (.received result data remote timestamp)
        (y :: x) x

/-! ### Steps -/

/-- A delivery on slot `k`. -/
theorem chainStep_recv {ch : Holder → List Ptr} (h : RxOk s s.refused ch) {pcb : Ptr} {k : ℤ}
    (hk : cfg.InRange k) {cells : List (Ptr × Pbuf)}
    (hok : HappeningAllowed s (.tcpEvent pcb k (.recv cells))) {r : Reply}
    (hs : stepTcp cfg s pcb k (.recv cells) = .ok (s', r)) (c : ℕ) :
    ∃ ch', RxOk s' s'.refused ch' ∧
      ChainStep k c (.happens (.tcpEvent pcb k (.recv cells))) r (rxData s.pbufs (ch (.inl k)))
        (rxData s'.pbufs (ch' (.inl k))) := by
  rcases cells with _ | ⟨⟨p, b⟩, cells⟩
  · -- the other side has closed the connection
    have hkeeps : KeepsRx s s' := keepsRx_stepTcp (by simp) hs
    refine ⟨ch, ?_, ?_⟩
    · rw [hkeeps.refused]
      exact h.frame hkeeps.head fun q _ => by rw [hkeeps.pbufs]
    · obtain ⟨⟨t, e⟩, -, hs⟩ := bind_eq_ok.mp hs
      have hr : Reply.err e = r := congrArg Prod.snd (Except.ok.inj hs)
      subst hr
      rw [hkeeps.pbufs]
      generalize rxData s.pbufs (ch (.inl k)) = x
      by_cases he : e = .ok
      · subst he
        have haccepted : ChainStep k c (.happens (.tcpEvent pcb k (.recv []))) (.err .ok) x
          (x ++ []) := .accepted
        rwa [List.append_nil] at haccepted
      · have hrefused : ChainStep k c (.happens (.tcpEvent pcb k (.recv []))) (.err e) x
          (x ++ []) := .refused he
        rwa [List.append_nil] at hrefused
  · obtain ⟨status, -, ⟨hlinked, hnd, hcells⟩, -⟩ := tcpEvent_route hok
    obtain ⟨t, e, ch', ht, hrx, -, hsame, hkeep, hcase⟩ := h.recv cfg hlinked hnd hcells pcb k
    obtain ⟨rfl, rfl⟩ : t = s' ∧ Reply.err e = r := by simpa using ht.symm.trans hs
    refine ⟨ch', hrx, ?_⟩
    -- the pbufs hold what they held when they were delivered
    have hold : rxData t.pbufs (ch (.inl k)) = rxData s.pbufs (ch (.inl k)) :=
      rxData_congr fun q hq => by rw [hsame.chunk_eq q, hkeep q hq]
    have hnew : ∀ l, l ⊆ (p, b) :: cells →
        rxData t.pbufs (l.map Prod.fst) = l.map fun c => c.2.chunk := by
      intro l hl
      rw [rxData_congr fun q _ => hsame.chunk_eq q]
      exact rxData_deliver s.pbufs hnd l hl
    obtain ⟨rfl, hch⟩ | ⟨he, ⟨hch, -⟩ | ⟨hrange, -⟩⟩ := hcase
    · have hall := hnew ((p, b) :: cells) (List.Subset.refl _)
      rw [List.map_cons] at hall
      rw [hch, rxData_append, hold, hall]
      exact .accepted
    · rw [hch, rxData_append, hold, hnew cells (List.subset_cons_self _ _)]
      exact .refused he
    · exact absurd hk hrange

/-- A receive of the owner on slot `k`. -/
theorem chainStep_receive {ch : Holder → List Ptr} (h : RxOk s s.refused ch) {k : ℤ}
    (hk : cfg.InRange k) {length : UInt32} {timed : Bool} {r : Reply}
    (hs : receive cfg s k length timed {} = .ok (s', r)) (c : ℕ) :
    ∃ ch', RxOk s' s'.refused ch' ∧
      ChainStep k c (.call c (.recv k length timed)) r (rxData s.pbufs (ch (.inl k)))
        (rxData s'.pbufs (ch' (.inl k))) := by
  obtain ⟨t, result, data, timestamp, ht, hrx, -, hkeep, hdata⟩ := h.receive hk length timed {}
  obtain ⟨rfl, rfl⟩ : t = s' ∧ _ = r := by simpa using ht.symm.trans hs
  refine ⟨_, hrx, ?_⟩
  have htail : rxData t.pbufs (ch (.inl k)).tail = rxData s.pbufs (ch (.inl k)).tail :=
    rxData_congr fun q hq => by rw [hkeep q hq]
  rw [Function.update_self, htail]
  rcases hdata with ⟨hch, rfl⟩ | ⟨p, l, b, hch, hb, hdata⟩
  · rw [hch]
    exact .receivedNone
  · rw [hch, List.tail_cons, rxData_cons hb]
    exact .received hdata

/-- `close` and `abort` are `shim_close_socket`. -/
theorem shimCloseSocket_of_closes {i : ℕ} {call : Call} {k : ℤ} {lingers : Bool} {r : Reply}
    (hcloses : call.closes k lingers) (hs : step cfg s (.call i call) = .ok (s', r)) :
    ∃ t, shimCloseSocket cfg s i k lingers = .ok t ∧ t = s' := by
  cases call with
  | close id l | abort id l =>
    obtain ⟨rfl, rfl⟩ := hcloses
    obtain ⟨t, ht, hs⟩ := bind_eq_ok.mp hs
    exact ⟨t, ht, congrArg Prod.fst (Except.ok.inj hs)⟩
  | _ => exact hcloses.elim

/-- A slot that its owner has closed is not active any more. -/
theorem isActive_close {i : ℕ} {call : Call} {k : ℤ} {lingers : Bool} {r : Reply}
    (hcloses : call.closes k lingers) (hown : s.table.OwnedBy cfg i k)
    (hs : step cfg s (.call i call) = .ok (s', r)) : (s'.connections k).isActive = false := by
  obtain ⟨t, ht, rfl⟩ := shimCloseSocket_of_closes hcloses hs
  have hfind : (findClientConnection cfg s i k).status = .success := find_success_iff.mpr hown
  rw [shimCloseSocket, if_neg (not_not.mpr hfind)] at ht
  obtain ⟨u, -, ht⟩ := bind_eq_ok.mp ht
  cases ht
  simp [freeClientConnection, hown.1, Server.setEntry, ConnectionEntry.released]

/-- A call that works on the received data of a TCP slot which stays active is a receive of the
owner, or it is refused. -/
theorem call_touches_cases {i : ℕ} {call : Call} {k : ℤ}
    (htouch : (Action.call i call).touches = some k) (hk : cfg.InRange k)
    (hproto : (s.connections k).protocol = .tcp) {r : Reply}
    (hs : step cfg s (.call i call) = .ok (s', r)) (hact : (s'.connections k).isActive = true) :
    (∃ length timed, call = .recv k length timed ∧ (s.connections k).clientNum = i ∧
        receive cfg s k length timed {} = .ok (s', r)) ∨
      s' = s ∧ (∀ length timed, call = .recv k length timed → (s.connections k).clientNum ≠ i) ∧
        ∀ length timed result data remote timestamp, call = .recv k length timed →
          r = .received result data remote timestamp → data = [] := by
  have hclose : ∀ {lingers}, call.closes k lingers → s' = s := by
    intro lingers hcloses
    obtain ⟨t, ht, rfl⟩ := shimCloseSocket_of_closes hcloses hs
    obtain rfl | ⟨hown, -⟩ := shimCloseSocket_cases ht
    · rfl
    · rw [isActive_close hcloses hown hs] at hact
      cases hact
  cases call with
  | close id lingers | abort id lingers =>
    cases htouch
    exact .inr ⟨hclose ⟨rfl, rfl⟩, by simp, by simp⟩
  | recv id length timed =>
    cases htouch
    have hs : recvCommon cfg s i k length timed = .ok (s', r) := hs
    unfold recvCommon at hs
    dsimp only at hs
    split at hs
    · next hfind =>
      cases hs
      refine .inr ⟨rfl, fun _ _ _ hown => hfind ?_, ?_⟩
      · exact find_success_iff.mpr ⟨hk, hown⟩
      · rintro _ _ _ _ _ _ - heq
        cases heq
        rfl
    · next hfind =>
      exact .inl ⟨length, timed, rfl, (find_success_iff.mp (not_not.mp hfind)).2, hs⟩
  | recvfrom id length timed =>
    cases htouch
    have hs : recvfromCommon cfg s i k length timed = .ok (s', r) := hs
    have hp : getProtocol cfg s k = .tcp := by rw [getProtocol, if_pos hk, hproto]
    simp only [recvfromCommon, hp, if_true] at hs
    refine .inr ⟨?_, by simp, by simp⟩
    split at hs
    · cases hs; rfl
    · cases hs; rfl
  | _ => cases htouch

/-- **What a step does to the chain of a TCP connection** that stays open. -/
theorem chainStep {ch : Holder → List Ptr} (h : RxOk s s.refused ch) {k : ℤ}
    (hslot : TcpSlotOk cfg k s) (hk : cfg.InRange k) {a : Action} (hok : Allowed cfg s a)
    (hroom : UdpHasRoom cfg s a)
    (hudp : ∀ pcb cells addr port, a ≠ .happens (.udpRecv pcb k cells addr port)) {r : Reply}
    (hs : step cfg s a = .ok (s', r)) (hact : (s'.connections k).isActive = true) :
    ∃ ch', RxOk s' s'.refused ch' ∧ ChainStep k (s.connections k).clientNum a r
      (rxData s.pbufs (ch (.inl k))) (rxData s'.pbufs (ch' (.inl k))) := by
  by_cases htouch : a.touches = some k
  · cases a with
    | call i call =>
      obtain ⟨length, timed, rfl, hown, hs⟩ | ⟨rfl, hnot, hnone⟩ :=
        call_touches_cases htouch hk hslot.protocol hs hact
      · rw [hown]
        exact chainStep_receive h hk hs i
      · refine ⟨ch, h, .idle (fun length timed heq => ?_) (by simp) ?_⟩
        · cases heq
          exact hnot length timed rfl rfl
        · rintro _ length timed result data remote timestamp heq hr
          cases heq
          exact hnone length timed result data remote timestamp rfl hr
    | happens happening =>
      unfold Action.touches at htouch
      split at htouch
      · next heq => cases heq
      · next heq => cases heq
      · next heq => cases heq
      · next heq => cases heq
      · next heq =>
        cases heq
        cases htouch
        exact chainStep_recv h hk hok hs _
      · next heq =>
        cases heq
        cases htouch
        exact absurd rfl (hudp _ _ _ _)
      · cases htouch
  · have hsafe := RxSafe.step h hslot.table.cursor hslot.queue.queueOk hok hroom
    rw [hs] at hsafe
    obtain ⟨ch', hrx, hspares⟩ := hsafe
    obtain ⟨hch, hpbufs⟩ := hspares k htouch
    refine ⟨ch', hrx, ?_⟩
    have hdata : rxData s'.pbufs (ch (.inl k)) = rxData s.pbufs (ch (.inl k)) :=
      rxData_congr fun q hq => by rw [hpbufs q hq]
    rw [hch, hdata]
    refine .idle ?_ ?_ ?_
    · rintro length timed rfl
      exact htouch rfl
    · rintro pcb cells rfl
      exact htouch rfl
    · rintro i length timed result data remote timestamp rfl
      exact absurd rfl htouch

end Xtcp
