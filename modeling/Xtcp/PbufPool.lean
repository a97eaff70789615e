import Xtcp.Library.Pool
import Xtcp.RxRuns
import Xtcp.Transmit
import Xtcp.UdpRouting

/-!
# The pool of pbufs

lwIP takes its pbufs from a pool, so a pbuf that is in use and that nobody will release is lost for
good.  Received pbufs are in the chain of a slot, or lwIP keeps them because they were refused.
Nothing but a receive or a close takes them out of the chain of a slot, and both release what they
take out; a refused pbuf goes back to where it came from.  A send releases its pbuf before it
returns, unless lwIP has kept a reference to it, or the socket has no protocol.

## Main definitions

* `PoolOk` — every pbuf in use is in one chain, or was left by a send.
* `LeavesPbuf`, `Action.leaves` — a send leaves its pbuf, and the pbuf that an action leaves.
* `PoolRun` — a history with the pbufs that its sends leave.

## Main results

* `PoolOk.deliver`, `PoolOk.eventRecv`, `PoolOk.clearPending`, `PoolOk.freeRemoteData`,
  `PoolOk.transmit` — what the operations do to the pool.
* `PoolOk.step` — what a step does to it.
* `pbufs_accounted` — **no received pbuf is lost, and a send leaves one only if lwIP keeps it or its
  socket has no protocol**.
-/

namespace Xtcp

open Runs LinkedChain Pools

variable {cfg : Config} {s s' t : Server} {m m' : Pbufs}

/-! ### Pbufs in use -/

/-- The pbufs in use. -/
def livePbufs (m : Pbufs) : Set Ptr := {q | m q ≠ none}

theorem mem_livePbufs {q : Ptr} : q ∈ livePbufs m ↔ m q ≠ none := Iff.rfl

theorem SameData.livePbufs_eq (h : SameData m m') : livePbufs m' = livePbufs m := by
  ext q
  have hq := congrArg Option.isNone (h q)
  simp only [Option.isNone_map] at hq
  rw [mem_livePbufs, mem_livePbufs, ne_eq, ne_eq, ← Option.isNone_iff_eq_none, hq,
    Option.isNone_iff_eq_none]

/-- The chains of the slots and of lwIP are sound, and every pbuf in use is in one of them, or is
one of those that were left by sends. -/
structure PoolOk (s : Server) (kept : Ptr → Bool) (ch : Holder → List Ptr) (left : List Ptr) : Prop
    extends RxOk s kept ch where
  /-- Every pbuf in use is in one place. -/
  pool : Pool (livePbufs s.pbufs) ch left

/-- lwIP has no chain that starts with a pbuf it does not keep. -/
theorem RxOk.kept_nil {kept : Ptr → Bool} {ch : Holder → List Ptr} (h : RxOk s kept ch) {p : Ptr}
    (hp : kept p = false) : ch (.inr p) = [] := by
  have hchain := h.chains.isChain (.inr p)
  rwa [rxHead, hp, if_neg Bool.false_ne_true, IsChain.none_iff] at hchain

/-! ### Deliveries -/

/-- Pbufs that are there already are not written. -/
theorem deliver_same {cells : List (Ptr × Pbuf)} (hnd : (cells.map Prod.fst).Nodup)
    (hsame : ∀ c ∈ cells, m c.1 = some c.2) : deliver m cells = m := by
  funext q
  by_cases hq : q ∈ cells.map Prod.fst
  · obtain ⟨c, hc, rfl⟩ := List.mem_map.mp hq
    rw [deliver_of_mem hnd hc, hsame c hc]
  · exact deliver_of_notMem hq

/-- The pbufs in use after a delivery. -/
theorem mem_livePbufs_deliver {cells : List (Ptr × Pbuf)} (hnd : (cells.map Prod.fst).Nodup)
    {q : Ptr} : q ∈ livePbufs (deliver m cells) ↔ q ∈ cells.map Prod.fst ∨ q ∈ livePbufs m := by
  by_cases hq : q ∈ cells.map Prod.fst
  · obtain ⟨c, hc, rfl⟩ := List.mem_map.mp hq
    simp [mem_livePbufs, deliver_of_mem hnd hc, hq]
  · simp [mem_livePbufs, deliver_of_notMem hq, hq]

namespace PoolOk

variable {kept kept' : Ptr → Bool} {ch ch' : Holder → List Ptr} {left : List Ptr} {p : Ptr} {k : ℤ}

/-- The data of the pbufs are the same, and two holders have shared their pbufs anew. -/
theorem of_exchange (h : PoolOk s kept ch left) {i j : Holder} {l r : List Ptr}
    (hrx : RxOk t kept' (Function.update (Function.update ch i l) j r))
    (hsame : SameData s.pbufs t.pbufs) (hij : i ≠ j)
    (hmem : ∀ p, p ∈ l ∨ p ∈ r ↔ p ∈ ch i ∨ p ∈ ch j) :
    PoolOk t kept' (Function.update (Function.update ch i l) j r) left := by
  refine ⟨hrx, ?_⟩
  rw [hsame.livePbufs_eq]
  refine h.pool.exchange hij hmem ?_
  have hdisj := hrx.chains.disjoint i j hij
  rwa [Function.update_of_ne hij, Function.update_self, Function.update_self] at hdisj

/-- Nothing has been done to the received data. -/
theorem keepsRx (h : PoolOk s s.refused ch left) (hkeeps : KeepsRx s t) :
    PoolOk t t.refused ch left := by
  refine ⟨?_, ?_⟩
  · rw [hkeeps.refused]
    exact h.toRxOk.frame hkeeps.head fun q _ => by rw [hkeeps.pbufs]
  · rw [hkeeps.pbufs]
    exact h.pool

/-- **A delivery** brings new pbufs, or pbufs that lwIP has kept. -/
theorem deliver (h : PoolOk s kept ch left) {b : Pbuf} {cells : List (Ptr × Pbuf)}
    (hlinked : Linked ((p, b) :: cells)) (hnd : (((p, b) :: cells).map Prod.fst).Nodup)
    (hcells : FreshCells s ((p, b) :: cells) ∨
      kept p = true ∧ ∀ c ∈ (p, b) :: cells, s.pbufs c.1 = some c.2) :
    PoolOk { s with pbufs := deliver s.pbufs ((p, b) :: cells) } (Function.update kept p true)
      (Function.update ch (.inr p) (((p, b) :: cells).map Prod.fst)) left := by
  have hrx := (h.toRxOk.deliver hlinked hnd hcells).1
  refine ⟨hrx, ?_⟩
  rcases hcells with hfresh | ⟨hkept, hsame⟩
  · -- lwIP has kept no chain that starts with a new pbuf
    have hempty : ch (.inr p) = [] :=
      h.toRxOk.kept_nil (h.toRxOk.kept_of_none (hfresh (p, b) List.mem_cons_self))
    refine h.pool.update (fun q hq => .inr ?_) fun q => ?_
    · obtain ⟨c, hc, rfl⟩ := List.mem_map.mp hq
      exact fun hlive => hlive (hfresh c hc)
    · rw [mem_livePbufs_deliver hnd, hempty]
      simp
  · have hch : ch (.inr p) = ((p, b) :: cells).map Prod.fst := by
      have hchain := isChain_deliver s.pbufs hlinked hnd
      rw [deliver_same hnd hsame] at hchain
      exact (h.toRxOk.kept_isChain hkept).eq hchain
    rw [deliver_same hnd hsame, ← hch, Function.update_eq_self]
    exact h.pool

/-- **`set_remote`** -/
theorem setRemote (h : PoolOk s kept ch left) (hp : kept p = true) (hk : cfg.InRange k)
    (remote : Option IpAddr) (port : UInt16) :
    ∃ t, setRemote cfg s k remote port (some p) = .ok (t, .success) ∧
      PoolOk t (Function.update kept p false)
        (Function.update (Function.update ch (.inr p) []) (.inl k) (ch (.inl k) ++ ch (.inr p)))
        left := by
  obtain ⟨t, ht, hrx, hsame, -⟩ := h.toRxOk.setRemote hp hk remote port
  refine ⟨t, ht, h.of_exchange hrx hsame (by simp) fun q => ?_⟩
  rw [List.mem_append]
  simp [or_comm]

/-- **`unlink_remote`** -/
theorem unlinkRemote (h : PoolOk s kept ch left) (hk : cfg.InRange k) {l r : List Ptr}
    (hch : ch (.inl k) = l ++ p :: r) (hp : kept p = false) :
    ∃ t, unlinkRemote cfg s k (some p) = .ok (t, .success) ∧
      PoolOk t (Function.update kept p true)
        (Function.update (Function.update ch (.inl k) (l ++ r)) (.inr p) [p]) left := by
  obtain ⟨t, ht, hrx, hsame, -⟩ := h.toRxOk.unlinkRemote hk hch
  refine ⟨t, ht, h.of_exchange hrx hsame (by simp) fun q => ?_⟩
  rw [hch, h.toRxOk.kept_nil hp]
  simp only [List.mem_append, List.mem_cons, List.not_mem_nil, or_false]
  tauto

/-- **`LWIP_EVENT_RECV`**: whether the event is queued or not, every delivered pbuf has a holder. -/
theorem eventRecv (h : PoolOk s kept ch left) {l : List Ptr} (hp : kept p = true)
    (hl : ch (.inr p) = p :: l) (hk : cfg.InRange k) (c : ℕ) :
    ∃ t e ch', eventRecv cfg s k c (some p) = .ok (t, e) ∧
      PoolOk t (Function.update kept p (decide (e ≠ .ok))) ch' left := by
  obtain ⟨t, ht, hpool⟩ := h.setRemote hp hk none 0
  have hqueued : PoolOk (enqueue cfg t c k .recvData).1 (Function.update kept p false)
      (Function.update (Function.update ch (.inr p) []) (.inl k) (ch (.inl k) ++ ch (.inr p)))
      left := ⟨hpool.toRxOk.frame (fun _ => rfl) fun _ _ => rfl, hpool.pool⟩
  by_cases hsucc : (enqueue cfg t c k .recvData).2 = .success
  · refine ⟨(enqueue cfg t c k .recvData).1, .ok, _, ?_, hqueued⟩
    simp only [Xtcp.eventRecv, ht, Bind.bind, Except.bind, hsucc, ne_eq, not_true_eq_false,
      if_false]
  · obtain ⟨u, hu, hunlinked⟩ := hqueued.unlinkRemote hk (p := p) (l := ch (.inl k)) (r := l)
      (by simp [hl]) (Function.update_self _ _ _)
    refine ⟨u, .inprogress, _, ?_, by simpa using hunlinked⟩
    simp only [Xtcp.eventRecv, ht, Bind.bind, Except.bind, hsucc, ne_eq, not_false_eq_true,
      if_true, hu]

/-! ### Releases -/

/-- The chain of a holder is released. -/
theorem release (h : PoolOk s kept ch left) (i : Holder)
    (hrx : RxOk t kept' (Function.update ch i []))
    (hpbufs : ∀ q, t.pbufs q = if q ∈ ch i then none else s.pbufs q) :
    PoolOk t kept' (Function.update ch i []) left := by
  refine ⟨hrx, h.pool.update (by simp) fun q => ?_⟩
  rw [mem_livePbufs, hpbufs]
  split
  · next hq => simp [hq]
  · next hq => simp [hq, mem_livePbufs]

/-- **`clear_pending_rx_data_on_connection`** -/
theorem clearPending (h : PoolOk s kept ch left) (hk : cfg.InRange k) :
    ∃ t, clearPendingRxDataOnConnection cfg s k = .ok t ∧
      PoolOk t kept (Function.update ch (.inl k) []) left := by
  obtain ⟨t, ht, hrx, -⟩ := h.toRxOk.clearPending hk
  refine ⟨t, ht, h.release (.inl k) hrx fun q => ?_⟩
  obtain ⟨hhead, rfl⟩ | ⟨p, b, m, hhead, -, hm, rfl⟩ := clearPending_cases hk ht
  · have hchain := h.toRxOk.isChain k
    rw [hhead, IsChain.none_iff] at hchain
    rw [hchain]
    simp
  · obtain ⟨m', hm', hpbufs⟩ := h.toRxOk.pbufFree (i := .inl k) hhead
    obtain rfl : m = m' := by simpa using hm.symm.trans hm'
    exact hpbufs q

/-- **`free_remote_data`** -/
theorem freeRemoteData (h : PoolOk s kept ch left) (hk : cfg.InRange k) {l : List Ptr}
    (hch : ch (.inl k) = p :: l) :
    ∃ t, freeRemoteData cfg s k = .ok (t, .success) ∧
      PoolOk t kept (Function.update ch (.inl k) l) left := by
  obtain ⟨t, ht, hrx, hoff⟩ := h.toRxOk.freeRemoteData hk hch
  have hpmem : p ∈ ch (.inl k) := by rw [hch]; exact List.mem_cons_self
  obtain ⟨b, hb, href⟩ := h.ref _ p hpmem
  -- the pbuf has one reference, so it is gone
  have hgone : t.pbufs p = none := by
    obtain rfl | ⟨q, b', m, hhead, hb', hm, rfl⟩ := freeRemoteData_cases ht
    · have hchain := hrx.isChain k
      rw [Function.update_self] at hchain
      have heq := hchain.eq (h.toRxOk.isChain k)
      rw [hch] at heq
      simpa using congrArg List.length heq
    · have hchain := h.toRxOk.isChain k
      rw [hch] at hchain
      obtain rfl : q = p := Option.some.inj (hhead.symm.trans hchain.head_eq)
      obtain rfl : b = b' := Option.some.inj (hb.symm.trans hb')
      have hlast : Function.update s.pbufs q (some { b with next := none }) q
          = some { b with next := none } := Function.update_self _ _ _
      have hfree := pbufFree_single hlast href.le rfl
      obtain rfl : m = _ := Except.ok.inj (hm.symm.trans hfree)
      rw [Server.pbufs_consumed]
      exact Function.update_self _ _ _
  refine ⟨t, ht, hrx, h.pool.update (fun q hq => .inl ?_) fun q => ?_⟩
  · rw [hch]
    exact List.mem_cons_of_mem p hq
  · have hnd := (h.toRxOk.isChain k).nodup
    rw [hch] at hnd
    by_cases hqp : q = p
    · subst hqp
      simp [mem_livePbufs, hgone, hch, (List.nodup_cons.mp hnd).1]
    · rw [mem_livePbufs, hoff q hqp, hch, List.mem_cons, not_or]
      constructor
      · intro hlive
        by_cases hql : q ∈ l
        · exact .inl hql
        · exact .inr ⟨hlive, hqp, hql⟩
      · rintro (hql | ⟨hlive, -⟩)
        · exact h.toRxOk.ne_none (i := .inl k) (by rw [hch]; exact List.mem_cons_of_mem p hql)
        · exact hlive

/-! ### Steps -/

/-- A receive releases the first pbuf of the chain. -/
theorem receive (h : PoolOk s s.refused ch left) (hk : cfg.InRange k) {length : UInt32}
    {timed : Bool} {remote : Host} {r : Reply}
    (hs : receive cfg s k length timed remote = .ok (t, r)) :
    PoolOk t t.refused (Function.update ch (.inl k) (ch (.inl k)).tail) left := by
  obtain ⟨copy, -, hs⟩ := bind_eq_ok.mp hs
  obtain ⟨⟨u, e⟩, hu, hs⟩ := bind_eq_ok.mp hs
  cases hs
  rw [(leaves_freeRemoteData hu).refused]
  cases hch : ch (.inl k) with
  | nil =>
    rw [h.toRxOk.freeRemoteData_nil hch] at hu
    cases hu
    rw [List.tail_nil, ← hch, Function.update_eq_self]
    exact h
  | cons p l =>
    obtain ⟨v, hv, hpool⟩ := h.freeRemoteData hk hch
    cases hv.symm.trans hu
    exact hpool

/-- A close releases the chain of the slot. -/
theorem close (h : PoolOk s s.refused ch left) {i : ℕ} {lingers : Bool}
    (hs : shimCloseSocket cfg s i k lingers = .ok t) : ∃ ch', PoolOk t t.refused ch' left := by
  obtain rfl | ⟨hown, u, hu, rfl⟩ := shimCloseSocket_cases hs
  · exact ⟨ch, h⟩
  · have hqueue : KeepsRx s { s with queue := (freeNotificationsOnQueue cfg s.queue i k).1 } :=
      .of_eq rfl rfl rfl
    obtain ⟨v, hv, hpool⟩ := (h.keepsRx hqueue).clearPending hown.1
    obtain rfl : v = u := Except.ok.inj (hv.symm.trans hu)
    have hkeeps : Keeps v (freeClientConnection cfg (closePcb cfg v k lingers) k) :=
      (Keeps.closePcb v k lingers).trans (Keeps.freeClientConnection _ k)
    rw [← (leaves_clearPending hv).refused] at hpool
    exact ⟨_, hpool.keepsRx hkeeps.toKeepsRx⟩

/-- A delivery on a TCP connection. -/
theorem recv (h : PoolOk s s.refused ch left) {b : Pbuf} {cells : List (Ptr × Pbuf)}
    (hlinked : Linked ((p, b) :: cells)) (hnd : (((p, b) :: cells).map Prod.fst).Nodup)
    (hcells : FreshCells s ((p, b) :: cells) ∨ RefusedCells s ((p, b) :: cells)) {pcb : Ptr}
    {arg : ℤ} {r : Reply} (hs : stepTcp cfg s pcb arg (.recv ((p, b) :: cells)) = .ok (t, r)) :
    ∃ ch', PoolOk t t.refused ch' left := by
  have hpool := h.deliver hlinked hnd (hcells.imp id fun hr => ⟨by
    simpa [deliveredHead] using hr.1, hr.2⟩)
  obtain ⟨⟨u, e⟩, hu, hs⟩ := bind_eq_ok.mp hs
  obtain rfl : { u with refused := Function.update u.refused p (decide (e ≠ .ok)) } = t :=
    congrArg Prod.fst (Except.ok.inj hs)
  -- the callback leaves it to lwIP what is kept
  obtain ⟨ch', hu', hrefused⟩ : ∃ ch',
      PoolOk u (Function.update s.refused p (decide (e ≠ .ok))) ch' left ∧
        u.refused = s.refused := by
    unfold lwipTcpEvent at hu
    split at hu
    · next harg =>
      obtain ⟨v, e', ch', hv, hpool'⟩ := hpool.eventRecv (l := cells.map Prod.fst)
        (Function.update_self _ _ _) (Function.update_self _ _ _) harg
        (getClientInfo cfg { s with pbufs := Xtcp.deliver s.pbufs ((p, b) :: cells) } arg)
      cases hv.symm.trans hu
      rw [Function.update_idem] at hpool'
      exact ⟨ch', hpool', (eventRecv_refused hu).trans rfl⟩
    · cases hu
      exact ⟨_, hpool, rfl⟩
  rw [← hrefused] at hu'
  exact ⟨ch', hu'.toRxOk.frame (fun _ => rfl) fun _ _ => rfl, hu'.pool⟩

/-- A datagram for whose event there is room. -/
theorem udpRecv (h : PoolOk s s.refused ch left) (hq : QueueOk cfg s.queue) {pcb : Ptr} {arg : ℤ}
    {cells : List (Ptr × Pbuf)} {addr : Option IpAddr} {port : UInt16}
    (hok : HappeningAllowed s (.udpRecv pcb arg cells addr port)) (harg : cfg.InRange arg)
    (hroom : cells ≠ [] → cfg.InRange arg → HasRoom cfg s.queue (s.connections arg).clientNum)
    {r : Reply} (hs : stepHappening cfg s (.udpRecv pcb arg cells addr port) = .ok (t, r)) :
    ∃ ch', PoolOk t t.refused ch' left := by
  obtain ⟨-, hlinked, hnd, hfresh⟩ := hok
  cases cells with
  | nil =>
    cases hs
    exact ⟨ch, h⟩
  | cons c cells =>
    obtain ⟨p, b⟩ := c
    have hrefused : s.refused p = false :=
      h.toRxOk.kept_of_none (hfresh (p, b) List.mem_cons_self)
    obtain ⟨u, hu, hpool⟩ :=
      (h.deliver hlinked hnd (.inl hfresh)).setRemote (Function.update_self _ _ _) harg addr port
    rw [Function.update_idem, ← hrefused, Function.update_eq_self] at hpool
    have hsucc : (enqueue cfg u (getClientInfo cfg u arg) arg (udpRecvEvent u pcb)).2
        = .success := (enqueue_setRemote_iff hu hq harg _).mpr (hroom (by simp) harg)
    -- the event is queued, so the pbufs stay in the slot
    simp only [stepHappening, xtcpUdpRecv, deliveredHead, List.head?_cons, Option.map_some,
      if_pos harg, hu, Bind.bind, Except.bind, hsucc, ne_eq, not_true_eq_false, if_false] at hs
    cases hs
    have hsame : u.refused = s.refused := (leaves_setRemote hu).refused
    rw [← hsame] at hpool
    exact ⟨_, hpool.keepsRx (keepsRx_enqueue _ _ _ _)⟩

/-- A datagram for whose event there is no room leaves a slot with a chain that has been released,
and then nothing is in order any more. -/
theorem udpRecv_full (h : PoolOk s s.refused ch left) (hq : QueueOk cfg s.queue) {pcb : Ptr}
    {arg : ℤ} {cells : List (Ptr × Pbuf)} {addr : Option IpAddr} {port : UInt16}
    (hok : HappeningAllowed s (.udpRecv pcb arg cells addr port)) (hcells : cells ≠ [])
    (harg : cfg.InRange arg) (hfull : ¬ HasRoom cfg s.queue (s.connections arg).clientNum)
    {r : Reply} (hs : stepHappening cfg s (.udpRecv pcb arg cells addr port) = .ok (t, r)) :
    ¬ PoolOk t kept' ch' left := by
  obtain ⟨⟨p, b⟩, cells, rfl⟩ := List.exists_cons_of_ne_nil hcells
  obtain ⟨-, hlinked, hnd, hfresh⟩ := hok
  obtain ⟨u, hu, hrx, -⟩ :=
    (h.toRxOk.deliver hlinked hnd (.inl hfresh)).1.setRemote (Function.update_self _ _ _) harg
      addr port
  have hchain : IsChain u.pbufs.nxt (u.connections arg).pbuf
      (ch (.inl arg) ++ p :: cells.map Prod.fst) := by
    simpa using hrx.isChain arg
  have href := hrx.ref (.inl arg)
  simp only [Function.update_self, ne_eq, reduceCtorEq, not_false_eq_true, Function.update_of_ne,
    List.map_cons, List.mem_append] at href
  -- the event is not queued
  have hfail : (enqueue cfg u (getClientInfo cfg u arg) arg (udpRecvEvent u pcb)).2
      ≠ .success := fun hsucc => hfull ((enqueue_setRemote_iff hu hq harg _).mp hsucc)
  -- so the pbufs of the datagram are released
  obtain ⟨m, hm, hpbufs⟩ := pbufFreeLoop_eq hchain.drop (fun q hq => href q (.inr hq))
    (length_le_addressSpace hchain.drop.nodup)
  have hm : pbufFree u.pbufs p = .ok m := hm
  simp only [stepHappening, xtcpUdpRecv, deliveredHead, List.head?_cons, Option.map_some,
    if_pos harg, hu, Bind.bind, Except.bind, hfail, ne_eq, not_false_eq_true, if_true, hm] at hs
  cases hs
  intro h'
  have hsplit := List.nodup_append.mp hchain.nodup
  refine hchain.not_of_lost (fun q hq => ?_) ?_ (h'.toRxOk.isChain arg)
  · have hqp : q ∉ p :: cells.map Prod.fst := fun hmem => hsplit.2.2 q hq q hmem rfl
    simp only [Pbufs.nxt, hpbufs, if_neg hqp]
  · simp only [Pbufs.nxt, hpbufs, if_pos List.mem_cons_self, Option.map_none]

/-- lwIP gives up a chain that it has kept. -/
theorem dropRefused (h : PoolOk s s.refused ch left) (hp : s.refused p = true) {r : Reply}
    (hs : stepHappening cfg s (.dropRefused p) = .ok (t, r)) :
    ∃ ch', PoolOk t t.refused ch' left := by
  have hhead : rxHead s s.refused (.inr p) = some p := by rw [rxHead, if_pos hp]
  obtain ⟨m, hm, hpbufs⟩ := h.toRxOk.pbufFree hhead
  simp only [stepHappening, hm, Bind.bind, Except.bind] at hs
  cases hs
  refine ⟨_, h.release (.inr p) ?_ hpbufs⟩
  refine h.toRxOk.release (.inr p) (fun j hj => ?_) (by simp [rxHead]) hpbufs
  cases j with
  | inl k => rfl
  | inr q =>
    have hqp : q ≠ p := fun hqp => hj (by rw [hqp])
    simp [rxHead, hqp]

end PoolOk

/-! ### Sends -/

/-- A socket with a UDP control block is a UDP socket. -/
theorem getProtocol_of_getUdpPcb (h : (getUdpPcb cfg s k).isSome = true) :
    getProtocol cfg s k = .udp := by
  unfold getUdpPcb at h
  split at h
  · next hk => rw [getProtocol, if_pos hk.1, hk.2]
  · cases h

/-- A send leaves its pbuf: lwIP has kept it as a datagram, or the socket has no protocol. -/
def LeavesPbuf (cfg : Config) (s : Server) (k : ℤ) (answer : SendAnswer) : Prop :=
  getProtocol cfg s k = .none ∨ answer.keeps = true ∧ (getUdpPcb cfg s k).isSome = true

instance (answer : SendAnswer) : Decidable (LeavesPbuf cfg s k answer) :=
  inferInstanceAs (Decidable (_ ∨ _ ∧ _))

/-- The pbuf that an action leaves. -/
def Action.leaves (cfg : Config) (s : Server) : Action → Option Ptr
  | .call i (.send k _ _ answer) | .call i (.sendto k _ _ answer) =>
    if (findClientConnection cfg s i k).status = .success ∧ LeavesPbuf cfg s k answer
      then answer.alloc else none
  | _ => none

/-- What the shim leaves of a pbuf is nothing, unless the call leaves it. -/
theorem TxCall.Leaves.ne_none_iff {x : TxCall} {p : Ptr} {b : Pbuf} {sent : Sent}
    (h : x.Leaves cfg s p b sent) :
    sent.server.pbufs p ≠ none ↔ LeavesPbuf cfg s x.id x.answer := by
  have hleft := h.2
  have hkept : x.kept cfg s = true ↔
      x.answer.keeps = true ∧ (getUdpPcb cfg s x.id).isSome = true := Bool.and_eq_true_iff
  rw [LeavesPbuf, ← hkept]
  split at hleft
  · next hproto => simp [hleft, hproto]
  · next hproto =>
    split at hleft
    · next hkeeps =>
      obtain ⟨b', hb', -⟩ := hleft
      simp [hb', hkeeps]
    · next hkeeps => simp [hleft, hproto, hkeeps]

/-- The pbuf of a call that transmits is gone when the shim returns, unless the call leaves it. -/
theorem TxCall.Transmits.ne_none_iff {x : TxCall} {i : ℕ} (h : x.Transmits cfg s i) {p : Ptr}
    {b : Pbuf} (href : b.ref = 1) (hnext : b.next = none) {sent : Sent}
    (hsent : x.shim cfg (withPbuf s p (some b)) i p = .ok sent) :
    sent.server.pbufs p ≠ none ↔ LeavesPbuf cfg s x.id x.answer := by
  have h' : x.Transmits cfg (withPbuf s p (some b)) i := h
  obtain ⟨sent', hsent', hleaves⟩ := shim_filled h' (Function.update_self _ _ _) href hnext
  obtain rfl : sent' = sent := Except.ok.inj (hsent'.symm.trans hsent)
  exact hleaves.ne_none_iff

namespace PoolOk

variable {ch : Holder → List Ptr} {left : List Ptr}

/-- Nothing more is left. -/
theorem leaves_nothing (h : PoolOk s s.refused ch left) {leaves : Prop} [Decidable leaves]
    (hnot : ¬ leaves) (p : Option Ptr) :
    PoolOk s s.refused ch (left ++ (if leaves then p else none).toList) := by
  rw [if_neg hnot, Option.toList_none, List.append_nil]
  exact h

/-- The pbuf of a send is new, and is gone when the send returns, unless the shim leaves it. -/
theorem transmit (h : PoolOk s s.refused ch left) {buffer : List UInt8} {timed : Bool}
    {answer : SendAnswer} {send : Server → Ptr → Except Fault Sent}
    (hsend : ∀ {t : Server} {token : Ptr} {b : Pbuf}, t.pbufs token = some b → b.ref ≤ 1 →
      b.next = none → SendsOnly token t (send t token))
    (hok : IfSome answer.alloc fun p => s.pbufs p = none) {leaves : Prop} [Decidable leaves]
    (hleaves : ∀ p (hlen : buffer.length < 2 ^ 16) sent,
      send (withPbuf s p (some (txPbuf buffer hlen timed))) p = .ok sent →
        (sent.server.pbufs p ≠ none ↔ leaves)) {r : Reply}
    (hs : transmit cfg s buffer timed answer send = .ok (t, r)) :
    PoolOk t t.refused ch (left ++ (if leaves then answer.alloc else none).toList) := by
  cases halloc : answer.alloc with
  | none =>
    simp only [Xtcp.transmit, halloc, pbufShimAllocTx] at hs
    cases hs
    rw [ite_self, Option.toList_none, List.append_nil]
    exact h
  | some p =>
    by_cases hlen : buffer.length < 2 ^ 16
    · have hnew : p ∉ livePbufs s.pbufs := fun hlive => hlive (hok p (by rw [halloc]; rfl))
      rw [transmit_eq cfg s hlen timed halloc] at hs
      obtain ⟨sent, hsent, hconn, hrefused, hoff, -⟩ := hsend
        (t := withPbuf s p (some (txPbuf buffer hlen timed))) (Function.update_self _ _ _)
          le_rfl rfl
      rw [hsent] at hs
      cases hs
      have hother : ∀ q, q ≠ p → sent.server.pbufs q = s.pbufs q := fun q hq =>
        (hoff q hq).trans (Function.update_of_ne hq _ _)
      have hrx : RxOk sent.server sent.server.refused ch := by
        rw [hrefused]
        refine h.toRxOk.frame (fun k => by rw [hconn]; rfl) fun q hq => hother q ?_
        rintro rfl
        exact hnew hq
      refine ⟨hrx, ?_⟩
      -- all other pbufs are in use as before
      by_cases hleft : leaves
      · have hlive : livePbufs sent.server.pbufs = insert p (livePbufs s.pbufs) := by
          ext q
          by_cases hqp : q = p
          · subst hqp
            simpa [mem_livePbufs] using (hleaves q hlen sent hsent).mpr hleft
          · simp [mem_livePbufs, hother q hqp, hqp]
        rw [if_pos hleft, hlive]
        exact h.pool.leave hnew
      · have hlive : livePbufs sent.server.pbufs = livePbufs s.pbufs := by
          ext q
          by_cases hqp : q = p
          · subst hqp
            have hgone := mt (hleaves q hlen sent hsent).mp hleft
            exact iff_of_false hgone hnew
          · rw [mem_livePbufs, mem_livePbufs, hother q hqp]
        rw [if_neg hleft, hlive, Option.toList_none, List.append_nil]
        exact h.pool
    · rw [transmit_overrun cfg s hlen timed halloc] at hs
      cases hs

/-- `send` and `send_timed` -/
theorem send (h : PoolOk s s.refused ch left) {i : ℕ} {buffer : List UInt8} {timed : Bool}
    {answer : SendAnswer} (hok : IfSome answer.alloc fun p => s.pbufs p = none) {r : Reply}
    (hs : stepCall cfg s i (.send k buffer timed answer) = .ok (t, r)) :
    PoolOk t t.refused ch
      (left ++ ((Action.call i (.send k buffer timed answer)).leaves cfg s).toList) := by
  simp only [stepCall, sendCommon] at hs
  simp only [Action.leaves]
  split at hs
  · next hfind =>
    cases hs
    exact h.leaves_nothing (fun hleaves => hfind hleaves.1) _
  · next hfind =>
    rw [not_not] at hfind
    simp only [hfind, true_and]
    refine h.transmit (fun hb href hnext => sendsOnly_shimSend hb href hnext i k answer) hok
      (fun p hlen sent hsent => ?_) hs
    let x : TxCall := ⟨false, k, buffer, timed, answer, hlen.trans (by decide)⟩
    have htransmits : x.Transmits cfg s i := ⟨hfind, fun hto => Bool.false_ne_true hto.1⟩
    exact htransmits.ne_none_iff (b := txPbuf buffer hlen timed) rfl rfl hsent

/-- `sendto` and `sendto_timed` -/
theorem sendto (h : PoolOk s s.refused ch left) {i : ℕ} {buffer : List UInt8} {timed : Bool}
    {answer : SendAnswer} (hok : IfSome answer.alloc fun p => s.pbufs p = none) {r : Reply}
    (hs : stepCall cfg s i (.sendto k buffer timed answer) = .ok (t, r)) :
    PoolOk t t.refused ch
      (left ++ ((Action.call i (.sendto k buffer timed answer)).leaves cfg s).toList) := by
  simp only [stepCall, sendtoCommon] at hs
  simp only [Action.leaves]
  split at hs
  · next hfind =>
    cases hs
    exact h.leaves_nothing (fun hleaves => hfind hleaves.1) _
  · next hfind =>
    rw [not_not] at hfind
    split at hs
    · next hproto =>
      -- a TCP socket has a protocol, and no UDP control block
      have hnot : ¬ LeavesPbuf cfg s k answer := by
        rintro (hnone | ⟨-, hudp⟩)
        · rw [hproto] at hnone
          cases hnone
        · rw [getProtocol_of_getUdpPcb hudp] at hproto
          cases hproto
      cases hs
      exact h.leaves_nothing (fun hleaves => hnot hleaves.2) _
    · next hproto =>
      simp only [hfind, true_and]
      refine h.transmit (fun hb href hnext => sendsOnly_shimSendto hb href hnext i k answer) hok
        (fun p hlen sent hsent => ?_) hs
      let x : TxCall := ⟨true, k, buffer, timed, answer, hlen.trans (by decide)⟩
      have htransmits : x.Transmits cfg s i := ⟨hfind, fun hto => hproto hto.2⟩
      exact htransmits.ne_none_iff (b := txPbuf buffer hlen timed) rfl rfl hsent

/-! ### Histories -/

/-- **A step keeps the pool**, when a datagram finds room for its event: nothing is lost but the
pbuf that a send leaves. -/
theorem step (h : PoolOk s s.refused ch left) (hcur : s.table.CursorOk cfg)
    (hq : QueueOk cfg s.queue) (hreg : ∀ p k, Registered s p k → cfg.InRange k) {a : Action}
    (hok : Allowed cfg s a) (hroom : UdpHasRoom cfg s a) {r : Reply}
    (hs : step cfg s a = .ok (t, r)) :
    ∃ ch', PoolOk t t.refused ch' (left ++ (a.leaves cfg s).toList) := by
  by_cases hsend : ∃ i k buffer timed answer,
      a = .call i (.send k buffer timed answer) ∨ a = .call i (.sendto k buffer timed answer)
  · obtain ⟨i, k, buffer, timed, answer, rfl | rfl⟩ := hsend
    · exact ⟨ch, h.send hok.2 hs⟩
    · exact ⟨ch, h.sendto hok.2 hs⟩
  · -- any other action leaves nothing
    have hnone : a.leaves cfg s = none := by
      unfold Action.leaves
      split
      · exact absurd ⟨_, _, _, _, _, .inl rfl⟩ hsend
      · exact absurd ⟨_, _, _, _, _, .inr rfl⟩ hsend
      · rfl
    rw [hnone, Option.toList_none, List.append_nil]
    have hstep := rxStep hcur hok
    generalize Xtcp.step cfg s a = x at hstep hs
    cases hstep with
    | nullPcb => cases hs
    | keeps hkeeps =>
      cases hs
      exact ⟨ch, h.keepsRx hkeeps⟩
    | close =>
      obtain ⟨u, hu, hs⟩ := bind_eq_ok.mp hs
      cases hs
      exact h.close hu
    | transmit hcall =>
      obtain ⟨k, rfl | rfl⟩ := hcall
      · exact absurd ⟨_, _, _, _, _, .inl rfl⟩ hsend
      · exact absurd ⟨_, _, _, _, _, .inr rfl⟩ hsend
    | recv hown => exact ⟨_, h.receive hown.1 hs⟩
    | recvfrom hown =>
      obtain ⟨remote, -, hs⟩ := bind_eq_ok.mp hs
      exact ⟨_, h.receive hown.1 hs⟩
    | @tcpRecv pcb arg c cells =>
      obtain ⟨p, b⟩ := c
      obtain ⟨status, -, ⟨hlinked, hnd, hcells⟩, -⟩ := tcpEvent_route hok
      exact h.recv hlinked hnd hcells hs
    | @udpRecv pcb arg => exact h.udpRecv hq hok (hreg pcb arg hok.1) hroom hs
    | dropRefused => exact h.dropRefused hok hs

end PoolOk

/-- No pbuf is in use at the start. -/
theorem poolOk_init : PoolOk (init cfg) (init cfg).refused (fun _ => []) [] := by
  refine ⟨rxOk_init, ?_⟩
  have hlive : livePbufs (init cfg).pbufs = ∅ := Set.eq_empty_of_forall_notMem fun q hq => hq rfl
  rw [hlive]
  exact Pool.empty

/-- When nothing has been received that is still there, the pbufs in use are those that were
left. -/
theorem PoolOk.drained {ch : Holder → List Ptr} {left : List Ptr}
    (h : PoolOk s s.refused ch left) (hslots : ∀ k, (s.connections k).pbuf = none)
    (hrefused : ∀ p, s.refused p = false) : livePbufs s.pbufs = {p | p ∈ left} := by
  ext p
  rw [h.pool.mem_iff]
  refine or_iff_right ?_
  rintro ⟨k | q, hp⟩
  · have hchain := h.toRxOk.isChain k
    rw [hslots k, IsChain.none_iff] at hchain
    rw [hchain] at hp
    cases hp
  · rw [h.toRxOk.kept_nil (hrefused q)] at hp
    cases hp

/-- The table, the queues and the pool are sound, and what is registered are indices of slots. -/
structure PoolInv (cfg : Config) (x : Server × List Ptr) : Prop where
  /-- The table is sound. -/
  table : TableOk cfg x.1.table
  /-- The queues are sound. -/
  events : EventsOk cfg x.1.queue
  /-- What is registered are indices of slots. -/
  registered : ∀ p k, Registered x.1 p k → cfg.InRange k
  /-- The pool is sound. -/
  pool : ∃ ch, PoolOk x.1 x.1.refused ch x.2

/-- A run at whose side the pbufs are written down that its sends leave. -/
def PoolRun (cfg : Config) (tr : List (Action × Reply)) (s : Server) (left : List Ptr) : Prop :=
  Run (withGhost (step cfg) fun s left a _ => left ++ (a.leaves cfg s).toList)
    (fun x a => Allowed cfg x.1 a ∧ UdpHasRoom cfg x.1 a) (init cfg, []) tr (s, left)

theorem PoolRun.inv {tr : List (Action × Reply)} {left : List Ptr}
    (hrun : PoolRun cfg tr s left) : PoolInv cfg (s, left) := by
  refine Run.invariant hrun
    ⟨tableOk_init, eventsOk_init, fun p k hreg => (udpRouted_init p k hreg).1, _, poolOk_init⟩ ?_
  rintro x a y r ⟨hT, hq, hreg, ch, hpool⟩ ⟨hok, hroom⟩ hs
  obtain ⟨hs, hleft⟩ := withGhost_eq_ok.mp hs
  refine ⟨hT.step (step_table hT.cursor hok hs), eventsOk_step hq hs,
    fun p k => inRange_of_registered hreg hs, ?_⟩
  rw [hleft]
  exact hpool.step hT.cursor hq.queueOk hreg hok hroom hs

end Xtcp
