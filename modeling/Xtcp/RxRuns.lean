import Xtcp.RxChain
import Xtcp.RxStep

/-!
# Received data along histories

A delivery is a chain of pbufs that the slot takes over, or that lwIP keeps because it was
refused.  When the event cannot be queued, the TCP callback takes the delivered pbuf out of
the chain again and leaves it to lwIP.  `xtcp_udp_recv` releases it and leaves it in the
chain.

## Main definitions

* `UdpHasRoom` — the owner of a UDP socket that receives a datagram can be sent an event.
* `RxIntact` — along the histories that meet a condition, the chains are sound and no walk
  goes astray.

## Main results

* `RxOk.deliver` — a delivery is one more chain.
* `RxOk.recv`, `RxOk.udpRecv`, `RxOk.receive`, `RxSafe.step` — what each step does to the chains.
* `rx_intact` — **the chains are sound, if no datagram finds the queue of its owner full**.
-/

namespace Xtcp

open Runs LinkedChain

variable {cfg : Config} {s s' : Server}

/-! ### Deliveries -/

theorem deliver_cons (m : Pbufs) (p : Ptr) (b : Pbuf) (cells : List (Ptr × Pbuf)) (q : Ptr) :
    deliver m ((p, b) :: cells) q = if q = p then some b else deliver m cells q := by
  unfold deliver
  rw [List.lookup_cons]
  by_cases hq : q = p
  · simp [hq]
  · rw [if_neg hq, beq_eq_false_iff_ne.mpr hq]

/-- A delivery writes its own pbufs only. -/
theorem deliver_of_notMem {m : Pbufs} {cells : List (Ptr × Pbuf)} {q : Ptr}
    (hq : q ∉ cells.map Prod.fst) : deliver m cells q = m q := by
  induction cells with
  | nil => rfl
  | cons c cells ih =>
    obtain ⟨p, b⟩ := c
    simp only [List.map_cons, List.mem_cons, not_or] at hq
    rw [deliver_cons, if_neg hq.1]
    exact ih hq.2

theorem deliver_of_mem {m : Pbufs} {cells : List (Ptr × Pbuf)} (hnd : (cells.map Prod.fst).Nodup)
    {c : Ptr × Pbuf} (hc : c ∈ cells) : deliver m cells c.1 = some c.2 := by
  induction cells with
  | nil => cases hc
  | cons d cells ih =>
    obtain ⟨p, b⟩ := d
    simp only [List.map_cons, List.nodup_cons] at hnd
    rw [deliver_cons]
    rcases List.mem_cons.mp hc with rfl | hc
    · rw [if_pos rfl]
    · rw [if_neg (ne_of_mem_of_not_mem (List.mem_map_of_mem hc) hnd.1)]
      exact ih hnd.2 hc

/-- The pbufs of a delivery are a chain. -/
theorem isChain_deliver (m : Pbufs) {cells : List (Ptr × Pbuf)} (hlinked : Linked cells)
    (hnd : (cells.map Prod.fst).Nodup) :
    IsChain (deliver m cells).nxt (deliveredHead cells) (cells.map Prod.fst) := by
  induction cells with
  | nil => exact .nil
  | cons c cells ih =>
    obtain ⟨p, b⟩ := c
    obtain ⟨-, hnext, hlinked⟩ := hlinked
    simp only [List.map_cons, List.nodup_cons] at hnd
    refine .cons (nxt_eq_some.mpr ⟨b, ?_, hnext⟩) ((ih hlinked hnd.2).congr fun q hq => ?_)
    · rw [deliver_cons, if_pos rfl]
    · simp only [Pbufs.nxt, deliver_cons, if_neg (ne_of_mem_of_not_mem hq hnd.1)]

theorem Linked.ref_eq {cells : List (Ptr × Pbuf)} (h : Linked cells) {c : Ptr × Pbuf}
    (hc : c ∈ cells) : c.2.ref = 1 := by
  induction cells with
  | nil => cases hc
  | cons d cells ih =>
    obtain ⟨p, b⟩ := d
    obtain ⟨href, -, hlinked⟩ := h
    rcases List.mem_cons.mp hc with rfl | hc
    · exact href
    · exact ih hlinked hc

/-- The callback leaves it to lwIP which pbufs are kept. -/
theorem eventRecv_refused {k : ℤ} {c : ℕ} {p : Ptr} {e : Err}
    (h : eventRecv cfg s k c (some p) = .ok (s', e)) : s'.refused = s.refused := by
  unfold eventRecv at h
  obtain ⟨⟨t, e'⟩, ht, h⟩ := bind_eq_ok.mp h
  have hleaves := (leaves_setRemote ht).refused
  dsimp only at h
  split at h
  · obtain ⟨⟨u, e''⟩, hu, h⟩ := bind_eq_ok.mp h
    cases h
    exact (leaves_unlinkRemote hu).refused.trans hleaves
  · cases h
    exact hleaves

/-- The event of a datagram is queued, after its pbufs have been appended, if the owner of the slot
can be sent one. -/
theorem enqueue_setRemote_iff {k : ℤ} {remote : Option IpAddr} {port : UInt16} {p : Option Ptr}
    {e : ErrorCode} (h : setRemote cfg s k remote port p = .ok (s', e)) (hq : QueueOk cfg s.queue)
    (hk : cfg.InRange k) (event : EventType) :
    (enqueue cfg s' (getClientInfo cfg s' k) k event).2 = .success ↔
      HasRoom cfg s.queue (s.connections k).clientNum := by
  have hleaves := leaves_setRemote h
  have hclient : getClientInfo cfg s' k = (s.connections k).clientNum := by
    rw [getClientInfo, if_pos hk]
    exact congrArg (fun T : Table => (T.slot k).clientNum) hleaves.table
  rw [hclient]
  simp only [enqueue, hleaves.queue]
  exact enqueue_success_iff hq

namespace RxOk

variable {kept : Ptr → Bool} {ch : Holder → List Ptr}

/-- **A delivery** is one more chain, or one that lwIP keeps already. -/
theorem deliver (h : RxOk s kept ch) {p : Ptr} {b : Pbuf} {cells : List (Ptr × Pbuf)}
    (hlinked : Linked ((p, b) :: cells)) (hnd : (((p, b) :: cells).map Prod.fst).Nodup)
    (hcells : FreshCells s ((p, b) :: cells) ∨
      kept p = true ∧ ∀ c ∈ (p, b) :: cells, s.pbufs c.1 = some c.2) :
    RxOk { s with pbufs := deliver s.pbufs ((p, b) :: cells) } (Function.update kept p true)
        (Function.update ch (.inr p) (((p, b) :: cells).map Prod.fst)) ∧
      ∀ j, ∀ q ∈ ch (.inl j), Xtcp.deliver s.pbufs ((p, b) :: cells) q = s.pbufs q := by
  have hchain := isChain_deliver s.pbufs hlinked hnd
  rcases hcells with hfresh | ⟨hkept, hsame⟩
  · -- the pbufs are new, so they are in no chain
    have hnot : ∀ j, ∀ q ∈ ch j, q ∉ ((p, b) :: cells).map Prod.fst := by
      intro j q hq hmem
      obtain ⟨c, hc, rfl⟩ := List.mem_map.mp hmem
      exact h.ne_none hq (hfresh c hc)
    refine ⟨h.replace (.inr p) (fun j hj => ?_) ?_
      (fun j _ q hq => deliver_of_notMem (hnot j q hq)) (fun j _ q hq hq' => hnot j q hq' hq)
      (fun q hq => ?_), fun j q hq => deliver_of_notMem (hnot (.inl j) q hq)⟩
    · cases j with
      | inl k => rfl
      | inr q =>
        have hqp : q ≠ p := fun hqp => hj (by rw [hqp])
        simp [rxHead, hqp]
    · rw [rxHead, if_pos (Function.update_self _ _ _)]
      exact hchain
    · obtain ⟨c, hc, rfl⟩ := List.mem_map.mp hq
      exact ⟨c.2, deliver_of_mem hnd hc, hlinked.ref_eq hc⟩
  · -- lwIP has kept them
    have hpbufs : Xtcp.deliver s.pbufs ((p, b) :: cells) = s.pbufs := by
      funext q
      by_cases hq : q ∈ ((p, b) :: cells).map Prod.fst
      · obtain ⟨c, hc, rfl⟩ := List.mem_map.mp hq
        rw [deliver_of_mem hnd hc, hsame c hc]
      · exact deliver_of_notMem hq
    rw [hpbufs] at hchain ⊢
    have hch : ch (.inr p) = ((p, b) :: cells).map Prod.fst := (h.kept_isChain hkept).eq hchain
    rw [← hch, Function.update_eq_self, ← hkept, Function.update_eq_self]
    exact ⟨h.frame (fun _ => rfl) fun _ _ => rfl, fun _ _ _ => rfl⟩

/-- **`LWIP_EVENT_RECV`**: the chain of the delivered pbuf goes to the slot; if the event cannot
be queued, lwIP gets the first pbuf back. -/
theorem eventRecv (h : RxOk s kept ch) {p : Ptr} {l : List Ptr} (hp : kept p = true)
    (hl : ch (.inr p) = p :: l) {k : ℤ} (hk : cfg.InRange k) (c : ℕ) :
    ∃ t e ch', eventRecv cfg s k c (some p) = .ok (t, e) ∧
      RxOk t (Function.update kept p (decide (e ≠ .ok))) ch' ∧
      (∀ j, j ≠ k → ch' (.inl j) = ch (.inl j) ∧ ∀ q ∈ ch (.inl j), t.pbufs q = s.pbufs q) ∧
      SameData s.pbufs t.pbufs ∧
      (e = .ok ∧ ch' (.inl k) = ch (.inl k) ++ p :: l ∨
        e = .inprogress ∧ ch' (.inl k) = ch (.inl k) ++ l ∧ ch' (.inr p) = [p]) := by
  obtain ⟨t, ht, hrx, hsame, hother⟩ := h.setRemote hp hk none 0
  rw [hl] at hrx
  set ch₁ := Function.update (Function.update ch (.inr p) []) (.inl k) (ch (.inl k) ++ p :: l)
  have hch₁ : ∀ j, j ≠ k → ch₁ (.inl j) = ch (.inl j) := fun j hj => by simp [ch₁, hj]
  by_cases hsucc : (enqueue cfg t c k .recvData).2 = .success
  · refine ⟨(enqueue cfg t c k .recvData).1, .ok, ch₁, ?_, ?_, fun j hj => ⟨hch₁ j hj, hother j hj⟩,
      hsame, .inl ⟨rfl, by simp [ch₁]⟩⟩
    · simp only [Xtcp.eventRecv, ht, Bind.bind, Except.bind, hsucc, ne_eq, not_true_eq_false,
        if_false]
    · exact hrx.frame (fun _ => rfl) fun _ _ => rfl
  · have hrx' : RxOk (enqueue cfg t c k .recvData).1 (Function.update kept p false) ch₁ :=
      hrx.frame (fun _ => rfl) fun _ _ => rfl
    obtain ⟨u, hu, hrxu, hsameu, hotheru⟩ := hrx'.unlinkRemote hk (p := p) (l := ch (.inl k)) (r :=
      l)
      (by simp [ch₁])
    refine ⟨u, .inprogress, _, ?_, by simpa using hrxu, fun j hj => ?_, hsame.trans hsameu,
      .inr ⟨rfl, by simp, by simp⟩⟩
    · simp only [Xtcp.eventRecv, ht, Bind.bind, Except.bind, hsucc, ne_eq, not_false_eq_true,
        if_true, hu]
    · have hch : ch₁ (.inl j) = ch (.inl j) := hch₁ j hj
      refine ⟨by simp [hj, hch], fun q hq => ?_⟩
      exact (hotheru j hj q (hch ▸ hq)).trans (hother j hj q hq)

/-- **A TCP delivery** returns; it changes the chain of the slot it is raised for, and no
other. -/
theorem recv (cfg : Config) (h : RxOk s s.refused ch) {p : Ptr} {b : Pbuf} {cells : List (Ptr ×
    Pbuf)}
    (hlinked : Linked ((p, b) :: cells)) (hnd : (((p, b) :: cells).map Prod.fst).Nodup)
    (hcells : FreshCells s ((p, b) :: cells) ∨ RefusedCells s ((p, b) :: cells)) (pcb : Ptr)
    (arg : ℤ) :
    ∃ t e ch', stepTcp cfg s pcb arg (.recv ((p, b) :: cells)) = .ok (t, .err e) ∧
      RxOk t t.refused ch' ∧ Spares (some arg) s.pbufs t.pbufs ch ch' ∧
      SameData (Xtcp.deliver s.pbufs ((p, b) :: cells)) t.pbufs ∧
      (∀ q ∈ ch (.inl arg), Xtcp.deliver s.pbufs ((p, b) :: cells) q = s.pbufs q) ∧
      (e = .ok ∧ ch' (.inl arg) = ch (.inl arg) ++ p :: cells.map Prod.fst ∨
        e ≠ .ok ∧ (ch' (.inl arg) = ch (.inl arg) ++ cells.map Prod.fst ∧ ch' (.inr p) = [p] ∨
          ¬ cfg.InRange arg ∧ ch' (.inl arg) = ch (.inl arg))) := by
  obtain ⟨hrx, hdeliver⟩ := h.deliver hlinked hnd (hcells.imp id fun hr => ⟨by
    simpa [deliveredHead] using hr.1, hr.2⟩)
  set ch₁ := Function.update ch (.inr p) (((p, b) :: cells).map Prod.fst)
  have hch₁ : ∀ j, ch₁ (.inl j) = ch (.inl j) := fun j => by simp [ch₁]
  by_cases harg : cfg.InRange arg
  · obtain ⟨t, e, ch', ht, hrx', hother, hsame, hcase⟩ := hrx.eventRecv (l := cells.map Prod.fst)
      (Function.update_self _ _ _) (by simp [ch₁]) harg (getClientInfo cfg s arg)
    rw [hch₁ arg] at hcase
    have hrefused : t.refused = s.refused := (eventRecv_refused ht).trans rfl
    refine ⟨{ t with refused := Function.update t.refused p (decide (e ≠ .ok)) }, e, ch', ?_, ?_,
      fun j hj => ?_, hsame, hdeliver arg, ?_⟩
    · simp only [stepTcp, lwipTcpEvent, if_pos harg, deliveredHead, List.head?_cons,
        Option.map_some,
        Bind.bind, Except.bind]
      rw [show getClientInfo cfg { s with pbufs := Xtcp.deliver s.pbufs ((p, b) :: cells) } arg
        = getClientInfo cfg s arg from rfl, ht]
    · rw [Function.update_idem] at hrx'
      rw [hrefused]
      exact hrx'.frame (fun _ => rfl) fun _ _ => rfl
    · have hj : j ≠ arg := fun hja => hj (by rw [hja])
      obtain ⟨hch, hpbufs⟩ := hother j hj
      rw [hch₁ j] at hch hpbufs
      exact ⟨hch, fun q hq => (hpbufs q hq).trans (hdeliver j q hq)⟩
    · rcases hcase with ⟨he, hch⟩ | ⟨he, hch, hchp⟩
      · exact .inl ⟨he, hch⟩
      · exact .inr ⟨by rw [he]; decide, .inl ⟨hch, hchp⟩⟩
  · refine ⟨{ s with pbufs := Xtcp.deliver s.pbufs ((p, b) :: cells)
                     refused := Function.update s.refused p true }, .mem, ch₁, ?_, ?_,
      fun j _ => ⟨hch₁ j, hdeliver j⟩, .refl _, hdeliver arg,
      .inr ⟨by decide, .inr ⟨harg, hch₁ arg⟩⟩⟩
    · simp only [stepTcp, lwipTcpEvent, if_neg harg, deliveredHead, List.head?_cons,
        Option.map_some,
        Bind.bind, Except.bind]
      rfl
    · exact hrx.frame (fun _ => rfl) fun _ _ => rfl

/-- A pbuf that does not exist is not kept by lwIP. -/
theorem kept_of_none (h : RxOk s kept ch) {p : Ptr} (hp : s.pbufs p = none) : kept p = false := by
  by_contra hkept
  obtain ⟨l, hl⟩ := h.exists_kept (Bool.not_eq_false _ ▸ hkept)
  exact h.ne_none (i := .inr p) (p := p) (by rw [hl]; exact List.mem_cons_self) hp

/-- **A datagram** for whose event there is room goes to the slot it is for. -/
theorem udpRecv (h : RxOk s s.refused ch) (hq : QueueOk cfg s.queue) {pcb : Ptr} {arg : ℤ}
    {cells : List (Ptr × Pbuf)} {addr : Option IpAddr} {port : UInt16}
    (hok : HappeningAllowed s (.udpRecv pcb arg cells addr port))
    (hroom : cells ≠ [] → cfg.InRange arg → HasRoom cfg s.queue (s.connections arg).clientNum) :
    ∃ t ch', stepHappening cfg s (.udpRecv pcb arg cells addr port) = .ok (t, .unit) ∧
      RxOk t t.refused ch' ∧ Spares (some arg) s.pbufs t.pbufs ch ch' := by
  obtain ⟨-, hlinked, hnd, hfresh⟩ := hok
  cases cells with
  | nil => exact ⟨s, ch, rfl, h, .refl _ _ _⟩
  | cons c cells =>
    obtain ⟨p, b⟩ := c
    obtain ⟨hrx, hdeliver⟩ := h.deliver hlinked hnd (.inl hfresh)
    have hrefused : s.refused p = false := h.kept_of_none (hfresh (p, b) List.mem_cons_self)
    by_cases harg : cfg.InRange arg
    · obtain ⟨t, ht, hrx', -, hother⟩ := hrx.setRemote (Function.update_self _ _ _) harg addr port
      have hsucc : (enqueue cfg t (getClientInfo cfg t arg) arg (udpRecvEvent t pcb)).2
          = .success := (enqueue_setRemote_iff ht hq harg _).mpr (hroom (by simp) harg)
      rw [Function.update_idem, ← hrefused, Function.update_eq_self] at hrx'
      obtain ⟨ch', hch', hrx'⟩ : ∃ ch' : Holder → List Ptr,
          (∀ j, j ≠ arg → ch' (.inl j) = ch (.inl j)) ∧ RxOk t s.refused ch' :=
        ⟨_, fun j hj => by simp [hj], hrx'⟩
      refine ⟨(enqueue cfg t (getClientInfo cfg t arg) arg (udpRecvEvent t pcb)).1, ch', ?_, ?_,
        fun j hj => ?_⟩
      · simp only [stepHappening, xtcpUdpRecv, deliveredHead, List.head?_cons, Option.map_some,
          if_pos harg, ht, Bind.bind, Except.bind, hsucc, ne_eq, not_true_eq_false, if_false]
      · have hrefused : (enqueue cfg t (getClientInfo cfg t arg) arg (udpRecvEvent t pcb)).1.refused
            = s.refused := (leaves_setRemote ht).refused
        rw [hrefused]
        exact hrx'.frame (fun _ => rfl) fun _ _ => rfl
      · have hj : j ≠ arg := fun hja => hj (by rw [hja])
        refine ⟨hch' j hj, fun q hq => ?_⟩
        exact (hother j hj q (by simpa using hq)).trans (hdeliver j q hq)
    · -- the callback does nothing, and the pbufs are nobody's
      have hkeep : ∀ q, s.pbufs q ≠ none →
          Xtcp.deliver s.pbufs ((p, b) :: cells) q = s.pbufs q := by
        intro q hq
        refine deliver_of_notMem fun hmem => ?_
        obtain ⟨c, hc, rfl⟩ := List.mem_map.mp hmem
        exact hq (hfresh c hc)
      refine ⟨{ s with pbufs := Xtcp.deliver s.pbufs ((p, b) :: cells) }, ch, ?_,
        h.frame (fun _ => rfl) hkeep, fun j _ => ⟨rfl, fun q hq => hkeep q (h.ne_none hq)⟩⟩
      simp only [stepHappening, xtcpUdpRecv, deliveredHead, List.head?_cons, Option.map_some,
        if_neg harg, Bind.bind, Except.bind]

/-- lwIP releases a chain that it has kept. -/
theorem dropRefused (cfg : Config) (h : RxOk s s.refused ch) {p : Ptr} (hp : s.refused p = true) :
    ∃ t ch', stepHappening cfg s (.dropRefused p) = .ok (t, .unit) ∧ RxOk t t.refused ch' ∧
      Spares none s.pbufs t.pbufs ch ch' := by
  have hhead : rxHead s s.refused (.inr p) = some p := by rw [rxHead, if_pos hp]
  obtain ⟨m, hm, hpbufs⟩ := h.pbufFree hhead
  refine ⟨{ s with pbufs := m, refused := Function.update s.refused p false },
    Function.update ch (.inr p) [], ?_, ?_, fun j _ => ⟨by simp, fun q hq => ?_⟩⟩
  · simp only [stepHappening, hm, Bind.bind, Except.bind]
  · refine h.release (.inr p) (fun j hj => ?_) (by simp [rxHead]) hpbufs
    cases j with
    | inl k => rfl
    | inr q =>
      have hqp : q ≠ p := fun hqp => hj (by rw [hqp])
      simp [rxHead, hqp]
  · exact (hpbufs q).trans (if_neg (h.notMem hq (by simp)))

/-- What `get_remote` and `get_remote_data` find in a slot. -/
theorem exists_head (h : RxOk s kept ch) (k : ℤ) :
    ch (.inl k) = [] ∧ (s.connections k).pbuf = none ∨
      ∃ p l b, ch (.inl k) = p :: l ∧ (s.connections k).pbuf = some p ∧ s.pbufs p = some b := by
  have hchain := h.isChain k
  cases hch : ch (.inl k) with
  | nil =>
    rw [hch, IsChain.nil_iff] at hchain
    exact .inl ⟨rfl, hchain⟩
  | cons p l =>
    rw [hch] at hchain
    obtain ⟨b, hb, -⟩ := h.ref (.inl k) p (by rw [hch]; exact List.mem_cons_self)
    exact .inr ⟨p, l, b, rfl, hchain.head_eq, hb⟩

/-- **A receive** returns, and takes the first pbuf off the chain of the slot.  If the buffer is
long enough, it returns the bytes of that pbuf. -/
theorem receive (h : RxOk s s.refused ch) {k : ℤ} (hk : cfg.InRange k) (length : UInt32)
    (timed : Bool) (remote : Host) :
    ∃ t result data timestamp,
      receive cfg s k length timed remote = .ok (t, .received result data remote timestamp) ∧
      RxOk t t.refused (Function.update ch (.inl k) (ch (.inl k)).tail) ∧
      Spares (some k) s.pbufs t.pbufs ch (Function.update ch (.inl k) (ch (.inl k)).tail) ∧
      (∀ q ∈ (ch (.inl k)).tail, t.pbufs q = s.pbufs q) ∧
      (ch (.inl k) = [] ∧ data = [] ∨ ∃ p l b, ch (.inl k) = p :: l ∧ s.pbufs p = some b ∧
        ((b.len : ℤ) ≤ int32OfUInt32 length → data = b.payload.bytes)) := by
  rcases h.exists_head k with ⟨hch, hhead⟩ | ⟨p, l, b, hch, hhead, hb⟩
  · refine ⟨s, ErrorCode.einval.toInt, [], 0, ?_, ?_, ?_, by simp, .inl ⟨hch, rfl⟩⟩
    · simp only [Xtcp.receive, getRemoteData_of_none fun _ => hhead, h.freeRemoteData_nil hch,
        Bind.bind, Except.bind]
      cases timed <;> rfl
    · rw [hch, List.tail_nil, ← hch, Function.update_eq_self]
      exact h
    · rw [hch, List.tail_nil, ← hch, Function.update_eq_self]
      exact .refl _ _ _
  · obtain ⟨t, ht, hrx, hoff⟩ := h.freeRemoteData hk hch
    have hdata := getRemoteData_of_some hk hhead hb (int32OfUInt32 length)
    have hrefused : t.refused = s.refused := (leaves_freeRemoteData ht).refused
    have hnotMem : ∀ j, .inl j ≠ (.inl k : Holder) → ∀ q ∈ ch (.inl j), q ≠ p := by
      rintro j hj q hq rfl
      exact h.notMem hq hj (by rw [hch]; exact List.mem_cons_self)
    rw [hch, List.tail_cons]
    have hpl : ∀ q ∈ l, q ≠ p := by
      have hnd := (h.isChain k).nodup
      rw [hch] at hnd
      exact fun q hq => ne_of_mem_of_not_mem hq (List.nodup_cons.mp hnd).1
    have hspares : Spares (some k) s.pbufs t.pbufs ch (Function.update ch (.inl k) l) := by
      intro j hj
      have hjk : j ≠ k := fun hjk => hj (by rw [hjk])
      exact ⟨by simp [hjk], fun q hq => hoff q (hnotMem j (by simpa using hjk) q hq)⟩
    rw [← hrefused] at hrx
    by_cases hlen : int32OfUInt32 length < b.len
    · refine ⟨t, ErrorCode.eagain.toInt, [], if timed then b.timestamp else 0, ?_, hrx, hspares,
        fun q hq => hoff q (hpl q hq), .inr ⟨p, l, b, rfl, hb, fun hle => absurd hle (by omega)⟩⟩
      simp only [Xtcp.receive, hdata, if_pos hlen, ht, Bind.bind, Except.bind]
      rfl
    · refine ⟨t, b.len, b.payload.bytes, if timed then b.timestamp else 0, ?_, hrx, hspares,
        fun q hq => hoff q (hpl q hq), .inr ⟨p, l, b, rfl, hb, fun _ => rfl⟩⟩
      simp only [Xtcp.receive, hdata, if_neg hlen, ht, Bind.bind, Except.bind]
      rfl

/-- **`shim_close_socket`** returns, and releases the chain of the slot it closes. -/
theorem close (cfg : Config) (h : RxOk s s.refused ch) (i : ℕ) (k : ℤ) (lingers : Bool) :
    ∃ t ch', shimCloseSocket cfg s i k lingers = .ok t ∧ RxOk t t.refused ch' ∧
      Spares (some k) s.pbufs t.pbufs ch ch' := by
  by_cases hfind : (findClientConnection cfg s i k).status = .success
  · have hk : cfg.InRange k := (find_success_iff.mp hfind).1
    have hpurged : RxOk { s with queue := (freeNotificationsOnQueue cfg s.queue i k).1 } s.refused
      ch :=
      h.frame (fun _ => rfl) fun _ _ => rfl
    obtain ⟨t, ht, hrx, hoff⟩ := hpurged.clearPending hk
    have hkeeps : Keeps t (freeClientConnection cfg (closePcb cfg t k lingers) k) :=
      (Keeps.closePcb t k lingers).trans (Keeps.freeClientConnection _ k)
    refine ⟨freeClientConnection cfg (closePcb cfg t k lingers) k, Function.update ch (.inl k) [],
      ?_, ?_, fun j hj => ?_⟩
    · simp only [shimCloseSocket, hfind, ne_eq, not_true_eq_false, if_false, ht, Bind.bind,
        Except.bind]
    · rw [hkeeps.refused, (leaves_clearPending ht).refused]
      exact hrx.frame hkeeps.head fun q _ => by rw [hkeeps.pbufs]
    · have hjk : j ≠ k := fun hjk => hj (by rw [hjk])
      refine ⟨by simp [hjk], fun q hq => ?_⟩
      rw [hkeeps.pbufs]
      exact hoff q (h.notMem hq (by simpa using hjk))
  · refine ⟨s, ch, ?_, h, .refl _ _ _⟩
    simp only [shimCloseSocket, ne_eq, hfind, not_false_eq_true, if_true]

end RxOk

/-! ### Steps -/

/-- The owner of a UDP socket that receives a datagram can be sent an event. -/
def UdpHasRoom (cfg : Config) (s : Server) : Action → Prop
  | .happens (.udpRecv _ arg cells _ _) => cells ≠ [] → cfg.InRange arg →
      HasRoom cfg s.queue (s.connections arg).clientNum
  | _ => True

instance (a : Action) : Decidable (UdpHasRoom cfg s a) := by
  unfold UdpHasRoom
  split <;> infer_instance

/-- A fault of a walk along the chains, or of a release. -/
def Fault.astray : Fault → Bool
  | .badPbuf | .endless => true
  | .overrun | .nullPcb => false

/-- What comes out of a step that works on the chain of slot `j`: a state with sound chains in
which no other slot has changed, or a fault that has nothing to do with the chains. -/
def RxSafe (s : Server) (ch : Holder → List Ptr) (j : Option ℤ) :
    Except Fault (Server × Reply) → Prop
  | .ok (s', _) => ∃ ch', RxOk s' s'.refused ch' ∧ Spares j s.pbufs s'.pbufs ch ch'
  | .error e => e.astray = false

namespace RxSafe

variable {ch : Holder → List Ptr} {j : Option ℤ}

/-- A step that leaves the received data alone. -/
theorem of_keepsRx (h : RxOk s s.refused ch) (hkeeps : KeepsRx s s') (r : Reply) :
    RxSafe s ch j (.ok (s', r)) := by
  refine ⟨ch, ?_, fun k _ => ⟨rfl, fun q _ => by rw [hkeeps.pbufs]⟩⟩
  rw [hkeeps.refused]
  exact h.frame hkeeps.head fun q _ => by rw [hkeeps.pbufs]

/-- A send. -/
theorem transmit (h : RxOk s s.refused ch) {buffer : List UInt8} {timed : Bool}
    {answer : SendAnswer} {send : Server → Ptr → Except Fault Sent}
    (hsend : ∀ {t : Server} {token : Ptr} {b : Pbuf}, t.pbufs token = some b → b.ref ≤ 1 →
      b.next = none → SendsOnly token t (send t token))
    (hok : IfSome answer.alloc fun p => s.pbufs p = none) :
    RxSafe s ch j (transmit cfg s buffer timed answer send) := by
  rcases transmit_cases hsend hok with herr | ⟨t, r, ht, hconn, hrefused, hpbufs, -⟩
  · rw [herr]; rfl
  · rw [ht]
    refine ⟨ch, ?_, fun k _ => ⟨rfl, fun q hq => hpbufs q (h.ne_none hq)⟩⟩
    rw [hrefused]
    exact h.frame (fun k => by rw [hconn]) hpbufs

/-- A receive. -/
theorem receive (h : RxOk s s.refused ch) {k : ℤ} (hk : cfg.InRange k) (length : UInt32)
    (timed : Bool) (remote : Host) :
    RxSafe s ch (some k) (receive cfg s k length timed remote) := by
  obtain ⟨t, result, data, timestamp, ht, hrx, hspares, -⟩ := h.receive hk length timed remote
  rw [ht]
  exact ⟨_, hrx, hspares⟩

/-- **A step keeps the chains sound**, when a datagram finds room for its event, and works on
the slot it touches only. -/
theorem step (h : RxOk s s.refused ch) (hcur : s.table.CursorOk cfg) (hq : QueueOk cfg s.queue)
    {a : Action} (hok : Allowed cfg s a) (hroom : UdpHasRoom cfg s a) :
    RxSafe s ch a.touches (step cfg s a) := by
  have hstep := rxStep hcur hok
  generalize Xtcp.step cfg s a = x at hstep ⊢
  cases hstep with
  | nullPcb => rfl
  | keeps hkeeps => exact of_keepsRx h hkeeps _
  | @close i call k lingers hcloses =>
    obtain ⟨t, ch', ht, hrx, hspares⟩ := h.close cfg i k lingers
    rw [touches_of_closes hcloses, ht]
    exact ⟨ch', hrx, hspares⟩
  | transmit _ hsend halloc => exact transmit h hsend halloc
  | recv hown => exact receive h hown.1 _ _ _
  | @recvfrom i k length timed hown =>
    obtain ⟨remote, hremote⟩ : ∃ remote, getRemote cfg s k = .ok remote := by
      rw [getRemote, if_pos hown.1]
      rcases h.exists_head k with ⟨-, hhead⟩ | ⟨p, l, b, -, hhead, hb⟩
      · rw [hhead]; exact ⟨_, rfl⟩
      · simp only [hhead, Pbufs.load, hb]; exact ⟨_, rfl⟩
    rw [hremote]
    exact receive h hown.1 length timed remote
  | @tcpRecv pcb arg c cells =>
    obtain ⟨p, b⟩ := c
    obtain ⟨status, -, ⟨hlinked, hnd, hcells⟩, -⟩ := tcpEvent_route hok
    obtain ⟨t, e, ch', ht, hrx, hspares, -⟩ := h.recv cfg hlinked hnd hcells pcb arg
    rw [ht]
    exact ⟨ch', hrx, hspares⟩
  | udpRecv =>
    obtain ⟨t, ch', ht, hrx, hspares⟩ := h.udpRecv hq hok hroom
    rw [ht]
    exact ⟨ch', hrx, hspares⟩
  | dropRefused =>
    obtain ⟨t, ch', ht, hrx, hspares⟩ := h.dropRefused cfg hok
    rw [ht]
    exact ⟨ch', hrx, hspares⟩

end RxSafe

/-! ### Histories -/

theorem init_pbuf (k : ℤ) : ((init cfg).connections k).pbuf = none := by
  simp only [init, initClientConnections, Server.static]
  split <;> rfl

theorem rxOk_init : RxOk (init cfg) (init cfg).refused fun _ => [] := by
  refine ⟨⟨fun i => ?_, fun _ _ _ => List.disjoint_nil_left _⟩, by simp⟩
  cases i with
  | inl k => rw [IsChain.nil_iff]; exact init_pbuf k
  | inr p => rw [IsChain.nil_iff]; rfl

/-- The table, the queues and the chains are sound. -/
structure RxInv (cfg : Config) (s : Server) : Prop where
  /-- The table is sound. -/
  table : TableOk cfg s.table
  /-- The queues are sound. -/
  events : EventsOk cfg s.queue
  /-- The chains are sound. -/
  chains : ∃ ch, RxOk s s.refused ch

theorem rxInv_init : RxInv cfg (init cfg) := ⟨tableOk_init, eventsOk_init, _, rxOk_init⟩

theorem RxInv.step (h : RxInv cfg s) {a : Action} (hok : Allowed cfg s a)
    (hroom : UdpHasRoom cfg s a) {r : Reply} (hs : step cfg s a = .ok (s', r)) : RxInv cfg s' := by
  obtain ⟨hT, hq, ch, hrx⟩ := h
  have hsafe := RxSafe.step hrx hT.cursor hq.queueOk hok hroom
  rw [hs] at hsafe
  obtain ⟨ch', hrx', -⟩ := hsafe
  exact ⟨hT.step (step_table hT.cursor hok hs), eventsOk_step hq hs, ch', hrx'⟩

/-- **The chains are sound** along a history in which every datagram finds room for its
event. -/
theorem RunsTo.rxInv {tr : List (Action × Reply)} {s : Server}
    (hrun : RunsTo cfg (UdpHasRoom cfg) tr s) : RxInv cfg s :=
  Run.invariant (I := RxInv cfg) hrun rxInv_init fun _ _ _ _ h hok hs => h.step hok.1 hok.2 hs

/-- The integrity of the received data along the histories whose steps meet `C`.  The chain of
every slot ends, has no pbuf twice, shares none with another slot, and has only pbufs that have
not been released; and no walk along the chains fails to end or meets a pbuf that has been
released. -/
def RxIntact (cfg : Config) (C : Server → Action → Prop) : Prop :=
  ∀ (tr : List (Action × Reply)) (s : Server), RunsTo cfg C tr s →
    (∃ ch : ℤ → List Ptr, (∀ k, IsChain s.pbufs.nxt (s.connections k).pbuf (ch k)) ∧
      (∀ k, (ch k).Nodup) ∧ (∀ k, ∀ p ∈ ch k, s.pbufs p ≠ none) ∧
      ∀ j k, j ≠ k → List.Disjoint (ch j) (ch k)) ∧
    ∀ a e, Allowed cfg s a → C s a → step cfg s a = .error e → e.astray = false

/-- **Received data is intact**, if no datagram finds the queue of its owner full. -/
theorem rx_intact (cfg : Config) : RxIntact cfg (UdpHasRoom cfg) := by
  intro tr s hrun
  obtain ⟨hT, hq, ch, hrx⟩ := hrun.rxInv
  refine ⟨⟨fun k => ch (.inl k), hrx.isChain, fun k => (hrx.isChain k).nodup,
    fun k p hp => hrx.ne_none hp, fun j k hjk => hrx.chains.disjoint _ _ (by simpa using hjk)⟩, ?_⟩
  intro a e hok hroom he
  have hsafe := RxSafe.step hrx hT.cursor hq.queueOk hok hroom
  rwa [he] at hsafe

/-- The queue of the owner is full when the second datagram arrives: it is released, and stays
in the chain of slot 0. -/
theorem full_queue_leaves_released_pbuf : ¬ RxIntact .small fun _ _ => True := by
  intro hintact
  have hrun : ∃ tr s, RunsTo .small (fun _ _ => True) tr s ∧ (s.connections 0).pbuf = some 100 ∧
      s.pbufs.nxt 100 = some (some 101) ∧ s.pbufs.nxt 101 = none := by
    refine Run.exists_of_replay [.call 0 (.socket .udp (some 10)),
      .call 0 (.listen 0 80 {} ⟨.ok, none⟩),
      .happens (.udpRecv 10 0 [(100, ⟨none, ⟨[1], by decide⟩, 1, 1, false, 0, {}⟩)] none 0),
      .happens (.udpRecv 10 0 [(101, ⟨none, ⟨[2], by decide⟩, 1, 1, false, 0, {}⟩)] none 0)] ?_
    decide
  obtain ⟨tr, s, hrun, hhead, h100, h101⟩ := hrun
  obtain ⟨⟨ch, hchain, -⟩, -⟩ := hintact tr s hrun
  have hchain := hchain 0
  rw [hhead] at hchain
  obtain ⟨l, hl⟩ := hchain.exists_cons
  rw [hl] at hchain
  obtain ⟨-, y, hy, hrest⟩ := IsChain.cons_iff.mp hchain
  obtain rfl : some 101 = y := Option.some.inj (h100.symm.trans hy)
  obtain ⟨l', rfl⟩ := hrest.exists_cons
  obtain ⟨-, z, hz, -⟩ := IsChain.cons_iff.mp hrest
  rw [h101] at hz
  cases hz

end Xtcp
