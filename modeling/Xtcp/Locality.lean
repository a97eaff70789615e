import Xtcp.Library.Frames
import Xtcp.Isolation
import Xtcp.Environment

/-!
# Calls of different clients

All state is in static arrays and in pbufs linked to one another, but a call works on one slot, on
the chain and the control block of that slot, and on the queue of its caller.  Where the chains
are disjoint and no two slots have the same control block, calls of different clients have nothing
in common; so it does not matter in which order they come.

## Main definitions

* `Loc`, `Server.get` — the state by locations.
* `footprint` — the locations of a call.
* `Call.WorksOn` — the calls in question.
* `RxChains`, `DistinctPcbs` — chains and control blocks are not shared.

## Main results

* `pbufFreeLoop_parallel`, `freeNotificationsOnQueue_parallel` — the loops are local.
* `local_stepCall` — **a call is local to its footprint**.
* `calls_commute` — **calls of different clients commute**.
-/

namespace Xtcp

open Runs LinkedChain Frames

variable {cfg : Config} {s t : Server} {i : ℕ} {a : ℤ} {D : Set Ptr} {P : Option Ptr}

/-! ### Locations -/

/-- A location of the state. -/
inductive Loc
  /-- A slot of the connection table. -/
  | slot (k : ℤ)
  /-- The event queue of a client. -/
  | row (c : ℕ)
  /-- A pbuf. -/
  | pbuf (p : Ptr)
  /-- A control block. -/
  | pcb (p : Ptr)
  /-- Everything else. -/
  | rest

/-- What there is at a location. -/
def Loc.Val : Loc → Type
  | .slot _ => ConnectionEntry
  | .row _ => (ℤ → ClientEvent) × ℤ × ℤ × Bool
  | .pbuf _ => Option Pbuf
  | .pcb _ => Option TcpPcb × Option UdpPcb
  | .rest => ℤ × Bool × (Ptr → Bool) × List ℕ × (IpAddr → ℕ) × (MacAddr → Bool)

/-- The row, the head, the count and the notification of a client. -/
def ClientQueue.row (q : ClientQueue) (c : ℕ) : (ℤ → ClientEvent) × ℤ × ℤ × Bool :=
  (q.clientQueue c, q.clientHeads c, q.clientNumEvents c, q.eventReady c)

/-- What the state holds at a location. -/
def Server.get (s : Server) : (l : Loc) → l.Val
  | .slot k => s.connections k
  | .row c => s.queue.row c
  | .pbuf p => s.pbufs p
  | .pcb p => (s.tcp p, s.udp p)
  | .rest =>
    (s.lastGuid, s.netifNotifyState, s.refused, s.dnsRequests, s.igmpJoins, s.macFilter)

/-- There is nothing else in the state. -/
theorem Server.get_injective : Function.Injective Server.get := by
  intro s t h
  have hslot : s.connections = t.connections := funext fun k => congrFun h (.slot k)
  have hrow : ∀ c, s.queue.row c = t.queue.row c := fun c => congrFun h (.row c)
  have hpbuf : s.pbufs = t.pbufs := funext fun p => congrFun h (.pbuf p)
  have hpcb : ∀ p, (s.tcp p, s.udp p) = (t.tcp p, t.udp p) := fun p => congrFun h (.pcb p)
  have hrest : (s.lastGuid, s.netifNotifyState, s.refused, s.dnsRequests, s.igmpJoins, s.macFilter)
      = (t.lastGuid, t.netifNotifyState, t.refused, t.dnsRequests, t.igmpJoins, t.macFilter) :=
    congrFun h .rest
  have hqueue : s.queue = t.queue := by
    have h1 : s.queue.clientQueue = t.queue.clientQueue :=
      funext fun c => congrArg Prod.fst (hrow c)
    have h2 : s.queue.clientHeads = t.queue.clientHeads :=
      funext fun c => congrArg (fun x => x.2.1) (hrow c)
    have h3 : s.queue.clientNumEvents = t.queue.clientNumEvents :=
      funext fun c => congrArg (fun x => x.2.2.1) (hrow c)
    have h4 : s.queue.eventReady = t.queue.eventReady :=
      funext fun c => congrArg (fun x => x.2.2.2) (hrow c)
    generalize s.queue = q at *
    generalize t.queue = q' at *
    cases q
    cases q'
    simp only at h1 h2 h3 h4
    rw [h1, h2, h3, h4]
  have htcp : s.tcp = t.tcp := funext fun p => congrArg Prod.fst (hpcb p)
  have hudp : s.udp = t.udp := funext fun p => congrArg Prod.snd (hpcb p)
  simp only [Prod.mk.injEq] at hrest
  obtain ⟨hguid, hnetif, hrefused, hdns, higmp, hmac⟩ := hrest
  cases s
  cases t
  simp only at *
  subst hslot hpbuf hqueue htcp hudp hguid hnetif hrefused hdns higmp hmac
  rfl

/-- The locations of a call of client `i` for slot `a`, when `D` are the pbufs of the slot and `P`
is the address of its control block. -/
def footprint (i : ℕ) (a : ℤ) (D : Set Ptr) (P : Option Ptr) : Set Loc := fun l =>
  match l with
  | .slot k => k = a
  | .row c => c = i
  | .pbuf p => p ∈ D
  | .pcb p => P = some p
  | .rest => False

/-- Two states agree on a footprint. -/
theorem agreeOn_footprint : AgreeOn Server.get (footprint i a D P) s t ↔
    s.connections a = t.connections a ∧ s.queue.row i = t.queue.row i ∧
      (∀ p ∈ D, s.pbufs p = t.pbufs p) ∧
        ∀ p, P = some p → s.tcp p = t.tcp p ∧ s.udp p = t.udp p := by
  constructor
  · intro h
    exact ⟨h (.slot a) rfl, h (.row i) rfl, fun p hp => h (.pbuf p) hp,
      fun p hp => Prod.mk.inj (h (.pcb p) hp)⟩
  · rintro ⟨hslot, hrow, hpbuf, hpcb⟩ l hl
    cases l with
    | slot k => cases hl; exact hslot
    | row c => cases hl; exact hrow
    | pbuf p => exact hpbuf p hl
    | pcb p => exact Prod.ext (hpcb p hl).1 (hpcb p hl).2
    | rest => exact absurd hl id

/-- Nothing outside a footprint has changed. -/
theorem agreeOn_compl : AgreeOn Server.get (footprint i a D P)ᶜ s t ↔
    (∀ k, k ≠ a → s.connections k = t.connections k) ∧
      (∀ c, c ≠ i → s.queue.row c = t.queue.row c) ∧
      (∀ p, p ∉ D → s.pbufs p = t.pbufs p) ∧
      (∀ p, P ≠ some p → s.tcp p = t.tcp p ∧ s.udp p = t.udp p) ∧ s.get .rest = t.get .rest := by
  constructor
  · intro h
    exact ⟨fun k hk => h (.slot k) hk, fun c hc => h (.row c) hc, fun p hp => h (.pbuf p) hp,
      fun p hp => Prod.mk.inj (h (.pcb p) hp), h .rest id⟩
  · rintro ⟨hslot, hrow, hpbuf, hpcb, hrest⟩ l hl
    cases l with
    | slot k => exact hslot k hl
    | row c => exact hrow c hl
    | pbuf p => exact hpbuf p hl
    | pcb p => exact Prod.ext (hpcb p hl).1 (hpcb p hl).2
    | rest => exact hrest

/-! ### The loops -/

/-- The same is written to two stores that agree on `D`. -/
theorem update_agree {m m' : Pbufs} (h : ∀ p ∈ D, m p = m' p) (r : Ptr) (v : Option Pbuf) :
    ∀ p ∈ D, Function.update m r v p = Function.update m' r v p := by
  intro p hp
  by_cases hpr : p = r
  · rw [hpr, Function.update_self, Function.update_self]
  · rw [Function.update_of_ne hpr, Function.update_of_ne hpr]
    exact h p hp

/-- A pbuf of `D` is written. -/
theorem update_outside {r : Ptr} (hr : r ∈ D) (m : Pbufs) (v : Option Pbuf) :
    ∀ p, p ∉ D → m p = Function.update m r v p := by
  intro p hp
  have hpr : p ≠ r := by
    rintro rfl
    exact hp hr
  rw [Function.update_of_ne hpr]

/-- **`pbuf_free` is local** to the pbufs it can reach. -/
theorem pbufFreeLoop_parallel : ∀ (n : ℕ) {m m' : Pbufs} {x : Option Ptr},
    (∀ p, x = some p → p ∈ D) → LinksWithin D m → (∀ p ∈ D, m p = m' p) →
    (∃ e, pbufFreeLoop n m x = .error e ∧ pbufFreeLoop n m' x = .error e) ∨
      ∃ m₁ m₁', pbufFreeLoop n m x = .ok m₁ ∧ pbufFreeLoop n m' x = .ok m₁' ∧
        (∀ p ∈ D, m₁ p = m₁' p) ∧ (∀ p, p ∉ D → m p = m₁ p) ∧ ∀ p, p ∉ D → m' p = m₁' p := by
  intro n
  induction n with
  | zero =>
    intro m m' x hx _ hagree
    cases x with
    | none => exact .inr ⟨m, m', rfl, rfl, hagree, fun _ _ => rfl, fun _ _ => rfl⟩
    | some r => exact .inl ⟨.endless, rfl, rfl⟩
  | succ n ih =>
    intro m m' x hx hlinks hagree
    cases x with
    | none => exact .inr ⟨m, m', rfl, rfl, hagree, fun _ _ => rfl, fun _ _ => rfl⟩
    | some r =>
      have hr : r ∈ D := hx r rfl
      have hwrite := update_agree hagree r
      have hoff := update_outside hr
      simp only [pbufFreeLoop, ← hagree r hr]
      cases hb : m r with
      | none => exact .inl ⟨.badPbuf, rfl, rfl⟩
      | some b =>
        by_cases href : b.ref ≤ 1
        · simp only [if_pos href]
          have hlinks' : LinksWithin D (Function.update m r none) := by
            refine hlinks.mono fun p q hq => ?_
            by_cases hpr : p = r
            · subst hpr; simp [Pbufs.nxt] at hq
            · simpa [Pbufs.nxt, hpr] using hq
          obtain herr | ⟨m₁, m₁', h₁, h₁', hD, hm, hm'⟩ :=
            ih (fun p hp => hlinks.next hr hb hp) hlinks' (hwrite none)
          · exact .inl herr
          · exact .inr ⟨m₁, m₁', h₁, h₁', hD, fun p hp => (hoff m none p hp).trans (hm p hp),
              fun p hp => (hoff m' none p hp).trans (hm' p hp)⟩
        · simp only [if_neg href]
          exact .inr ⟨_, _, rfl, rfl, hwrite _, hoff m _, hoff m' _⟩

/-- One round of the loop of `free_notifications_on_queue` works on one row. -/
theorem freeLoopBody_parallel (cfg : Config) {c : ℕ} (id : ℤ) {st st' : FreeLoop}
    (hrow : st.queue.row c = st'.queue.row c) (hw : st.writeIndex = st'.writeIndex)
    (hr : st.readIndex = st'.readIndex) :
    (freeLoopBody cfg c id st).queue.row c = (freeLoopBody cfg c id st').queue.row c ∧
      (freeLoopBody cfg c id st).writeIndex = (freeLoopBody cfg c id st').writeIndex ∧
      (freeLoopBody cfg c id st).readIndex = (freeLoopBody cfg c id st').readIndex ∧
      ∀ d, d ≠ c → (freeLoopBody cfg c id st).queue.row d = st.queue.row d := by
  simp only [ClientQueue.row, Prod.mk.injEq] at hrow
  obtain ⟨hq, hh, hn, hready⟩ := hrow
  simp only [freeLoopBody, hq, hw, hr]
  split
  · refine ⟨by simp [ClientQueue.row, hq, hh, hn, hready], rfl, rfl, fun d hd => ?_⟩
    simp [ClientQueue.row, hd]
  · split
    · refine ⟨by simp [ClientQueue.row, hh, hn, hready], rfl, rfl, fun d hd => ?_⟩
      simp [ClientQueue.row, hd]
    · exact ⟨by simp [ClientQueue.row, hq, hh, hn, hready], rfl, rfl, fun d _ => rfl⟩

/-- The other rows are left alone. -/
theorem row_freeNotificationsOnQueue (q : ClientQueue) (c : ℕ) (id : ℤ) {d : ℕ} (hd : d ≠ c) :
    (freeNotificationsOnQueue cfg q c id).1.row d = q.row d := by
  have hloop : ∀ (n : ℕ) (st : FreeLoop),
      ((freeLoopBody cfg c id)^[n] st).queue.row d = st.queue.row d := by
    intro n
    induction n with
    | zero => intro st; rfl
    | succ n ih =>
      intro st
      rw [Function.iterate_succ_apply, ih]
      exact (freeLoopBody_parallel cfg id rfl rfl rfl).2.2.2 d hd
  unfold freeNotificationsOnQueue
  split
  · exact hloop _ _
  · rfl

/-- **`free_notifications_on_queue` is local** to a row. -/
theorem freeNotificationsOnQueue_parallel {q q' : ClientQueue} {c : ℕ} (hrow : q.row c = q'.row c)
    (id : ℤ) : (freeNotificationsOnQueue cfg q c id).1.row c
      = (freeNotificationsOnQueue cfg q' c id).1.row c := by
  have hloop : ∀ (n : ℕ) (st st' : FreeLoop), st.queue.row c = st'.queue.row c →
      st.writeIndex = st'.writeIndex → st.readIndex = st'.readIndex →
      ((freeLoopBody cfg c id)^[n] st).queue.row c
        = ((freeLoopBody cfg c id)^[n] st').queue.row c := by
    intro n
    induction n with
    | zero => intro st st' h _ _; exact h
    | succ n ih =>
      intro st st' h hw hr
      obtain ⟨h', hw', hr', -⟩ := freeLoopBody_parallel cfg id h hw hr
      rw [Function.iterate_succ_apply, Function.iterate_succ_apply]
      exact ih _ _ h' hw' hr'
  have hnum : q.clientNumEvents c = q'.clientNumEvents c := congrArg (fun x => x.2.2.1) hrow
  have hhead : q.clientHeads c = q'.clientHeads c := congrArg (fun x => x.2.1) hrow
  unfold freeNotificationsOnQueue
  split
  · simp only [hnum, hhead]
    exact hloop _ _ _ hrow rfl rfl
  · exact hrow

/-! ### Writing at a location -/

section

variable (h : AgreeOn Server.get (footprint i a D P) s t)

include h

theorem moves_setEntry (e : ConnectionEntry) :
    Moves Server.get (footprint i a D P) s t (s.setEntry a e) (t.setEntry a e) := by
  obtain ⟨-, hrow, hpbuf, hpcb⟩ := agreeOn_footprint.mp h
  have hoff : ∀ u : Server, AgreeOn Server.get (footprint i a D P)ᶜ u (u.setEntry a e) := by
    intro u
    refine agreeOn_compl.mpr ⟨fun k hk => ?_, fun _ _ => rfl, fun _ _ => rfl,
      fun _ _ => ⟨rfl, rfl⟩, rfl⟩
    exact (Function.update_of_ne hk _ _).symm
  refine ⟨agreeOn_footprint.mpr ⟨?_, hrow, hpbuf, hpcb⟩, hoff s, hoff t⟩
  simp [Server.setEntry]

theorem moves_pbufs {m m' : Pbufs} (hD : ∀ p ∈ D, m p = m' p) (hm : ∀ p, p ∉ D → s.pbufs p = m p)
    (hm' : ∀ p, p ∉ D → t.pbufs p = m' p) : Moves Server.get (footprint i a D P) s t
      { s with pbufs := m } { t with pbufs := m' } := by
  obtain ⟨hslot, hrow, -, hpcb⟩ := agreeOn_footprint.mp h
  refine ⟨agreeOn_footprint.mpr ⟨hslot, hrow, hD, hpcb⟩, ?_, ?_⟩
  · exact agreeOn_compl.mpr ⟨fun _ _ => rfl, fun _ _ => rfl, hm, fun _ _ => ⟨rfl, rfl⟩, rfl⟩
  · exact agreeOn_compl.mpr ⟨fun _ _ => rfl, fun _ _ => rfl, hm', fun _ _ => ⟨rfl, rfl⟩, rfl⟩

theorem moves_queue {q q' : ClientQueue} (hi : q.row i = q'.row i)
    (hq : ∀ c, c ≠ i → s.queue.row c = q.row c) (hq' : ∀ c, c ≠ i → t.queue.row c = q'.row c) :
    Moves Server.get (footprint i a D P) s t { s with queue := q } { t with queue := q' } := by
  obtain ⟨hslot, -, hpbuf, hpcb⟩ := agreeOn_footprint.mp h
  refine ⟨agreeOn_footprint.mpr ⟨hslot, hi, hpbuf, hpcb⟩, ?_, ?_⟩
  · exact agreeOn_compl.mpr ⟨fun _ _ => rfl, hq, fun _ _ => rfl, fun _ _ => ⟨rfl, rfl⟩, rfl⟩
  · exact agreeOn_compl.mpr ⟨fun _ _ => rfl, hq', fun _ _ => rfl, fun _ _ => ⟨rfl, rfl⟩, rfl⟩

/-- The control block of the slot is written, by a function of what it was. -/
theorem moves_tcp {p : Ptr} (hp : P = some p) (f : Option TcpPcb → Option TcpPcb) :
    Moves Server.get (footprint i a D P) s t
      { s with tcp := Function.update s.tcp p (f (s.tcp p)) }
      { t with tcp := Function.update t.tcp p (f (t.tcp p)) } := by
  subst hp
  obtain ⟨hslot, hrow, hpbuf, hpcb⟩ := agreeOn_footprint.mp h
  have hoff : ∀ (u : Server) (x : Option TcpPcb),
      AgreeOn Server.get (footprint i a D (some p))ᶜ u
        { u with tcp := Function.update u.tcp p x } := by
    intro u x
    refine agreeOn_compl.mpr ⟨fun _ _ => rfl, fun _ _ => rfl, fun _ _ => rfl, fun q hq => ?_, rfl⟩
    have hqp : q ≠ p := fun hqp => hq (by rw [hqp])
    exact ⟨(Function.update_of_ne hqp _ _).symm, rfl⟩
  refine ⟨agreeOn_footprint.mpr ⟨hslot, hrow, hpbuf, fun q hq => ?_⟩, hoff s _, hoff t _⟩
  obtain rfl : p = q := Option.some.inj hq
  rw [(hpcb p rfl).1]
  exact ⟨by simp only [Function.update_self], (hpcb p rfl).2⟩

theorem moves_udp {p : Ptr} (hp : P = some p) (f : Option UdpPcb → Option UdpPcb) :
    Moves Server.get (footprint i a D P) s t
      { s with udp := Function.update s.udp p (f (s.udp p)) }
      { t with udp := Function.update t.udp p (f (t.udp p)) } := by
  subst hp
  obtain ⟨hslot, hrow, hpbuf, hpcb⟩ := agreeOn_footprint.mp h
  have hoff : ∀ (u : Server) (x : Option UdpPcb),
      AgreeOn Server.get (footprint i a D (some p))ᶜ u
        { u with udp := Function.update u.udp p x } := by
    intro u x
    refine agreeOn_compl.mpr ⟨fun _ _ => rfl, fun _ _ => rfl, fun _ _ => rfl, fun q hq => ?_, rfl⟩
    have hqp : q ≠ p := fun hqp => hq (by rw [hqp])
    exact ⟨rfl, (Function.update_of_ne hqp _ _).symm⟩
  refine ⟨agreeOn_footprint.mpr ⟨hslot, hrow, hpbuf, fun q hq => ?_⟩, hoff s _, hoff t _⟩
  obtain rfl : p = q := Option.some.inj hq
  rw [(hpcb p rfl).2]
  exact ⟨(hpcb p rfl).1, by simp only [Function.update_self]⟩

end

/-! ### The functions of a call -/

/-- `D` and `P` are the pbufs and the control block of slot `a`. -/
structure Covers (D : Set Ptr) (P : Option Ptr) (a : ℤ) (s : Server) : Prop extends
    Within D a s where
  /-- The address of the control block. -/
  addr : (s.connections a).pcb.addr = P

theorem getTcpPcb_addr {p : Ptr} (hp : getTcpPcb cfg s a = some p) :
    (s.connections a).pcb.addr = some p := by
  unfold getTcpPcb at hp
  split at hp
  · exact hp
  · cases hp

theorem getUdpPcb_addr {p : Ptr} (hp : getUdpPcb cfg s a = some p) :
    (s.connections a).pcb.addr = some p := by
  unfold getUdpPcb at hp
  split at hp
  · exact hp
  · cases hp

section

variable (h : AgreeOn Server.get (footprint i a D P) s t)

include h

theorem slot_eq : t.connections a = s.connections a := (agreeOn_footprint.mp h).1.symm

theorem find_eq (c : ℕ) :
    (findClientConnection cfg t c a).status = .success ↔
      (findClientConnection cfg s c a).status = .success := by
  rw [find_success_iff, find_success_iff]
  show cfg.InRange a ∧ (t.connections a).clientNum = c ↔
    cfg.InRange a ∧ (s.connections a).clientNum = c
  rw [slot_eq h]

theorem getProtocol_eq : getProtocol cfg t a = getProtocol cfg s a := by
  simp only [getProtocol, slot_eq h]

theorem getTcpPcb_agree : getTcpPcb cfg t a = getTcpPcb cfg s a := by
  simp only [getTcpPcb, slot_eq h]

theorem getUdpPcb_agree : getUdpPcb cfg t a = getUdpPcb cfg s a := by
  simp only [getUdpPcb, slot_eq h]

theorem moves_consumed (haddr : (s.connections a).pcb.addr = P) (n : ℕ) :
    Moves Server.get (footprint i a D P) s t (s.consumed a n) (t.consumed a n) := by
  unfold Server.consumed
  rw [slot_eq h]
  split
  · next p hp =>
    rw [Option.ite_none_right_eq_some] at hp
    exact moves_tcp h (haddr.symm.trans hp.2)
      (Option.map fun b => { b with recved := b.recved + n })
  · exact .refl h

/-- The control block is given back to lwIP. -/
theorem moves_closePcb (cfg : Config) (haddr : (s.connections a).pcb.addr = P) (lingers : Bool) :
    Moves Server.get (footprint i a D P) s t (closePcb cfg s a lingers)
      (closePcb cfg t a lingers) := by
  unfold closePcb
  rw [getProtocol_eq h, getUdpPcb_agree h, getTcpPcb_agree h]
  split
  · split
    · next p hp => exact moves_udp h (haddr.symm.trans (getUdpPcb_addr hp)) fun _ => none
    · exact .refl h
  · split
    · next p hp =>
      exact moves_tcp h (haddr.symm.trans (getTcpPcb_addr hp)) fun x => x.bind fun b =>
        if b.status = .active ∧ lingers then some { b with status := .closing a } else none
    · exact .refl h
  · exact .refl h

variable (hcov : Covers D P a s)

include hcov

/-- The first pbuf of the slot, as it is in both states. -/
theorem load_eq {p : Ptr} (hp : (s.connections a).pbuf = some p) :
    t.pbufs.load p = s.pbufs.load p := by
  have hpbuf := (agreeOn_footprint.mp h).2.2.1 p (hcov.head p hp)
  simp only [Pbufs.load, hpbuf]

theorem getRemote_eq : getRemote cfg t a = getRemote cfg s a := by
  simp only [getRemote, slot_eq h]
  split
  · split
    · next p hp => rw [load_eq h hcov hp]
    · rfl
  · rfl

theorem getRemoteData_eq (length : ℤ) :
    getRemoteData cfg t a length = getRemoteData cfg s a length := by
  simp only [getRemoteData, slot_eq h]
  split
  · split
    · next p hp => rw [load_eq h hcov hp]
    · rfl
  · rfl

/-- The release of pbufs of the slot, after something else has been done. -/
theorem pbufFree_parallel {u v : Server} (huv : Moves Server.get (footprint i a D P) s t u v)
    (hu : u.pbufs = s.pbufs) (hv : v.pbufs = t.pbufs) {p : Ptr}
    (hp : (s.connections a).pbuf = some p) : Parallel Server.get (footprint i a D P) s t
      (do let m ← pbufFree s.pbufs p
          .ok ({ u with pbufs := m }, ()))
      (do let m ← pbufFree t.pbufs p
          .ok ({ v with pbufs := m }, ())) := by
  have hhead : ∀ q, some p = some q → q ∈ D := by
    rintro q ⟨⟩
    exact hcov.head p hp
  unfold pbufFree
  obtain ⟨e, he, he'⟩ | ⟨m, m', hm, hm', hD, hoff, hoff'⟩ :=
    pbufFreeLoop_parallel addressSpace hhead hcov.links (agreeOn_footprint.mp h).2.2.1
  · rw [he, he']
    exact .error
  · rw [hm, hm']
    rw [← hu] at hoff
    rw [← hv] at hoff'
    exact .ok (huv.trans (moves_pbufs huv.agree hD hoff hoff'))

theorem clearPending_parallel (cfg : Config) : Parallel Server.get (footprint i a D P) s t
    ((clearPendingRxDataOnConnection cfg s a).map fun u => (u, ()))
    ((clearPendingRxDataOnConnection cfg t a).map fun u => (u, ())) := by
  by_cases ha : cfg.InRange a
  · cases hhead : (s.connections a).pbuf with
    | none =>
      simp only [clearPendingRxDataOnConnection, if_pos ha, slot_eq h, hhead]
      exact .ok (.refl h)
    | some p =>
      have hhead' : (t.connections a).pbuf = some p := by rw [slot_eq h, hhead]
      rw [clearPending_eq ha hhead, clearPending_eq ha hhead', load_eq h hcov hhead, slot_eq h]
      cases s.pbufs.load p with
      | error e => exact .error
      | ok b =>
        have hmoves := moves_consumed h hcov.addr b.totLen
        have hentry := moves_setEntry hmoves.agree { s.connections a with pbuf := none }
        have hpar := pbufFree_parallel h hcov (hmoves.trans hentry) (Server.pbufs_consumed s a _)
          (Server.pbufs_consumed t a _) hhead
        simp only [Bind.bind, Except.bind] at hpar ⊢
        generalize pbufFree s.pbufs p = x at hpar ⊢
        generalize pbufFree t.pbufs p = y at hpar ⊢
        cases x <;> cases y <;> exact hpar
  · simp only [clearPendingRxDataOnConnection, if_neg ha]
    exact .ok (.refl h)

theorem freeRemoteData_parallel (cfg : Config) : Parallel Server.get (footprint i a D P) s t
    (freeRemoteData cfg s a) (freeRemoteData cfg t a) := by
  by_cases ha : cfg.InRange a
  · cases hhead : (s.connections a).pbuf with
    | none =>
      simp only [freeRemoteData, if_pos ha, slot_eq h, hhead]
      exact .ok (.refl h)
    | some p =>
      have hhead' : (t.connections a).pbuf = some p := by rw [slot_eq h, hhead]
      rw [freeRemoteData_eq ha hhead, freeRemoteData_eq ha hhead', load_eq h hcov hhead, slot_eq h]
      cases s.pbufs.load p with
      | error e => exact .error
      | ok b =>
        have hp : p ∈ D := hcov.head p hhead
        have hhead : ∀ q, some p = some q → q ∈ D := by
          rintro q ⟨⟩
          exact hp
        -- the pbuf is taken off its chain before it is released
        have hlinks : LinksWithin D (Function.update s.pbufs p (some { b with next := none })) :=
          hcov.links.update p (by simp)
        have hagree := update_agree (agreeOn_footprint.mp h).2.2.1 p (some { b with next := none })
        have hbefore := fun m => update_outside hp m (some { b with next := none })
        simp only [Bind.bind, Except.bind, pbufFree]
        obtain ⟨e, he, he'⟩ | ⟨m, m', hm, hm', hD, hoff, hoff'⟩ :=
          pbufFreeLoop_parallel addressSpace hhead hlinks hagree
        · rw [he, he']
          exact .error
        · rw [hm, hm']
          have hentry := moves_setEntry h { s.connections a with pbuf := b.next }
          have hpbufs := moves_pbufs hentry.agree hD
            (fun q hq => (hbefore s.pbufs q hq).trans (hoff q hq))
            fun q hq => (hbefore t.pbufs q hq).trans (hoff' q hq)
          have haddr : ((s.setEntry a { s.connections a with pbuf := b.next }).connections
              a).pcb.addr = P := by
            rw [← hcov.addr]
            simp [Server.setEntry]
          have hconsumed := moves_consumed hpbufs.agree haddr b.len
          exact .ok ((hentry.trans hpbufs).trans hconsumed)
  · simp only [freeRemoteData, if_neg ha]
    exact .ok (.refl h)

theorem receive_parallel (cfg : Config) (length : UInt32) (timed : Bool) (remote : Host) :
    Parallel Server.get (footprint i a D P) s t (receive cfg s a length timed remote)
      (receive cfg t a length timed remote) := by
  unfold receive
  rw [getRemoteData_eq h hcov]
  cases getRemoteData cfg s a (int32OfUInt32 length) with
  | error e => exact .error
  | ok copy =>
    refine (freeRemoteData_parallel h hcov cfg).bind fun s' t' e _ hagree => ?_
    exact .ok (.refl hagree)

theorem close_parallel (cfg : Config) (hfind : (findClientConnection cfg s i a).status = .success)
    (lingers : Bool) : Parallel Server.get (footprint i a D P) s t
      ((shimCloseSocket cfg s i a lingers).map fun u => (u, Reply.unit))
      ((shimCloseSocket cfg t i a lingers).map fun u => (u, Reply.unit)) := by
  have hfind' := (find_eq h i).mpr hfind
  have ha : cfg.InRange a := (find_success_iff.mp hfind).1
  -- the events of the slot are removed
  have hqueue : Moves Server.get (footprint i a D P) s t
      { s with queue := (freeNotificationsOnQueue cfg s.queue i a).1 }
      { t with queue := (freeNotificationsOnQueue cfg t.queue i a).1 } :=
    moves_queue h (freeNotificationsOnQueue_parallel (agreeOn_footprint.mp h).2.1 a)
      (fun c hc => (row_freeNotificationsOnQueue s.queue i a hc).symm)
      fun c hc => (row_freeNotificationsOnQueue t.queue i a hc).symm
  have hclear := clearPending_parallel hqueue.agree ⟨⟨hcov.head, hcov.links⟩, hcov.addr⟩ cfg
  simp only [shimCloseSocket, hfind, hfind', ne_eq, not_true_eq_false, if_false, Bind.bind,
    Except.bind]
  generalize hx : clearPendingRxDataOnConnection cfg
    { s with queue := (freeNotificationsOnQueue cfg s.queue i a).1 } a = x at hclear ⊢
  generalize clearPendingRxDataOnConnection cfg
    { t with queue := (freeNotificationsOnQueue cfg t.queue i a).1 } a = y at hclear ⊢
  cases x with
  | error e =>
    cases y with
    | error e' => cases hclear; exact .error
    | ok v => cases hclear
  | ok u =>
    cases y with
    | error e' => cases hclear
    | ok v =>
      cases hclear with
      | ok hmoves =>
        have haddr : (u.connections a).pcb.addr = P := by
          rw [← hcov.addr]
          have htable := (leaves_clearPending hx).table
          exact congrArg (fun T => (T.slot a).pcb.addr) htable
        have hclose := moves_closePcb hmoves.agree cfg haddr lingers
        have hfree : Moves Server.get (footprint i a D P) (closePcb cfg u a lingers)
            (closePcb cfg v a lingers) (freeClientConnection cfg (closePcb cfg u a lingers) a)
            (freeClientConnection cfg (closePcb cfg v a lingers) a) := by
          unfold freeClientConnection
          rw [if_pos ha, if_pos ha, slot_eq hclose.agree]
          exact moves_setEntry hclose.agree _
        exact .ok (((hqueue.trans hmoves).trans hclose).trans hfree)

omit hcov in
theorem setsockopt_parallel (cfg : Config) (haddr : (s.connections a).pcb.addr = P) (option : ℕ)
    (value : List UInt8) : Parallel Server.get (footprint i a D P) s t
      (shimIpSetsockopt cfg s a option value) (shimIpSetsockopt cfg t a option value) := by
  unfold shimIpSetsockopt
  rw [getProtocol_eq h]
  dsimp only
  split
  · exact .ok (.refl h)
  · split
    · exact .ok (.refl h)
    · next o _ =>
      split
      · exact .ok (.refl h)
      · next v _ =>
        split
        · exact .ok (.refl h)
        · unfold storeIpPcb
          rw [getProtocol_eq h, getUdpPcb_agree h, getTcpPcb_agree h]
          split
          · split
            · exact .error
            · next p hp =>
              exact .ok (moves_udp h (haddr.symm.trans (getUdpPcb_addr hp))
                (Option.map (o.writes v).2))
          · split
            · exact .error
            · next p hp =>
              exact .ok (moves_tcp h (haddr.symm.trans (getTcpPcb_addr hp))
                (Option.map (o.writes v).1))

end

/-! ### Calls -/

/-- The calls for slot `a` that work on it alone. -/
def Call.WorksOn (a : ℤ) : Call → Prop
  | .close id _ | .abort id _ | .recv id _ _ | .recvfrom id _ _ | .setConnectionClientData id _
  | .setsockopt id _ _ _ => id = a
  | _ => False

/-- **A call is local to its footprint.** -/
theorem local_stepCall {call : Call} (hcall : call.WorksOn a)
    (hfind : (findClientConnection cfg s i a).status = .success) (hcov : Covers D P a s) :
    Local Server.get (footprint i a D P) (fun t => stepCall cfg t i call) s := by
  intro t h
  have hfind' := (find_eq h i).mpr hfind
  have ha : cfg.InRange a := (find_success_iff.mp hfind).1
  cases call with
  | close id lingers | abort id lingers =>
    obtain rfl : id = a := hcall
    have hclose := close_parallel h hcov cfg hfind lingers
    simp only [stepCall]
    cases hx : shimCloseSocket cfg s i id lingers <;>
      cases hy : shimCloseSocket cfg t i id lingers <;>
      (rw [hx, hy] at hclose; exact hclose)
  | recv id length timed =>
    obtain rfl : id = a := hcall
    simp only [stepCall, recvCommon, hfind, hfind', ne_eq, not_true_eq_false, if_false]
    exact receive_parallel h hcov cfg length timed {}
  | recvfrom id length timed =>
    obtain rfl : id = a := hcall
    simp only [stepCall, recvfromCommon, hfind, hfind', ne_eq, not_true_eq_false, if_false,
      getProtocol_eq h, getRemote_eq h hcov]
    split
    · exact .ok (.refl h)
    · cases getRemote cfg s id with
      | error e => exact .error
      | ok remote => exact receive_parallel h hcov cfg length timed remote
  | setConnectionClientData id data =>
    obtain rfl : id = a := hcall
    simp only [stepCall, hfind, hfind', ne_eq, not_true_eq_false, if_false,
      setConnectionClientData, if_pos ha, slot_eq h]
    exact .ok (moves_setEntry h _)
  | setsockopt id level option value =>
    obtain rfl : id = a := hcall
    simp only [stepCall, shimSetsockopt, hfind, hfind', ne_eq, not_true_eq_false, if_false]
    split
    · refine (setsockopt_parallel h cfg hcov.addr option value).bind fun s' t' e _ hagree => ?_
      exact .ok (.refl hagree)
    · exact .ok (.refl h)
  | _ => exact absurd hcall id

/-! ### Chains that end -/

section

variable {l : List Ptr} (hl : IsChain s.pbufs.nxt (s.connections a).pbuf l)

include hl

/-- The first pbuf of a chain exists. -/
theorem load_returns {p : Ptr} (hp : (s.connections a).pbuf = some p) :
    ∃ b, s.pbufs p = some b ∧ s.pbufs.load p = .ok b := by
  rw [hp] at hl
  cases hl with
  | cons hnext _ =>
    obtain ⟨b, hb, -⟩ := nxt_eq_some.mp hnext
    exact ⟨b, hb, Pbufs.load_eq_ok.mpr hb⟩

theorem clearPending_returns (cfg : Config) :
    ∃ t, clearPendingRxDataOnConnection cfg s a = .ok t := by
  by_cases ha : cfg.InRange a
  · cases hhead : (s.connections a).pbuf with
    | none => exact ⟨s, by simp only [clearPendingRxDataOnConnection, if_pos ha, hhead]⟩
    | some p =>
      obtain ⟨b, -, hload⟩ := load_returns hl hhead
      rw [hhead] at hl
      obtain ⟨m, hm⟩ := pbufFree_returns hl
      rw [clearPending_eq ha hhead, hload, hm]
      exact ⟨_, rfl⟩
  · exact ⟨s, by simp only [clearPendingRxDataOnConnection, if_neg ha]⟩

theorem freeRemoteData_returns (cfg : Config) : ∃ q, freeRemoteData cfg s a = .ok q := by
  rcases pbuf_cases cfg s a with hnone | ⟨p, ha, hhead⟩
  · exact ⟨_, freeRemoteData_of_none hnone⟩
  · obtain ⟨b, hb, -⟩ := load_returns hl hhead
    obtain ⟨t, ht, -⟩ := freeRemoteData_head ha hhead hb
    exact ⟨_, ht⟩

theorem getRemote_returns (cfg : Config) : ∃ remote, getRemote cfg s a = .ok remote := by
  rcases pbuf_cases cfg s a with hnone | ⟨p, ha, hhead⟩
  · exact ⟨_, getRemote_of_none hnone⟩
  · obtain ⟨b, hb, -⟩ := load_returns hl hhead
    exact ⟨_, getRemote_of_some ha hhead hb⟩

theorem getRemoteData_returns (cfg : Config) (length : ℤ) :
    ∃ copy, getRemoteData cfg s a length = .ok copy := by
  rcases pbuf_cases cfg s a with hnone | ⟨p, ha, hhead⟩
  · exact ⟨_, getRemoteData_of_none hnone length⟩
  · obtain ⟨b, hb, -⟩ := load_returns hl hhead
    exact ⟨_, getRemoteData_of_some ha hhead hb length⟩

theorem receive_returns (cfg : Config) (length : UInt32) (timed : Bool) (remote : Host) :
    ∃ q, receive cfg s a length timed remote = .ok q := by
  obtain ⟨copy, hcopy⟩ := getRemoteData_returns hl cfg (int32OfUInt32 length)
  obtain ⟨⟨t, e⟩, hfree⟩ := freeRemoteData_returns hl cfg
  exact ⟨_, by simp only [receive, hcopy, hfree, Bind.bind, Except.bind]; rfl⟩

/-- **A call for a slot whose chain ends returns**, unless it is to write through a control block
that is not there. -/
theorem stepCall_returns {call : Call} (hcall : call.WorksOn a)
    (hfind : (findClientConnection cfg s i a).status = .success) :
    (∃ s' r, stepCall cfg s i call = .ok (s', r)) ∨
      (s.connections a).pcb.addr = none ∧ stepCall cfg s i call = .error .nullPcb := by
  cases call with
  | close id lingers | abort id lingers =>
    obtain rfl : id = a := hcall
    obtain ⟨t, ht⟩ := clearPending_returns
      (s := { s with queue := (freeNotificationsOnQueue cfg s.queue i id).1 }) hl cfg
    refine .inl ⟨freeClientConnection cfg (closePcb cfg t id lingers) id, .unit, ?_⟩
    simp only [stepCall, shimCloseSocket, hfind, ne_eq, not_true_eq_false, if_false, ht,
      Bind.bind, Except.bind]
  | recv id length timed =>
    obtain rfl : id = a := hcall
    obtain ⟨⟨t, r⟩, hreceive⟩ := receive_returns hl cfg length timed {}
    refine .inl ⟨t, r, ?_⟩
    simp only [stepCall, recvCommon, hfind, ne_eq, not_true_eq_false, if_false, hreceive]
  | recvfrom id length timed =>
    obtain rfl : id = a := hcall
    refine .inl ?_
    simp only [stepCall, recvfromCommon, hfind, ne_eq, not_true_eq_false, if_false]
    split
    · exact ⟨_, _, rfl⟩
    · obtain ⟨remote, hremote⟩ := getRemote_returns hl cfg
      obtain ⟨⟨t, r⟩, hreceive⟩ := receive_returns hl cfg length timed remote
      exact ⟨t, r, by rw [hremote]; exact hreceive⟩
  | setConnectionClientData id data =>
    refine .inl ?_
    simp only [stepCall]
    split
    · exact ⟨_, _, rfl⟩
    · exact ⟨_, _, rfl⟩
  | setsockopt id level option value =>
    obtain rfl : id = a := hcall
    obtain ⟨e, he⟩ | ⟨-, hproto, o, v, he⟩ := shimSetsockopt_eq cfg s i id level option value
    · exact .inl ⟨s, .code e, by simp only [stepCall, he, Bind.bind, Except.bind]⟩
    · simp only [stepCall, he]
      cases haddr : (s.connections id).pcb.addr with
      | none =>
        refine .inr ⟨rfl, ?_⟩
        simp only [storeIpPcb, getUdpPcb, getTcpPcb, haddr, ite_self]
        split <;> rfl
      | some p =>
        obtain ⟨-, hstore⟩ := ipPcb_of_addr haddr hproto
        obtain ⟨t, ht⟩ := hstore (o.writes v).1 (o.writes v).2
        exact .inl ⟨t, .code .success, by rw [ht]; rfl⟩
  | _ => exact absurd hcall id

end

/-! ### Disjoint footprints -/

/-- The chains of the slots are the lists `ch`, and no two of them share a pbuf. -/
structure RxChains (cfg : Config) (s : Server) (ch : ℤ → List Ptr) : Prop where
  /-- Each slot has its chain. -/
  isChain : ∀ k, cfg.InRange k → IsChain s.pbufs.nxt (s.connections k).pbuf (ch k)
  /-- Two chains share no pbuf. -/
  disjoint : ∀ j k, cfg.InRange j → cfg.InRange k → j ≠ k → List.Disjoint (ch j) (ch k)

/-- No two active slots have the same control block. -/
def DistinctPcbs (cfg : Config) (s : Server) : Prop :=
  ∀ j k, cfg.InRange j → cfg.InRange k → (s.connections j).isActive = true →
    (s.connections k).isActive = true → j ≠ k →
    ∀ p, (s.connections j).pcb.addr = some p → (s.connections k).pcb.addr ≠ some p

/-- The locations of slot `a` of client `i`. -/
def slotFootprint (s : Server) (i : ℕ) (a : ℤ) (ch : ℤ → List Ptr) : Set Loc :=
  footprint i a {p | p ∈ ch a} (s.connections a).pcb.addr

variable {ch : ℤ → List Ptr} {j : ℕ} {b : ℤ}

theorem RxChains.covers (h : RxChains cfg s ch) (ha : cfg.InRange a) :
    Covers {p | p ∈ ch a} (s.connections a).pcb.addr a s where
  head := by
    intro p hp
    have hchain := h.isChain a ha
    rw [hp] at hchain
    obtain ⟨l, hl⟩ := hchain.exists_cons
    show p ∈ ch a
    rw [hl]
    exact List.mem_cons_self
  links := fun p hp q hq => (h.isChain a ha).next_mem hp hq
  addr := rfl

/-- Slots of different clients have nothing in common. -/
theorem disjoint_slotFootprint (hch : RxChains cfg s ch) (hpcb : DistinctPcbs cfg s)
    (hij : i ≠ j) (ha : OwnsActive cfg s i a) (hb : OwnsActive cfg s j b) :
    Disjoint (slotFootprint s i a ch) (slotFootprint s j b ch) := by
  obtain ⟨har, haa, hac⟩ := ha
  obtain ⟨hbr, hba, hbc⟩ := hb
  have hab : a ≠ b := by
    rintro rfl
    exact hij (hac.symm.trans hbc)
  refine Set.disjoint_left.mpr fun l hl hl' => ?_
  cases l with
  | slot k => exact hab (hl.symm.trans hl')
  | row c => exact hij (hl.symm.trans hl')
  | pbuf p => exact hch.disjoint a b har hbr hab hl hl'
  | pcb p => exact hpcb a b har hbr haa hba hab p hl hl'
  | rest => exact hl

/-- **Calls of different clients commute.**  Where chains and control blocks are not shared, a call
for a slot of its caller returns, unless it is to write through a control block that is not there;
it reads and writes the slot, the chain, the control block and the queue of the caller only; and
two such calls of different clients have the same results and lead to the same state in either
order. -/
theorem calls_commute (hch : RxChains cfg s ch) (hpcb : DistinctPcbs cfg s) (hij : i ≠ j)
    (ha : OwnsActive cfg s i a) (hb : OwnsActive cfg s j b) {call call' : Call}
    (hcall : call.WorksOn a) (hcall' : call'.WorksOn b) :
    ((∃ s' r, stepCall cfg s i call = .ok (s', r)) ∨
      (s.connections a).pcb.addr = none ∧ stepCall cfg s i call = .error .nullPcb) ∧
    Local Server.get (slotFootprint s i a ch) (fun t => stepCall cfg t i call) s ∧
    (∀ s' r, stepCall cfg s i call = .ok (s', r) →
      AgreeOn Server.get (slotFootprint s i a ch)ᶜ s s') ∧
    inTurn (fun t => stepCall cfg t i call) (fun t => stepCall cfg t j call') s
      = (inTurn (fun t => stepCall cfg t j call') (fun t => stepCall cfg t i call) s).map
        fun x => (x.1, x.2.2, x.2.1) := by
  have hfind : (findClientConnection cfg s i a).status = .success :=
    find_success_iff.mpr ⟨ha.1, ha.2.2⟩
  have hfind' : (findClientConnection cfg s j b).status = .success :=
    find_success_iff.mpr ⟨hb.1, hb.2.2⟩
  have hreturns := stepCall_returns (hch.isChain a ha.1) hcall hfind
  have hreturns' := stepCall_returns (hch.isChain b hb.1) hcall' hfind'
  have hlocal := local_stepCall hcall hfind (hch.covers ha.1)
  have hlocal' := local_stepCall hcall' hfind' (hch.covers hb.1)
  refine ⟨hreturns, hlocal, fun s' r h => hlocal.unchanged h, ?_⟩
  refine inTurn_comm Server.get_injective (disjoint_slotFootprint hch hpcb hij ha hb) hlocal
    hlocal' fun e e' he he' => ?_
  -- there is one way to go wrong only
  obtain ⟨s', r, h⟩ | ⟨-, h⟩ := hreturns
  · cases h.symm.trans he
  · obtain ⟨s', r, h'⟩ | ⟨-, h'⟩ := hreturns'
    · cases h'.symm.trans he'
    · cases h.symm.trans he
      cases h'.symm.trans he'
      rfl

/-- Client 0 receives a datagram, and client 1 closes a TCP socket. -/
theorem calls_commute_close : ∃ s, Reachable .small s ∧ (s.connections 0).pbuf = some 20 ∧
    OwnsActive .small s 1 1 ∧
    inTurn (fun t => stepCall .small t 0 (.recv 0 2 false))
        (fun t => stepCall .small t 1 (.close 1 true)) s
      = (inTurn (fun t => stepCall .small t 1 (.close 1 true))
          (fun t => stepCall .small t 0 (.recv 0 2 false)) s).map
        fun x => (x.1, x.2.2, x.2.1) := by
  have hrun : ∃ tr s, RunsTo .small (fun _ _ => True) tr s ∧ (s.connections 0).pbuf = some 20 ∧
      s.pbufs.nxt 20 = some none ∧ (s.connections 1).pbuf = none ∧
      (s.connections 0).pcb.addr = some 10 ∧ (s.connections 1).pcb.addr = some 12 ∧
      OwnsActive .small s 0 0 ∧ OwnsActive .small s 1 1 := by
    refine Run.exists_of_replay [.call 0 (.socket .udp (some 10)),
      .call 0 (.listen 0 80 {} ⟨.ok, none⟩), .call 1 (.socket .tcp (some 12)),
      .happens (.udpRecv 10 0 [(20, { payload := ⟨[1, 2], by decide⟩, totLen := 2 })] none 0)] ?_
    decide
  obtain ⟨tr, s, hrun, hhead, hnext, hhead', hpcb, hpcb', hown, hown'⟩ := hrun
  -- there are two slots
  have htwo : ∀ k, Config.small.InRange k → k = 0 ∨ k = 1 := by
    rintro k ⟨h0, h1⟩
    have hsmall : (Config.small.maxOpenSockets : ℤ) = 2 := rfl
    omega
  have hchains : RxChains .small s fun k => if k = 0 then [20] else [] := by
    constructor
    · intro k hk
      obtain rfl | rfl := htwo k hk
      · rw [hhead]
        exact .cons hnext .nil
      · rw [hhead']
        exact .nil
    · intro j k hj hk hjk
      obtain rfl | rfl := htwo j hj <;> obtain rfl | rfl := htwo k hk <;> simp at hjk ⊢
  have hdistinct : DistinctPcbs .small s := by
    intro j k hj hk _ _ hjk p hp hp'
    have hne : some (10 : Ptr) ≠ some 12 := by decide
    obtain rfl | rfl := htwo j hj
    · obtain rfl | rfl := htwo k hk
      · exact hjk rfl
      · exact hne (hpcb.symm.trans (hp.trans (hp'.symm.trans hpcb')))
    · obtain rfl | rfl := htwo k hk
      · exact hne (hpcb.symm.trans (hp'.trans (hp.symm.trans hpcb')))
      · exact hjk rfl
  have hrecv : Call.WorksOn 0 (.recv 0 2 false) := rfl
  have hclose : Call.WorksOn 1 (.close 1 true) := rfl
  exact ⟨s, ⟨tr, hrun⟩, hhead, hown',
    (calls_commute hchains hdistinct (by decide) hown hown' hrecv hclose).2.2.2⟩

end Xtcp
