import Xtcp.Slots
import Xtcp.Library.Holdings

/-!
# Control blocks and slots

The library asks lwIP for a control block when a socket is made, when a socket listens and when a
connection is accepted, and stores its address in a slot; it gives it back when the slot is closed.
A control block that lwIP has and no slot holds is lost: nobody can close it any more.  A slot
whose control block lwIP has freed is as bad.

Control blocks that wait to be accepted, and those that linger after `tcp_close`, belong to lwIP
and to no slot.  All others should be in exactly one slot.  Two callbacks take a slot away on
lwIP's word alone: `LWIP_EVENT_ERR`, and an accept that gets no slot, after which lwIP aborts the
new connection.  Both release the slot that the callback argument names, whatever it holds.

## Main definitions

* `Block`, `Table.holds`, `Table.Live` — control blocks, where they are, and which there are.
* `Accounted` — slots and control blocks correspond.
* `ReleasesOwn` — a callback that releases a slot releases the one that holds its control block.

## Main results

* `accounted_iff` — a step keeps the accounts exactly if a callback releases its own slot.
* `blocks_accounted` — **every control block is in one slot, there are no more of them than slots,
  and the next step loses one exactly if it releases the slot of another**.
-/

namespace Xtcp

open Runs Holdings

variable {cfg : Config} {T : Table}

/-! ### Control blocks -/

/-- A control block. -/
inductive Block
  /-- Of TCP. -/
  | tcp (p : Ptr)
  /-- Of UDP. -/
  | udp (p : Ptr)
  deriving DecidableEq

/-- The control block that an entry refers to. -/
def PcbUnion.block : PcbUnion → Option Block
  | .null => none
  | .tcp p => some (.tcp p)
  | .udp p => some (.udp p)

/-- Whether a control block with this status is the library's to close. -/
def PcbStatus.ours : PcbStatus → Bool
  | .closed | .listen | .active => true
  | .synRcvd _ | .closing _ => false

namespace Table

/-- The control block in slot `k`. -/
def holds (T : Table) (k : ℤ) : Option Block := (T.slot k).pcb.block

/-- The control blocks that are the library's to close. -/
def Live (T : Table) : Block → Prop
  | .tcp p => (T.tcp p).any (fun r => r.status.ours) = true
  | .udp p => T.udp p = true

instance (T : Table) : DecidablePred T.Live
  | .tcp _ => inferInstanceAs (Decidable (_ = true))
  | .udp _ => inferInstanceAs (Decidable (_ = true))

/-! What each operation does to the two sides. -/

theorem holds_setSlot (k : ℤ) (e : Slot) :
    (T.setSlot k e).holds = Function.update T.holds k e.pcb.block := by
  funext j
  simp only [holds, setSlot_slot, Function.update_apply]
  split <;> rfl

theorem holds_store (k : ℤ) (pcb : PcbUnion) :
    (T.store k pcb).holds = Function.update T.holds k pcb.block := holds_setSlot k _

theorem holds_release (k : ℤ) (hk : ¬ cfg.InRange k → T.holds k = none) :
    (T.release cfg k).holds = Function.update T.holds k none := by
  unfold release
  split
  · exact holds_setSlot k _
  · next h =>
    rw [← hk h, Function.update_eq_self]

/-- A slot that is taken held nothing, and holds nothing yet. -/
theorem holds_assign {k : ℤ} (hk : T.holds k = none) (c : ℕ) (protocol : Protocol) :
    (T.assign k c protocol).holds = T.holds := by
  have hset : (T.assign k c protocol).holds = Function.update T.holds k none := holds_setSlot k _
  rw [hset, ← hk, Function.update_eq_self]

/-- The control blocks after the one of TCP at `p` has been written. -/
theorem live_setTcp (p : Ptr) (r : Option Route) (x : Block) :
    (T.setTcp p r).Live x ↔
      if x = .tcp p then r.any (fun r => r.status.ours) = true else T.Live x := by
  cases x with
  | tcp q =>
    simp only [Live, setTcp_tcp, Block.tcp.injEq]
    split <;> rfl
  | udp q =>
    rw [if_neg (by simp)]
    rfl

theorem live_setUdp (p : Ptr) (live : Bool) (x : Block) :
    (T.setUdp p live).Live x ↔ if x = .udp p then live = true else T.Live x := by
  cases x with
  | udp q =>
    simp only [Live, setUdp, Function.update_apply, Block.udp.injEq]
    split <;> rfl
  | tcp q =>
    rw [if_neg (by simp)]
    rfl

/-- A control block of the library comes, or stays. -/
theorem live_setTcp_ours {p : Ptr} {r : Route} (hr : r.status.ours = true) :
    {x | (T.setTcp p (some r)).Live x} = insert (.tcp p) {x | T.Live x} := by
  ext x
  simp only [Set.mem_ofPred_eq, live_setTcp, Option.any_some, hr, Set.mem_insert_iff]
  split <;> simp_all

/-- A control block ends, or is lwIP's from now on. -/
theorem live_setTcp_gone {p : Ptr} {r : Option Route}
    (hr : r.any (fun r => r.status.ours) = false) :
    {x | (T.setTcp p r).Live x} = {x | T.Live x} \ {.tcp p} := by
  ext x
  simp only [Set.mem_ofPred_eq, live_setTcp, hr, Set.mem_sdiff, Set.mem_singleton_iff]
  split <;> simp_all

theorem live_setUdp_true (p : Ptr) :
    {x | (T.setUdp p true).Live x} = insert (.udp p) {x | T.Live x} := by
  ext x
  simp only [Set.mem_ofPred_eq, live_setUdp, Set.mem_insert_iff]
  split <;> simp_all

theorem live_setUdp_false (p : Ptr) :
    {x | (T.setUdp p false).Live x} = {x | T.Live x} \ {.udp p} := by
  ext x
  simp only [Set.mem_ofPred_eq, live_setUdp, Set.mem_sdiff, Set.mem_singleton_iff]
  split <;> simp_all

theorem live_release (k : ℤ) : (T.release cfg k).Live = T.Live := by
  unfold release
  split <;> (funext x; cases x <;> rfl)

theorem live_slots {T' : Table} (htcp : T'.tcp = T.tcp) (hudp : T'.udp = T.udp) :
    T'.Live = T.Live := by
  funext x
  cases x with
  | tcp p => simp only [Live, htcp]
  | udp p => simp only [Live, hudp]

end Table

/-! ### The accounts -/

/-- Every slot has a control block that lwIP has, if any, and every control block of the library is
in exactly one slot. -/
structure Accounted (cfg : Config) (T : Table) : Prop where
  /-- Slots and control blocks correspond. -/
  balanced : Balanced T.holds {x | T.Live x}
  /-- There is nothing outside the table. -/
  inRange : ∀ k, T.holds k ≠ none → cfg.InRange k

/-- A callback that releases a slot releases the one that holds its control block, or one that
holds nothing while its control block is in no slot. -/
def ReleasesOwn (cfg : Config) (T : Table) : Action → Prop
  | .happens (.tcpEvent p arg (.err _)) =>
    T.holds arg = some (.tcp p) ∨ T.holds arg = none ∧ ¬ T.Live (.tcp p)
  | .happens (.tcpEvent _ arg .accept) =>
    (cfg.InRange arg → (T.slot arg).protocol = .tcp → T.freeSlot cfg = none) → T.holds arg = none
  | _ => True

instance (T : Table) : (a : Action) → Decidable (ReleasesOwn cfg T a)
  | .happens (.tcpEvent _ _ (.err _)) => inferInstanceAs (Decidable (_ ∨ _ ∧ ¬ _))
  | .happens (.tcpEvent _ _ .accept) => inferInstanceAs (Decidable ((_ → _ → _) → _))
  | .call _ _ | .happens (.syn _ _) | .happens (.udpRecv _ _ _ _ _) | .happens (.dnsFound _ _ _)
  | .happens (.reap _) | .happens (.dropRefused _) | .happens (.linkStatus _)
  | .happens (.timeout _ _ _) | .happens (.tcpEvent _ _ .acceptFailed)
  | .happens (.tcpEvent _ _ .connected) | .happens (.tcpEvent _ _ (.recv _))
  | .happens (.tcpEvent _ _ .sent) | .happens (.tcpEvent _ _ .poll) =>
    inferInstanceAs (Decidable True)

namespace Accounted

variable {T' : Table} {k : ℤ} {p : Ptr}

/-- Slots and control blocks are the same. -/
theorem of_eq (h : Accounted cfg T) (hholds : T'.holds = T.holds)
    (hlive : {x | T'.Live x} = {x | T.Live x}) : Accounted cfg T' :=
  ⟨by rw [hholds, hlive]; exact h.balanced, by rw [hholds]; exact h.inRange⟩

/-- One slot is written, and the balance is right. -/
theorem of_update (h : Accounted cfg T) {x : Option Block} {L : Set Block}
    (hholds : T'.holds = Function.update T.holds k x) (hlive : {x | T'.Live x} = L)
    (hk : x ≠ none → cfg.InRange k) (hbal : Balanced (Function.update T.holds k x) L) :
    Accounted cfg T' := by
  refine ⟨by rw [hholds, hlive]; exact hbal, fun j hj => ?_⟩
  rw [hholds, Function.update_apply] at hj
  split at hj
  · next hjk =>
    rw [hjk]
    exact hk hj
  · exact h.inRange j hj

/-- A slot that has nothing in it gets a new control block. -/
theorem put (h : Accounted cfg T) (hk : cfg.InRange k) {x : Block}
    (hholds : T'.holds = Function.update T.holds k (some x))
    (hlive : {y | T'.Live y} = insert x {y | T.Live y}) (hempty : T.holds k = none)
    (hx : ¬ T.Live x) : Accounted cfg T' :=
  h.of_update hholds hlive (fun _ => hk) (h.balanced.put hempty hx)

/-- A slot is cleared, and a control block ends: both sides agree exactly if it was in that
slot, or neither was there. -/
theorem clear_iff (h : Accounted cfg T) {x : Block}
    (hholds : T'.holds = Function.update T.holds k none)
    (hlive : {y | T'.Live y} = {y | T.Live y} \ {x}) :
    Accounted cfg T' ↔ T.holds k = some x ∨ T.holds k = none ∧ ¬ T.Live x := by
  have hiff := h.balanced.clear_iff (i := k) (r := x)
  constructor
  · intro h'
    have hbal := h'.balanced
    rw [hholds, hlive] at hbal
    exact hiff.mp hbal
  · intro hown
    exact h.of_update hholds hlive (fun hne => absurd rfl hne) (hiff.mpr hown)

/-- A slot is cleared, and no control block ends. -/
theorem release_iff (h : Accounted cfg T) (hholds : T'.holds = Function.update T.holds k none)
    (hlive : {y | T'.Live y} = {y | T.Live y}) : Accounted cfg T' ↔ T.holds k = none := by
  constructor
  · intro h'
    have hbal := h'.balanced
    rw [hholds, hlive] at hbal
    exact h.balanced.release_iff.mp hbal
  · intro hnone
    exact h.of_update hholds hlive (fun hne => absurd rfl hne) (h.balanced.release_iff.mpr hnone)

/-- There is nothing outside the table. -/
theorem holds_of_not_inRange (h : Accounted cfg T) (hk : ¬ cfg.InRange k) : T.holds k = none := by
  by_contra hne
  exact hk (h.inRange k hne)

/-- The slot that is handed out holds nothing. -/
theorem holds_of_freeSlot (hT : TableOk cfg T) (hfree : T.freeSlot cfg = some k) :
    cfg.InRange k ∧ T.holds k = none := by
  obtain ⟨hk, hinactive⟩ := Table.freeSlot_some hT.cursor hfree
  refine ⟨hk, ?_⟩
  rw [Table.holds, (hT.slot k hk).reset hinactive]
  rfl

/-- A control block that is not there, or is lwIP's, is not the library's. -/
theorem not_live {route : Option Route} (hp : T.tcp p = route)
    (hroute : route.any (fun r => r.status.ours) = false) : ¬ T.Live (.tcp p) := by
  intro hlive
  rw [Table.Live, hp, hroute] at hlive
  cases hlive

/-- What was not the library's is not missed. -/
theorem diff_eq {x : Block} (hx : ¬ T.Live x) : {y | T.Live y} \ {x} = {y | T.Live y} :=
  Set.sdiff_singleton_eq_self hx

/-- A close gives back what the slot holds. -/
theorem close (h : Accounted cfg T) (hT : TableOk cfg T) (hk : cfg.InRange k) (lingers : Bool) :
    Accounted cfg ((T.closePcb k lingers).release cfg k) := by
  have hfits := (hT.slot k hk).fits
  have hholds : ((T.closePcb k lingers).release cfg k).holds = Function.update T.holds k none := by
    have hsame : (T.closePcb k lingers).holds = T.holds := by
      funext j
      simp only [Table.holds, Table.closePcb_slot]
    rw [Table.holds_release k fun hne => absurd hk hne, hsame]
  cases hpcb : (T.slot k).pcb with
  | null =>
    have hempty : T.holds k = none := by rw [Table.holds, hpcb]; rfl
    have hclose : T.closePcb k lingers = T := by
      unfold Table.closePcb
      rw [hpcb]
      split
      · next haddr => cases haddr
      · next haddr => cases haddr
      · rfl
    refine (h.release_iff hholds ?_).mpr hempty
    rw [Table.live_release, hclose]
  | tcp p =>
    rw [hpcb] at hfits
    have hproto : (T.slot k).protocol = .tcp := hfits
    have hholdsk : T.holds k = some (.tcp p) := by rw [Table.holds, hpcb]; rfl
    refine (h.clear_iff (x := .tcp p) hholds ?_).mpr (.inl hholdsk)
    rw [Table.live_release]
    simp only [Table.closePcb, hproto, hpcb, PcbUnion.addr]
    refine Table.live_setTcp_gone ?_
    cases T.tcp p with
    | none => rfl
    | some route =>
      simp only [Option.bind_some, Route.close]
      split <;> rfl
  | udp p =>
    rw [hpcb] at hfits
    have hproto : (T.slot k).protocol = .udp := hfits
    have hholdsk : T.holds k = some (.udp p) := by rw [Table.holds, hpcb]; rfl
    refine (h.clear_iff (x := .udp p) hholds ?_).mpr (.inl hholdsk)
    rw [Table.live_release]
    simp only [Table.closePcb, hproto, hpcb, PcbUnion.addr]
    exact Table.live_setUdp_false p

/-- A callback takes away the control block at `p` and releases the slot it names. -/
theorem err_iff (h : Accounted cfg T) {arg : ℤ} (p : Ptr) :
    Accounted cfg ((T.setTcp p none).release cfg arg) ↔
      T.holds arg = some (.tcp p) ∨ T.holds arg = none ∧ ¬ T.Live (.tcp p) := by
  refine h.clear_iff ?_ ?_
  · exact Table.holds_release (T := T.setTcp p none) arg h.holds_of_not_inRange
  · rw [Table.live_release]
    exact Table.live_setTcp_gone rfl

/-- The control block at `p` comes to an end, or is lwIP's, and was not the library's before. -/
theorem setTcp (h : Accounted cfg T) (hp : ¬ T.Live (.tcp p)) {route : Option Route}
    (hroute : route.any (fun r => r.status.ours) = false) : Accounted cfg (T.setTcp p route) := by
  refine h.of_eq rfl ?_
  rw [Table.live_setTcp_gone hroute, diff_eq hp]

/-- **A step keeps the accounts**, when a callback releases its own slot. -/
theorem step {s : Server} (hT : TableOk cfg s.table) (h : Accounted cfg s.table) {a : Action}
    (hok : Allowed cfg s a) (hown : ReleasesOwn cfg s.table a) {r : Reply} {T' : Table}
    (hstep : TableStep cfg s.table a r T') : Accounted cfg T' := by
  cases hstep with
  | quiet => exact h
  | socketNull _ _ hfree =>
    exact h.of_eq (Table.holds_assign (holds_of_freeSlot hT hfree).2 _ _)
      (by rw [Table.live_slots] <;> rfl)
  | socketNone _ hfree =>
    exact h.of_eq (Table.holds_assign (holds_of_freeSlot hT hfree).2 _ _)
      (by rw [Table.live_slots] <;> rfl)
  | @socketTcp i p k _ hfree hfresh =>
    obtain ⟨hk, hempty⟩ := holds_of_freeSlot hT hfree
    refine h.put hk ?_ (Table.live_setTcp_ours rfl) hempty (not_live hfresh rfl)
    rw [Table.holds_store]
    exact congrArg (Function.update · k _) (Table.holds_assign hempty _ _)
  | @socketUdp i p k _ hfree =>
    obtain ⟨hk, hempty⟩ := holds_of_freeSlot hT hfree
    refine h.put (x := .udp p) hk ?_ (Table.live_setUdp_true (T := s.table) p) hempty ?_
    · rw [Table.holds_store]
      exact congrArg (Function.update · k _) (Table.holds_assign hempty _ _)
    · -- lwIP makes a control block where there is none
      have hfresh : s.udp p = none := (hok.2 p rfl).2
      simp [Table.Live, Server.table, hfresh]
  | close _ _ howned => exact h.close hT howned.1 _
  | @listen i k _ _ p l arg hi howned hproto haddr hp hl =>
    have hpcb := hT.pcb_eq howned.1 hproto haddr
    have hholds : s.table.holds k = some (.tcp p) := by rw [Table.holds, hpcb]; rfl
    have hbal := h.balanced.exchange hholds (q := .tcp l) (not_live hl rfl)
    refine h.of_update (Table.holds_store k (.tcp l)) ?_ (fun _ => howned.1) hbal
    have hgone := Table.live_setTcp_gone (T := s.table) (p := p) (r := none) rfl
    rw [← hgone]
    exact Table.live_setTcp_ours (T := s.table.setTcp p none) rfl
  | @connect i k _ _ p arg _ _ _ _ hp =>
    refine h.of_eq rfl ?_
    rw [Table.live_setTcp_ours rfl]
    exact Set.insert_eq_of_mem (by simp [Table.Live, hp, PcbStatus.ours])
  | @clientData i k data =>
    refine h.of_eq ?_ (by rw [Table.live_slots] <;> rfl)
    rw [Table.holds_setSlot]
    exact Function.update_eq_self k _
  | syn hl hn => exact h.setTcp (not_live hn rfl) rfl
  | @accepted l n arg k hn _ _ hfree =>
    obtain ⟨hk, hempty⟩ := holds_of_freeSlot hT hfree
    refine h.put hk ?_ (Table.live_setTcp_ours rfl) hempty (not_live hn rfl)
    refine (Table.holds_store k (.tcp n)).trans ?_
    rw [Table.holds_assign hempty]
    rfl
  | @acceptAborted l n arg k hn _ _ hfree =>
    obtain ⟨hk, hempty⟩ := holds_of_freeSlot hT hfree
    have hstored : ((s.table.assign k (s.table.slot arg).clientNum .tcp).store k (.tcp n)).holds
        = Function.update s.table.holds k (some (.tcp n)) := by
      rw [Table.holds_store, Table.holds_assign hempty]
      rfl
    refine (h.release_iff (k := k) ?_ ?_).mpr hempty
    · rw [Table.holds_release k fun hne => absurd hk hne]
      exact (congrArg (Function.update · k none) hstored).trans (Function.update_idem _ _ _)
    · rw [Table.live_release, Table.live_setTcp_gone rfl]
      exact diff_eq (not_live hn rfl)
  | acceptRefused hn hrefused =>
    exact (h.err_iff _).mpr (.inr ⟨hown hrefused, not_live hn rfl⟩)
  | err => exact (h.err_iff _).mpr hown
  | reap hp hclosed hlisten hactive =>
    refine h.setTcp (not_live hp ?_) rfl
    rw [Option.any_some]
    generalize Route.status _ = status at *
    cases status <;> simp_all [PcbStatus.ours]

end Accounted

theorem accounted_init : Accounted cfg (init cfg).table := by
  have hholds : (init cfg).table.holds = fun _ => none := by
    funext k
    simp only [Table.holds, init, initClientConnections, Server.table, Server.static]
    split <;> rfl
  have hlive : {x | (init cfg).table.Live x} = ∅ := by
    ext x
    cases x <;> simp [Table.Live, init, initClientConnections, Server.table, Server.static]
  refine ⟨by rw [hholds, hlive]; exact .empty, fun k hk => ?_⟩
  rw [hholds] at hk
  exact absurd rfl hk

/-- What becomes of the table when a connection fails. -/
theorem table_of_err {s s' : Server} {p : Ptr} {arg : ℤ} {err : Err} {r : Reply}
    (hs : step cfg s (.happens (.tcpEvent p arg (.err err))) = .ok (s', r)) :
    s'.table = (s.table.setTcp p none).release cfg arg := by
  obtain ⟨⟨t, e⟩, ht, hs⟩ := bind_eq_ok.mp hs
  cases hs
  obtain ⟨t, e', ht', htab⟩ : ∃ t e, lwipTcpEvent cfg (tcpFree s p) arg none .err none err
      = .ok (t, e) ∧ t.table = (tcpFree s p).table.release cfg arg := table_err _ _ _
  obtain ⟨rfl, -⟩ : t = s' ∧ e' = e := by simpa using ht'.symm.trans ht
  rw [htab, table_tcpFree]

/-- What becomes of the table when a connection that is to be accepted gets no slot. -/
theorem table_of_refused {s s' : Server} (hcur : s.table.CursorOk cfg) {n : Ptr} {arg : ℤ}
    (hok : Allowed cfg s (.happens (.tcpEvent n arg .accept)))
    (hrefused : cfg.InRange arg → (s.table.slot arg).protocol = .tcp → s.table.freeSlot cfg = none)
    {r : Reply} (hs : step cfg s (.happens (.tcpEvent n arg .accept)) = .ok (s', r)) :
    s'.table = (s.table.setTcp n none).release cfg arg := by
  obtain ⟨t, e, t', -, hs', hcases⟩ := accept_step hcur hok
  obtain ⟨rfl, -⟩ : t' = s' ∧ Reply.err e = r := by simpa using hs'.symm.trans hs
  obtain ⟨k, harg, hproto, hfree, -⟩ | ⟨-, -, htab⟩ := hcases
  · rw [hrefused harg hproto] at hfree
    cases hfree
  · exact htab

/-- **A step keeps the accounts exactly if a callback releases its own slot.** -/
theorem accounted_iff {s s' : Server} (hT : TableOk cfg s.table) (h : Accounted cfg s.table)
    {a : Action} (hok : Allowed cfg s a) {r : Reply} (hs : step cfg s a = .ok (s', r)) :
    Accounted cfg s'.table ↔ ReleasesOwn cfg s.table a := by
  have hstep := step_table hT.cursor hok hs
  refine ⟨fun h' => ?_, fun hown => h.step hT hok hown hstep⟩
  unfold ReleasesOwn
  split
  · rw [table_of_err hs] at h'
    exact (h.err_iff _).mp h'
  · next n arg =>
    intro hrefused
    obtain ⟨l, hn⟩ := synRcvd_of_accept hok
    rw [table_of_refused hT.cursor hok hrefused hs] at h'
    rcases (h.err_iff n).mp h' with hheld | hnone
    · exact absurd (h.balanced.mem arg _ hheld) (Accounted.not_live hn rfl)
    · exact hnone.1
  · trivial

/-- **Every control block is in one slot.**  Take a history in which every callback that releases a
slot releases its own.  Then slots and control blocks correspond, there are no more control blocks
than slots, and the next step loses one, or leaves a slot without, exactly if it releases the slot
of another. -/
theorem blocks_accounted {tr : List (Action × Reply)} {s : Server}
    (hrun : RunsTo cfg (fun s => ReleasesOwn cfg s.table) tr s) :
    Accounted cfg s.table ∧ {x | s.table.Live x}.ncard ≤ cfg.maxOpenSockets ∧
      ∀ a s' r, Allowed cfg s a → step cfg s a = .ok (s', r) →
        (Accounted cfg s'.table ↔ ReleasesOwn cfg s.table a) := by
  obtain ⟨hT, h⟩ : TableOk cfg s.table ∧ Accounted cfg s.table :=
    hrun.table (I := fun T => TableOk cfg T ∧ Accounted cfg T) (fun _ h => h.1.cursor)
      ⟨tableOk_init, accounted_init⟩ fun _ _ _ _ h hok hown hstep =>
        ⟨h.1.step hstep, h.2.step h.1 hok hown hstep⟩
  refine ⟨h, ?_, fun a s' r hok hs => accounted_iff hT h hok hs⟩
  have hslots : {k : ℤ | cfg.InRange k} = Set.Ico (0 : ℤ) cfg.maxOpenSockets := by
    ext k
    rfl
  have hle := h.balanced.ncard_le (Set.finite_Ico (0 : ℤ) cfg.maxOpenSockets) fun k hk => by
    rw [← hslots]
    exact h.inRange k hk
  rwa [← Finset.coe_Ico, Set.ncard_coe_finset, Int.card_Ico, sub_zero, Int.toNat_natCast] at hle

/-- A listening socket, one connection that is accepted and one that fails, and a UDP socket in
the slot of the latter: two control blocks, in two slots. -/
theorem blocks_accounted_two : ∃ tr s,
    RunsTo .roomy (fun s => ReleasesOwn .roomy s.table) tr s ∧
      s.table.holds 0 = some (.tcp 11) ∧ s.table.holds 1 = some (.udp 14) ∧
      Accounted .roomy s.table := by
  have hrun : ∃ tr s, RunsTo .roomy (fun s => ReleasesOwn .roomy s.table) tr s ∧
      s.table.holds 0 = some (.tcp 11) ∧ s.table.holds 1 = some (.udp 14) := by
    refine Run.exists_of_replay
      [.call 0 (.socket .tcp (some 10)), .call 0 (.listen 0 80 {} ⟨.ok, some 11⟩),
        .happens (.syn 11 12), .happens (.tcpEvent 12 0 .accept),
        .happens (.tcpEvent 12 1 (.err .rst)), .call 1 (.socket .udp (some 14))] ?_
    decide
  obtain ⟨tr, s, hrun, h0, h1⟩ := hrun
  exact ⟨tr, s, hrun, h0, h1, (blocks_accounted hrun).1⟩

end Xtcp
