import Xtcp.Slots

/-!
# The rotation of the slots

`assign_client_connection` starts its scan behind the slot that it has assigned last.  The cursor
is the number of that slot plus one, so it may be one past the end of the table, and the scan
wraps by one subtraction.  Measured in steps around the table, a call that assigns a slot moves
the cursor forward by one step for each slot that it finds active and one more for the slot that
it assigns.  From one assignment of a slot to the next the cursor goes around at least once, and
so comes by every other slot.

## Main definitions

* `TableOp`, `tableOp` — calls that assign and free slots.
* `FindsActive` — the scan comes to a slot and goes on, because the slot is active.
* `PassedBy` — a slot has been assigned, or found active by a call that assigns another.

## Main results

* `assign_scan` — what a call that assigns a slot has passed by.
* `id_reused_last` — **a slot is not assigned again before the scans have come by all others**.
-/

namespace Xtcp

open Runs

variable {cfg : Config} {s s' t u : Server}

/-! ### Calls -/

/-- A call that assigns a slot, or one that frees a slot. -/
inductive TableOp
  /-- `assign_client_connection(client_num, protocol)` -/
  | assign (clientNum : ℕ) (protocol : Protocol)
  /-- `free_client_connection(index)` -/
  | free (index : ℤ)
  deriving DecidableEq

/-- Carry out a call; `free_client_connection` returns nothing. -/
def tableOp (cfg : Config) (s : Server) : TableOp → Except Fault (Server × Option ErrorInt32)
  | .assign clientNum protocol =>
    .ok ((assignClientConnection cfg s clientNum protocol).1,
      some (assignClientConnection cfg s clientNum protocol).2)
  | .free index => .ok (freeClientConnection cfg s index, none)

/-- A sequence of such calls. -/
abbrev TableRun (cfg : Config) (s : Server) (tr : List (TableOp × Option ErrorInt32))
    (t : Server) : Prop :=
  Run (tableOp cfg) (fun _ _ => True) s tr t

/-- The scan of `assign_client_connection` comes to slot `j`, because the slots before it are
active, and goes on, because `j` is active too. -/
def FindsActive (cfg : Config) (s : Server) (j : ℤ) : Prop :=
  ∃ i < cfg.maxOpenSockets, assignIndex cfg s i = j ∧
    ∀ i' ≤ i, (s.connections (assignIndex cfg s i')).isActive = true

/-- A call of the sequence `tr` from `s` has assigned slot `j`, or has found it active and
assigned another one. -/
def PassedBy (cfg : Config) (s : Server) (tr : List (TableOp × Option ErrorInt32)) (j : ℤ) :
    Prop :=
  ∃ tr₁ op k tr₂ w, tr = tr₁ ++ (op, some ⟨.success, k⟩) :: tr₂ ∧ TableRun cfg s tr₁ w ∧
    (k = j ∨ FindsActive cfg w j)

/-! ### One call -/

/-- The index of a round is the cursor plus the round, around the table. -/
theorem assignIndex_eq (hcur : s.table.CursorOk cfg) {i : ℕ} (hi : i < cfg.maxOpenSockets) :
    assignIndex cfg s i = (s.lastGuid + i) % cfg.maxOpenSockets := by
  obtain ⟨h0, h1⟩ := hcur
  have h0 : 0 ≤ s.lastGuid := h0
  have h1 : s.lastGuid ≤ cfg.maxOpenSockets := h1
  unfold assignIndex
  dsimp only
  split
  · next hge =>
    rw [← Int.sub_emod_right, Int.emod_eq_of_lt (by omega) (by omega)]
  · rw [Int.emod_eq_of_lt (by omega) (by omega)]

/-- **What a call has passed by that assigns a slot**: the slots from the cursor on are active up
to the one it assigns, and the cursor is behind that one. -/
theorem assign_scan (hcur : s.table.CursorOk cfg) {c : ℕ} {protocol : Protocol} {k : ℤ}
    (h : (assignClientConnection cfg s c protocol).2 = ⟨.success, k⟩) :
    ∃ i < cfg.maxOpenSockets, k = (s.lastGuid + i) % cfg.maxOpenSockets ∧
      (assignClientConnection cfg s c protocol).1.lastGuid = k + 1 ∧
      ∀ i' < i, FindsActive cfg s ((s.lastGuid + i') % cfg.maxOpenSockets) := by
  unfold assignClientConnection at h ⊢
  split at h
  · next index hindex =>
    cases h
    simp only [freeSlot, Option.map_eq_some_iff, List.find?_range_eq_some, List.mem_range] at hindex
    obtain ⟨i, ⟨-, hi, hbefore⟩, hidx⟩ := hindex
    refine ⟨i, hi, ?_, rfl, fun i' hi' => ?_⟩
    · rw [← assignIndex_eq hcur hi, hidx]
    · refine ⟨i', by omega, assignIndex_eq hcur (by omega), fun i'' hi'' => ?_⟩
      simpa using hbefore i'' (by omega)
  · cases h

theorem cursorOk_tableOp {op : TableOp} {r : Option ErrorInt32} (hcur : s.table.CursorOk cfg)
    (h : tableOp cfg s op = .ok (s', r)) : s'.table.CursorOk cfg := by
  cases op with
  | assign c protocol =>
    cases h
    cases hfree : s.table.freeSlot cfg with
    | none => rwa [assign_of_none hfree]
    | some k =>
      obtain ⟨h0, h1⟩ := (Table.freeSlot_some hcur hfree).1
      rw [(assign_of_some hfree c protocol).2]
      show 0 ≤ k + 1 ∧ k + 1 ≤ (cfg.maxOpenSockets : ℤ)
      omega
  | free index =>
    cases h
    rw [table_freeClientConnection]
    unfold Table.CursorOk
    rwa [Table.release_cursor]

theorem TableRun.cursorOk {tr : List (TableOp × Option ErrorInt32)} (hrun : TableRun cfg s tr t)
    (hcur : s.table.CursorOk cfg) : t.table.CursorOk cfg :=
  Run.invariant (I := fun s => s.table.CursorOk cfg) hrun hcur
    fun _ _ _ _ h _ hs => cursorOk_tableOp h hs

/-! ### Sequences of calls -/

theorem PassedBy.append {tr tr' : List (TableOp × Option ErrorInt32)} {j : ℤ}
    (h : PassedBy cfg s tr j) : PassedBy cfg s (tr ++ tr') j := by
  obtain ⟨tr₁, op, k, tr₂, w, rfl, hrun, hj⟩ := h
  exact ⟨tr₁, op, k, tr₂ ++ tr', w, by simp, hrun, hj⟩

/-- What the last call of a sequence passes by. -/
theorem passedBy_concat {tr : List (TableOp × Option ErrorInt32)} {op : TableOp} {k j : ℤ}
    (hrun : TableRun cfg s tr t) (h : k = j ∨ FindsActive cfg t j) :
    PassedBy cfg s (tr ++ [(op, some ⟨.success, k⟩)]) j :=
  ⟨tr, op, k, [], t, rfl, hrun, h⟩

/-- The cursor is `d` steps further around the table than `a`, and the slots on the way have been
passed by. -/
def Advanced (cfg : Config) (s : Server) (a : ℤ) (tr : List (TableOp × Option ErrorInt32))
    (t : Server) (d : ℕ) : Prop :=
  t.lastGuid % cfg.maxOpenSockets = (a + d) % cfg.maxOpenSockets ∧
    ∀ e < d, PassedBy cfg s tr ((a + (e : ℕ)) % cfg.maxOpenSockets)

/-- One more call that assigns a slot. -/
theorem Advanced.assign {a : ℤ} {tr : List (TableOp × Option ErrorInt32)} {d : ℕ}
    (h : Advanced cfg s a tr t d) (hrun : TableRun cfg s tr t) (hcur : t.table.CursorOk cfg)
    {c : ℕ} {protocol : Protocol} {k : ℤ}
    (hassign : (assignClientConnection cfg t c protocol).2 = ⟨.success, k⟩) :
    ∃ d', d < d' ∧ k = (a + d' - 1) % cfg.maxOpenSockets ∧
      Advanced cfg s a (tr ++ [(.assign c protocol, some ⟨.success, k⟩)])
        (assignClientConnection cfg t c protocol).1 d' := by
  obtain ⟨hd, hpassed⟩ := h
  obtain ⟨i, hi, hk, hcursor, hactive⟩ := assign_scan hcur hassign
  -- a round of the scan, counted from `a`
  have hround : ∀ x : ℕ, (t.lastGuid + x) % (cfg.maxOpenSockets : ℤ)
      = (a + ((d + x : ℕ) : ℤ)) % cfg.maxOpenSockets := by
    intro x
    rw [Int.add_emod, hd, ← Int.add_emod]
    congr 1
    push_cast
    ring
  refine ⟨d + i + 1, by omega, ?_, ?_, ?_⟩
  · rw [hk, hround]
    congr 1
    push_cast
    ring
  · rw [hcursor, hk, Int.emod_add_emod, add_assoc]
    have hnext := hround (i + 1)
    push_cast at hnext ⊢
    rw [hnext]
    ring_nf
  · intro e he
    rcases Nat.lt_or_ge e d with hlt | hge
    · exact (hpassed e hlt).append
    · obtain ⟨x, rfl⟩ := Nat.exists_eq_add_of_le hge
      rw [← hround x]
      refine passedBy_concat hrun ?_
      rcases Nat.lt_or_ge x i with hlt | hge
      · exact .inr (hactive x hlt)
      · obtain rfl : x = i := by omega
        exact .inl hk

/-- **A sequence of calls moves the cursor forward.** -/
theorem advanced_of_run {tr : List (TableOp × Option ErrorInt32)} (hcur : s.table.CursorOk cfg)
    (hrun : TableRun cfg s tr t) : ∃ d, Advanced cfg s s.lastGuid tr t d := by
  induction hrun with
  | nil => exact ⟨0, by simp, fun e he => absurd he (by omega)⟩
  | @snoc tr u v op r hrun hok hs ih =>
    obtain ⟨d, hd⟩ := ih
    have hfree : v.lastGuid = u.lastGuid → Advanced cfg s s.lastGuid (tr ++ [(op, r)]) v d := by
      intro heq
      exact ⟨by rw [heq, hd.1], fun e he => (hd.2 e he).append⟩
    cases op with
    | assign c protocol =>
      cases hslot : u.table.freeSlot cfg with
      | none =>
        cases hs
        exact ⟨d, hfree (by rw [assign_of_none hslot])⟩
      | some k =>
        have hassign := (assign_of_some hslot c protocol).1
        obtain ⟨d', -, -, hadv⟩ := hd.assign hrun (TableRun.cursorOk hrun hcur) hassign
        cases hs
        rw [hassign]
        exact ⟨d', hadv⟩
    | free index =>
      cases hs
      refine ⟨d, hfree ?_⟩
      exact congrArg Table.cursor (table_freeClientConnection u index) |>.trans
        (Table.release_cursor index)

/-- **A slot is not assigned again before the scans have come by all others**: between two calls
that return the same id, up to and with the second one, every other slot has been assigned, or
has been found active by a call that assigned one.  So an id is not used again while another slot
stays free. -/
theorem id_reused_last {tr₀ : List (TableOp × Option ErrorInt32)}
    (hrun₀ : TableRun cfg (init cfg) tr₀ s) {c : ℕ} {protocol : Protocol} {k : ℤ}
    (hfirst : tableOp cfg s (.assign c protocol) = .ok (t, some ⟨.success, k⟩))
    {tr : List (TableOp × Option ErrorInt32)} (hrun : TableRun cfg t tr u) {c' : ℕ}
    {protocol' : Protocol}
    (hsecond : tableOp cfg u (.assign c' protocol') = .ok (s', some ⟨.success, k⟩)) {j : ℤ}
    (hj : cfg.InRange j) :
    PassedBy cfg t (tr ++ [(.assign c' protocol', some ⟨.success, k⟩)]) j := by
  have hcur₀ : s.table.CursorOk cfg := hrun₀.cursorOk tableOk_init.cursor
  have hcur : t.table.CursorOk cfg := cursorOk_tableOp hcur₀ hfirst
  have hstart : t.lastGuid = k + 1 := by
    obtain ⟨ht, hk⟩ := Prod.mk.inj (Except.ok.inj hfirst)
    obtain ⟨i, -, -, hcursor, -⟩ := assign_scan hcur₀ (Option.some.inj hk)
    rw [← ht]
    exact hcursor
  obtain ⟨d, hadv⟩ := advanced_of_run hcur hrun
  obtain ⟨-, hk⟩ := Prod.mk.inj (Except.ok.inj hsecond)
  obtain ⟨d', hlt, hkd, hadv⟩ := hadv.assign hrun (hrun.cursorOk hcur) (Option.some.inj hk)
  rw [hstart] at hkd hadv
  -- back at `k`, the cursor has gone around
  have hround : (cfg.maxOpenSockets : ℤ) ∣ d' := by
    have hmod : (k + 1 + d' - 1) % cfg.maxOpenSockets = k % cfg.maxOpenSockets := by
      have hk' := congrArg (· % (cfg.maxOpenSockets : ℤ)) hkd
      simp only [Int.emod_emod] at hk'
      exact hk'.symm
    have hsub := Int.emod_eq_emod_iff_emod_sub_eq_zero.mp hmod
    have hd' : k + 1 + (d' : ℤ) - 1 - k = d' := by ring
    rw [hd'] at hsub
    exact Int.dvd_of_emod_eq_zero hsub
  have hle : (cfg.maxOpenSockets : ℤ) ≤ d' := Int.le_of_dvd (by omega) hround
  obtain ⟨e, he, hej⟩ := Cyclic.exists_add_emod (a := k + 1) hj.1 hj.2
  rw [← hej]
  exact hadv.2 e (by omega)

/-- Slot 0 is assigned and freed, and while slot 1 is active it is assigned again. -/
theorem id_reused_last_active : ∃ s t u s' tr, TableRun .small (init .small) [] s ∧
    tableOp .small s (.assign 0 .tcp) = .ok (t, some ⟨.success, 0⟩) ∧ TableRun .small t tr u ∧
    tableOp .small u (.assign 1 .udp) = .ok (s', some ⟨.success, 0⟩) ∧
    PassedBy .small t (tr ++ [(.assign 1 .udp, some ⟨.success, 0⟩)]) 1 := by
  have hrun : TableRun .small (init .small) [] (init .small) := .nil
  have hmid : TableRun .small (assignClientConnection .small (init .small) 0 .tcp).1
      [(.assign 1 .udp, some ⟨.success, 1⟩), (.free 0, none)] _ :=
    .cons trivial rfl (.cons trivial rfl .nil)
  exact ⟨_, _, _, _, _, hrun, rfl, hmid, rfl, id_reused_last hrun rfl hmid rfl (by decide)⟩

end Xtcp
