import Mathlib

/-!
# Reading a cyclic buffer

An array of `n` cells is read cyclically from a head position: the `i`-th entry
is the cell at `(head + i) % n`.  With `count ≤ n` the positions are distinct,
so writing the cell behind the last entry appends, and advancing the head drops
the first entry.

The last part is about removing entries in place.  A read cursor passes over
all entries; those to keep are copied to a write cursor that starts at the head
and never overtakes it.

## Main definitions

* `read cells n head count` — the entries of the buffer, in order.
* `wrap n x` — the position behind `x`.
* `compactStep`, `compact` — removing entries in place.

## Main results

* `read_push`, `read_pop` — append at the end, drop the first entry.
* `compacted_compact` — compaction leaves the kept entries, in their order.
-/

namespace Cyclic

variable {α : Type*}

/-- The `count` entries of a cyclic buffer of `n` cells, from `head` on. -/
def read (cells : ℤ → α) (n head : ℤ) (count : ℕ) : List α :=
  (List.range count).map fun i : ℕ => cells ((head + i) % n)

@[simp] theorem read_zero (cells : ℤ → α) (n head : ℤ) : read cells n head 0 = [] := rfl

@[simp] theorem length_read (cells : ℤ → α) (n head : ℤ) (count : ℕ) :
    (read cells n head count).length = count := by
  simp [read]

theorem read_succ (cells : ℤ → α) (n head : ℤ) (count : ℕ) :
    read cells n head (count + 1) = read cells n head count ++ [cells ((head + count) % n)] := by
  simp [read, List.range_succ]

/-- Two buffers that agree on the entries read the same. -/
theorem read_congr {cells cells' : ℤ → α} {n head : ℤ} {count : ℕ}
    (h : ∀ i : ℕ, i < count → cells' ((head + i) % n) = cells ((head + i) % n)) :
    read cells' n head count = read cells n head count := by
  refine List.map_congr_left fun i hi => h i ?_
  simpa using hi

/-- Distinct offsets below `n` are distinct positions. -/
theorem position_inj {n head i j : ℤ} (hi : 0 ≤ i) (hin : i < n) (hj : 0 ≤ j) (hjn : j < n)
    (h : (head + i) % n = (head + j) % n) : i = j := by
  have hd : (i - j) % n = 0 := by
    rw [Int.emod_eq_emod_iff_emod_sub_eq_zero] at h
    simpa using h
  obtain ⟨q, hq⟩ := Int.dvd_of_emod_eq_zero hd
  have hq0 : q = 0 := by
    by_contra hne
    rcases lt_or_gt_of_ne hne with hlt | hgt
    · have : n * q ≤ n * (-1) := mul_le_mul_of_nonneg_left (by omega) (by omega)
      omega
    · have : n * 1 ≤ n * q := mul_le_mul_of_nonneg_left (by omega) (by omega)
      omega
  rw [hq0, mul_zero] at hq
  omega

/-- Every position is less than `n` steps away. -/
theorem exists_add_emod {n a j : ℤ} (hj : 0 ≤ j) (hjn : j < n) : ∃ e : ℕ, (e : ℤ) < n ∧
    (a + e) % n = j := by
  have hn : 0 < n := by omega
  have hnn := Int.emod_nonneg (j - a) (ne_of_gt hn)
  have he : (((j - a) % n).toNat : ℤ) = (j - a) % n := Int.toNat_of_nonneg hnn
  refine ⟨((j - a) % n).toNat, ?_, ?_⟩
  · rw [he]
    exact Int.emod_lt_of_pos _ hn
  · rw [he, Int.add_emod_emod, add_sub_cancel, Int.emod_eq_of_lt hj hjn]

/-- The position behind `x`. -/
def wrap (n x : ℤ) : ℤ := if x + 1 ≥ n then 0 else x + 1

/-- Advancing a position is advancing its offset. -/
theorem wrap_emod {n x : ℤ} (hn : 0 < n) : wrap n (x % n) = (x + 1) % n := by
  have hlt := Int.emod_lt_of_pos x hn
  have hnn := Int.emod_nonneg x (ne_of_gt hn)
  have hadd : (x + 1) % n = (x % n + 1) % n := by rw [Int.emod_add_emod]
  unfold wrap
  split
  · next h =>
    have hx : x % n + 1 = n := by omega
    rw [hadd, hx, Int.emod_self]
  · next h => rw [hadd, Int.emod_eq_of_lt (a := x % n + 1) (by omega) (by omega)]

/-- Writing the cell behind the last entry appends. -/
theorem read_push (cells : ℤ → α) {n head : ℤ} {count : ℕ} (h : (count : ℤ) < n) (x : α) :
    read (Function.update cells ((head + count) % n) x) n head (count + 1)
      = read cells n head count ++ [x] := by
  rw [read_succ, Function.update_self]
  congr 1
  refine read_congr fun i hi => Function.update_of_ne ?_ _ _
  intro heq
  have := position_inj (by omega) (by omega) (by omega) h heq
  omega

/-- Advancing the head drops the first entry. -/
theorem read_pop (cells : ℤ → α) (n head : ℤ) (count : ℕ) :
    read cells n head (count + 1) = cells (head % n) :: read cells n ((head + 1) % n) count := by
  simp only [read, List.range_succ_eq_map, List.map_cons, List.map_map, Nat.cast_zero, add_zero]
  congr 1
  refine List.map_congr_left fun i _ => ?_
  simp only [Function.comp_apply, Nat.succ_eq_add_one, Nat.cast_add, Nat.cast_one,
    Int.emod_add_emod]
  congr 2
  ring

/-! ### Removing entries in place -/

/-- The cells and the two cursors of a compaction. -/
structure Cursors (α : Type*) where
  /-- The cells of the buffer. -/
  cells : ℤ → α
  /-- Where the next kept entry goes. -/
  write : ℤ
  /-- The entry looked at next. -/
  read : ℤ

/-- Look at one entry: keep it at the write cursor, or pass over it. -/
def compactStep (n : ℤ) (keep : α → Bool) (st : Cursors α) : Cursors α :=
  if keep (st.cells st.read) then
    { cells := if st.write ≠ st.read then Function.update st.cells st.write (st.cells st.read)
        else st.cells
      write := wrap n st.write
      read := wrap n st.read }
  else { st with read := wrap n st.read }

/-- Look at `j` entries. -/
def compact (n : ℤ) (keep : α → Bool) (j : ℕ) (st : Cursors α) : Cursors α :=
  (compactStep n keep)^[j] st

/-- Where a compaction from `head` stands after `j` entries of the buffer
`cells`: the kept ones are read from `head` up to the write cursor, and the
entries still to be looked at are untouched. -/
structure Compacted (cells : ℤ → α) (n head : ℤ) (keep : α → Bool) (count j : ℕ)
    (st : Cursors α) : Prop where
  /-- The read cursor has passed `j` entries. -/
  read : st.read = (head + j) % n
  /-- The write cursor has passed as many as were kept. -/
  write : st.write = (head + ((Cyclic.read cells n head j).filter keep).length) % n
  /-- The kept entries stand from `head` on. -/
  kept : Cyclic.read st.cells n head ((Cyclic.read cells n head j).filter keep).length
    = (Cyclic.read cells n head j).filter keep
  /-- The entries not looked at yet are untouched. -/
  rest : ∀ i : ℕ, j ≤ i → i < count → st.cells ((head + i) % n) = cells ((head + i) % n)

/-- One more entry looked at. -/
theorem Compacted.step {cells : ℤ → α} {n head : ℤ} {keep : α → Bool} {count j : ℕ}
    {st : Cursors α} (h : Compacted cells n head keep count j st) (hn : 0 < n)
    (hcount : (count : ℤ) ≤ n) (hj : j < count) :
    Compacted cells n head keep count (j + 1) (compactStep n keep st) := by
  obtain ⟨hread, hwrite, hkept, hrest⟩ := h
  have hcell : st.cells st.read = cells ((head + j) % n) := by
    rw [hread]; exact hrest j le_rfl hj
  have hle : ((Cyclic.read cells n head j).filter keep).length ≤ j := by
    have := List.length_filter_le keep (Cyclic.read cells n head j)
    rwa [length_read] at this
  set w := ((Cyclic.read cells n head j).filter keep).length with hw
  have hnext : wrap n st.read = (head + ((j + 1 : ℕ) : ℤ)) % n := by
    rw [hread, wrap_emod hn]; congr 1; push_cast; ring
  rw [compactStep, hcell]
  split
  · next hk =>
    -- the entry is kept: it becomes entry number `w`
    have hfilter : (Cyclic.read cells n head (j + 1)).filter keep
        = (Cyclic.read cells n head j).filter keep ++ [cells ((head + j) % n)] := by
      rw [read_succ, List.filter_append, List.filter_singleton, hk]; rfl
    have hlen : ((Cyclic.read cells n head (j + 1)).filter keep).length = w + 1 := by
      rw [hfilter, List.length_append, ← hw]; rfl
    have hcells : (if st.write ≠ st.read then
          Function.update st.cells st.write (cells ((head + j) % n)) else st.cells)
        = Function.update st.cells ((head + w) % n) (cells ((head + j) % n)) := by
      split
      · rw [hwrite]
      · next heq =>
        rw [not_not] at heq
        rw [← hwrite, heq, ← hcell, Function.update_eq_self]
    refine ⟨hnext, ?_, ?_, ?_⟩
    · rw [hlen]
      show wrap n st.write = _
      rw [hwrite, wrap_emod hn]
      congr 1; push_cast; ring
    · rw [hlen]
      show Cyclic.read (if _ then _ else _) n head (w + 1) = _
      rw [hcells, read_push st.cells (by omega), hkept, hfilter]
    · intro i hi hic
      show (if st.write ≠ st.read then _ else _ : ℤ → α) _ = _
      rw [hcells, Function.update_of_ne, hrest i (by omega) hic]
      intro heq
      have := position_inj (by omega) (by omega) (by omega) (by omega) heq
      omega
  · next hk =>
    -- the entry is dropped: only the read cursor moves
    have hfilter : (Cyclic.read cells n head (j + 1)).filter keep
        = (Cyclic.read cells n head j).filter keep := by
      rw [read_succ, List.filter_append, List.filter_singleton]
      simp [hk]
    refine ⟨hnext, ?_, ?_, ?_⟩
    · rw [hfilter]; exact hwrite
    · rw [hfilter]; exact hkept
    · intro i hi hic
      exact hrest i (by omega) hic

/-- **Compaction leaves the kept entries**, in their order: the state after `j` of `count`
entries. -/
theorem compacted_compact (cells : ℤ → α) {n head : ℤ} (keep : α → Bool) {count : ℕ}
    (hhead : 0 ≤ head) (hheadn : head < n) (hcount : (count : ℤ) ≤ n) :
    ∀ j, j ≤ count →
      Compacted cells n head keep count j (compact n keep j ⟨cells, head, head⟩) := by
  have hmod : head % n = head := Int.emod_eq_of_lt hhead hheadn
  intro j
  induction j with
  | zero =>
    intro _
    exact ⟨by simp [compact, hmod], by simp [compact, hmod], by simp, fun _ _ _ => rfl⟩
  | succ j ih =>
    intro hj
    rw [compact, Function.iterate_succ_apply']
    exact (ih (by omega)).step (by omega) hcount (by omega)

end Cyclic
