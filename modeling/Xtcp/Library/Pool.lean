import Mathlib

/-!
# Pools

The cells of a pool that are in use, `live`, are in the lists `ch i` of their holders, or have been
`left` to somebody else for good.  The pool is in order when each cell in use is in one list of one
holder, or among those that were left, and never in two of these places.

## Main definitions

* `Pool live ch left` — every cell in use is in one place.

## Main results

* `Pool.update` — one holder gives up cells, or gets new ones.
* `Pool.exchange` — two holders share their cells anew.
* `Pool.leave` — a new cell is left to somebody else.
-/

namespace Pools

variable {ι α : Type*} {live live' : Set α} {ch : ι → List α} {left : List α} {i j : ι} {p : α}

/-- Every cell in use is in the list of one holder, or has been left to somebody else, and not
both. -/
structure Pool (live : Set α) (ch : ι → List α) (left : List α) : Prop where
  /-- The cells in use are those with a holder and those that have been left. -/
  mem_iff : ∀ p, p ∈ live ↔ (∃ i, p ∈ ch i) ∨ p ∈ left
  /-- No cell has two holders. -/
  distinct : ∀ i j p, p ∈ ch i → p ∈ ch j → i = j
  /-- No cell with a holder has been left. -/
  apart : ∀ i, ∀ p ∈ ch i, p ∉ left
  /-- No cell has been left twice. -/
  nodup : left.Nodup

namespace Pool

theorem empty : Pool (∅ : Set α) (fun _ : ι => []) [] :=
  ⟨by simp, by simp, by simp, List.nodup_nil⟩

/-- A cell with a holder is in use. -/
theorem live_of_mem (h : Pool live ch left) (hp : p ∈ ch i) : p ∈ live :=
  (h.mem_iff p).mpr (.inl ⟨i, hp⟩)

theorem live_of_left (h : Pool live ch left) (hp : p ∈ left) : p ∈ live :=
  (h.mem_iff p).mpr (.inr hp)

variable [DecidableEq ι]

/-- **One holder's list changes**: it has cells of its own, or new ones, and what it gives up is no
longer in use. -/
theorem update (h : Pool live ch left) {l : List α} (hl : ∀ p ∈ l, p ∈ ch i ∨ p ∉ live)
    (hlive : ∀ p, p ∈ live' ↔ p ∈ l ∨ p ∈ live ∧ p ∉ ch i) :
    Pool live' (Function.update ch i l) left := by
  -- a cell of the new list is in no other place
  have hother : ∀ p ∈ l, ∀ k, k ≠ i → p ∉ ch k := by
    intro p hp k hk hpk
    rcases hl p hp with hpi | hnew
    · exact hk (h.distinct k i p hpk hpi)
    · exact hnew (h.live_of_mem hpk)
  have hmem : ∀ p k, p ∈ Function.update ch i l k ↔ k = i ∧ p ∈ l ∨ k ≠ i ∧ p ∈ ch k := by
    intro p k
    by_cases hk : k = i
    · subst hk; simp
    · simp [hk]
  refine ⟨fun p => ?_, fun k k' p hp hp' => ?_, fun k p hp => ?_, h.nodup⟩
  · rw [hlive]
    constructor
    · rintro (hp | ⟨hp, hpi⟩)
      · exact .inl ⟨i, (hmem p i).mpr (.inl ⟨rfl, hp⟩)⟩
      · rcases (h.mem_iff p).mp hp with ⟨k, hk⟩ | hp
        · exact .inl ⟨k, (hmem p k).mpr (.inr ⟨fun hki => hpi (hki ▸ hk), hk⟩)⟩
        · exact .inr hp
    · rintro (⟨k, hk⟩ | hp)
      · rcases (hmem p k).mp hk with ⟨-, hp⟩ | ⟨hki, hp⟩
        · exact .inl hp
        · exact .inr ⟨h.live_of_mem hp, fun hpi => hki (h.distinct k i p hp hpi)⟩
      · exact .inr ⟨h.live_of_left hp, fun hpi => h.apart i p hpi hp⟩
  · rcases (hmem p k).mp hp with ⟨hk, hq⟩ | ⟨hk, hq⟩
    · rcases (hmem p k').mp hp' with ⟨hk', -⟩ | ⟨hk', hq'⟩
      · exact hk.trans hk'.symm
      · exact absurd hq' (hother p hq k' hk')
    · rcases (hmem p k').mp hp' with ⟨-, hq'⟩ | ⟨-, hq'⟩
      · exact absurd hq (hother p hq' k hk)
      · exact h.distinct k k' p hq hq'
  · rcases (hmem p k).mp hp with ⟨-, hp⟩ | ⟨-, hp⟩
    · rcases hl p hp with hpi | hnew
      · exact h.apart i p hpi
      · exact fun hleft => hnew (h.live_of_left hleft)
    · exact h.apart k p hp

/-- **Two holders share their cells anew.** -/
theorem exchange (h : Pool live ch left) {l m : List α} (hij : i ≠ j)
    (hmem : ∀ p, p ∈ l ∨ p ∈ m ↔ p ∈ ch i ∨ p ∈ ch j) (hdisj : List.Disjoint l m) :
    Pool live (Function.update (Function.update ch i l) j m) left := by
  -- both lists together have the cells they had
  have hcells : ∀ p k, p ∈ Function.update (Function.update ch i l) j m k ↔
      k = i ∧ p ∈ l ∨ k = j ∧ p ∈ m ∨ k ≠ i ∧ k ≠ j ∧ p ∈ ch k := by
    intro p k
    by_cases hkj : k = j
    · subst hkj; simp [Ne.symm hij]
    · by_cases hki : k = i
      · subst hki; simp [hkj]
      · simp [hki, hkj]
  have hold : ∀ p, p ∈ l ∨ p ∈ m → ∀ k, k ≠ i → k ≠ j → p ∉ ch k := by
    intro p hp k hki hkj hpk
    rcases (hmem p).mp hp with hp | hp
    · exact hki (h.distinct k i p hpk hp)
    · exact hkj (h.distinct k j p hpk hp)
  refine ⟨fun p => ?_, fun k k' p hp hp' => ?_, fun k p hp => ?_, h.nodup⟩
  · rw [h.mem_iff]
    refine or_congr_left ⟨?_, ?_⟩
    · rintro ⟨k, hk⟩
      by_cases hkij : k = i ∨ k = j
      · have hp : p ∈ l ∨ p ∈ m := (hmem p).mpr (by rcases hkij with rfl | rfl <;> simp [hk])
        rcases hp with hp | hp
        · exact ⟨i, (hcells p i).mpr (.inl ⟨rfl, hp⟩)⟩
        · exact ⟨j, (hcells p j).mpr (.inr (.inl ⟨rfl, hp⟩))⟩
      · push Not at hkij
        exact ⟨k, (hcells p k).mpr (.inr (.inr ⟨hkij.1, hkij.2, hk⟩))⟩
    · rintro ⟨k, hk⟩
      rcases (hcells p k).mp hk with ⟨-, hp⟩ | ⟨-, hp⟩ | ⟨-, -, hp⟩
      · exact ((hmem p).mp (.inl hp)).elim (⟨i, ·⟩) (⟨j, ·⟩)
      · exact ((hmem p).mp (.inr hp)).elim (⟨i, ·⟩) (⟨j, ·⟩)
      · exact ⟨k, hp⟩
  · rcases (hcells p k).mp hp with ⟨hk, hq⟩ | ⟨hk, hq⟩ | ⟨hki, hkj, hq⟩ <;>
    rcases (hcells p k').mp hp' with ⟨hk', hq'⟩ | ⟨hk', hq'⟩ | ⟨hki', hkj', hq'⟩
    · exact hk.trans hk'.symm
    · exact absurd hq' (hdisj hq)
    · exact absurd hq' (hold p (.inl hq) k' hki' hkj')
    · exact absurd hq (hdisj hq')
    · exact hk.trans hk'.symm
    · exact absurd hq' (hold p (.inr hq) k' hki' hkj')
    · exact absurd hq (hold p (.inl hq') k hki hkj)
    · exact absurd hq (hold p (.inr hq') k hki hkj)
    · exact h.distinct k k' p hq hq'
  · have hone : p ∈ ch i ∨ p ∈ ch j ∨ p ∈ ch k := by
      rcases (hcells p k).mp hp with ⟨-, hp⟩ | ⟨-, hp⟩ | ⟨-, -, hp⟩
      · exact ((hmem p).mp (.inl hp)).imp_right .inl
      · exact ((hmem p).mp (.inr hp)).imp_right .inl
      · exact .inr (.inr hp)
    rcases hone with hp | hp | hp
    · exact h.apart i p hp
    · exact h.apart j p hp
    · exact h.apart k p hp

omit [DecidableEq ι] in
/-- A new cell is left to somebody else at once. -/
theorem leave (h : Pool live ch left) (hp : p ∉ live) : Pool (insert p live) ch (left ++ [p]) := by
  refine ⟨fun q => ?_, h.distinct, fun i q hq => ?_, ?_⟩
  · rw [Set.mem_insert_iff, h.mem_iff, List.mem_append, List.mem_singleton]
    tauto
  · rw [List.mem_append, List.mem_singleton, not_or]
    refine ⟨h.apart i q hq, ?_⟩
    rintro rfl
    exact hp (h.live_of_mem hq)
  · refine List.nodup_append.mpr ⟨h.nodup, List.nodup_singleton p, ?_⟩
    intro q hq r hr
    obtain rfl := List.mem_singleton.mp hr
    rintro rfl
    exact hp (h.live_of_left hq)

end Pool

end Pools
