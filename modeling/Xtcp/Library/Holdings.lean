import Mathlib

/-!
# Holdings

Resources are made by one party and kept by another: `holds i` is the resource that place `i` has
got, and `live` are the resources that exist.  The two sides are *balanced* when every place has
a resource that exists, and every resource that exists is in exactly one place.  Then nothing is
lost, nothing dangles, and there are no more resources than places.

A resource that comes goes to an empty place; one that goes leaves its place.  Taking away the
resource `r` and clearing the place `i` is right in two cases only: `r` was in `i`, or neither was
there.

## Main definitions

* `Balanced` — resources and places correspond.

## Main results

* `Balanced.put`, `Balanced.take`, `Balanced.exchange` — the operations that keep the balance.
* `Balanced.clear_iff` — **when taking away a resource and clearing a place keeps it**.
* `Balanced.ncard_le` — there are no more resources than places.
-/

namespace Holdings

variable {ι ρ : Type*} [DecidableEq ι] {holds : ι → Option ρ} {live : Set ρ} {i : ι} {r : ρ}

/-- Every place has a resource that exists, and every resource that exists is in exactly one
place. -/
structure Balanced (holds : ι → Option ρ) (live : Set ρ) : Prop where
  /-- What a place has exists. -/
  mem : ∀ i r, holds i = some r → r ∈ live
  /-- What exists is in a place. -/
  placed : ∀ r ∈ live, ∃ i, holds i = some r
  /-- Two places have two resources. -/
  distinct : ∀ i j r, holds i = some r → holds j = some r → i = j

namespace Balanced

omit [DecidableEq ι] in
theorem empty : Balanced (fun _ : ι => none) (∅ : Set ρ) :=
  ⟨fun _ _ h => (Option.some_ne_none _ h.symm).elim, fun _ h => absurd h (Set.notMem_empty _),
    fun _ _ _ h => (Option.some_ne_none _ h.symm).elim⟩

/-- A new resource comes to an empty place. -/
theorem put (h : Balanced holds live) (hi : holds i = none) (hr : r ∉ live) :
    Balanced (Function.update holds i (some r)) (insert r live) := by
  have hne : ∀ j, holds j ≠ some r := fun j hj => hr (h.mem j r hj)
  refine ⟨fun j q hj => ?_, fun q hq => ?_, fun j k q hj hk => ?_⟩
  · rw [Function.update_apply] at hj
    split at hj
    · exact .inl (Option.some.inj hj).symm
    · exact .inr (h.mem j q hj)
  · rcases hq with rfl | hq
    · exact ⟨i, Function.update_self _ _ _⟩
    · obtain ⟨j, hj⟩ := h.placed q hq
      have hji : j ≠ i := by
        rintro rfl
        rw [hi] at hj
        cases hj
      exact ⟨j, by rw [Function.update_of_ne hji, hj]⟩
  · rw [Function.update_apply] at hj hk
    split at hj <;> split at hk
    · next hji hki => rw [hji, hki]
    · obtain rfl := Option.some.inj hj
      exact absurd hk (hne k)
    · obtain rfl := Option.some.inj hk
      exact absurd hj (hne j)
    · exact h.distinct j k q hj hk

/-- A resource leaves its place. -/
theorem take (h : Balanced holds live) (hi : holds i = some r) :
    Balanced (Function.update holds i none) (live \ {r}) := by
  have hother : ∀ {j q}, Function.update holds i none j = some q → j ≠ i ∧ holds j = some q := by
    intro j q hj
    rw [Function.update_apply] at hj
    split at hj
    · cases hj
    · next hji => exact ⟨hji, hj⟩
  refine ⟨fun j q hj => ?_, fun q hq => ?_, fun j k q hj hk => ?_⟩
  · obtain ⟨hji, hj⟩ := hother hj
    refine ⟨h.mem j q hj, ?_⟩
    rintro rfl
    exact hji (h.distinct j i q hj hi)
  · obtain ⟨j, hj⟩ := h.placed q hq.1
    have hji : j ≠ i := by
      rintro rfl
      exact hq.2 (Option.some.inj (hj.symm.trans hi))
    exact ⟨j, by rw [Function.update_of_ne hji, hj]⟩
  · exact h.distinct j k q (hother hj).2 (hother hk).2

/-- A resource gives its place to a new one. -/
theorem exchange (h : Balanced holds live) (hi : holds i = some r) {q : ρ} (hq : q ∉ live) :
    Balanced (Function.update holds i (some q)) (insert q (live \ {r})) := by
  have htake := (h.take hi).put (i := i) (r := q) (Function.update_self _ _ _) fun hmem => hq hmem.1
  rwa [Function.update_idem] at htake

/-- **When taking away a resource and clearing a place keeps the balance**: the resource was in
that place, or neither was there. -/
theorem clear_iff (h : Balanced holds live) :
    Balanced (Function.update holds i none) (live \ {r}) ↔
      holds i = some r ∨ holds i = none ∧ r ∉ live := by
  constructor
  · intro hafter
    -- what was in the place has no place now
    have hcleared : ∀ q, holds i = some q → q = r := by
      intro q hi
      by_contra hqr
      obtain ⟨j, hj⟩ := hafter.placed q ⟨h.mem i q hi, hqr⟩
      rw [Function.update_apply] at hj
      split at hj
      · cases hj
      · next hji => exact hji (h.distinct j i q hj hi)
    cases hi : holds i with
    | some q => exact .inl (congrArg some (hcleared q hi))
    | none =>
      refine .inr ⟨rfl, fun hr => ?_⟩
      obtain ⟨j, hj⟩ := h.placed r hr
      have hji : j ≠ i := by
        rintro rfl
        rw [hi] at hj
        cases hj
      have hmem := hafter.mem j r (by rw [Function.update_of_ne hji, hj])
      exact hmem.2 rfl
  · rintro (hi | ⟨hi, hr⟩)
    · exact h.take hi
    · rw [Set.sdiff_singleton_eq_self hr, ← hi, Function.update_eq_self]
      exact h

/-- Clearing a place alone keeps the balance when there was nothing in it. -/
theorem release_iff (h : Balanced holds live) :
    Balanced (Function.update holds i none) live ↔ holds i = none := by
  constructor
  · intro hafter
    by_contra hne
    obtain ⟨q, hi⟩ := Option.ne_none_iff_exists'.mp hne
    obtain ⟨j, hj⟩ := hafter.placed q (h.mem i q hi)
    rw [Function.update_apply] at hj
    split at hj
    · cases hj
    · next hji => exact hji (h.distinct j i q hj hi)
  · intro hi
    rw [← hi, Function.update_eq_self]
    exact h

omit [DecidableEq ι] in
/-- There are no more resources than places. -/
theorem ncard_le (h : Balanced holds live) {places : Set ι} (hfin : places.Finite)
    (hplaces : ∀ i, holds i ≠ none → i ∈ places) : live.ncard ≤ places.ncard := by
  have hsub : Set.image some live ⊆ Set.image holds places := by
    rintro _ ⟨r, hr, rfl⟩
    obtain ⟨i, hi⟩ := h.placed r hr
    exact ⟨i, hplaces i (by rw [hi]; exact Option.some_ne_none r), hi⟩
  calc live.ncard = (Set.image some live).ncard :=
        (Set.ncard_image_of_injective live (Option.some_injective ρ)).symm
    _ ≤ (Set.image holds places).ncard := Set.ncard_le_ncard hsub (hfin.image holds)
    _ ≤ places.ncard := Set.ncard_image_le hfin

end Balanced

end Holdings
