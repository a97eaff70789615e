import Mathlib

/-!
# Singly linked chains in a store

Cells live in a store and each holds the address of the next one.  Only the
links matter here, so a store is a function `nxt`: `nxt p` is `none` when there
is no cell at `p`, `some none` when the cell at `p` is the last of its chain,
and `some (some q)` when it is followed by `q`.

`IsChain nxt x l` says that following the links from `x` visits exactly the
cells of `l` and then stops.  A link can only be followed one way, so the list is
determined by its start, and from that alone it follows that a chain visits no
cell twice.

Several chains in one store are a family `ch i` with heads `head i`; what an
operation on one of them has to leave alone is every cell of the others.

## Main definitions

* `IsChain nxt x l` — the chain from `x` is `l`.
* `Chains nxt head ch` — a family of pairwise disjoint chains.

## Main results

* `IsChain.eq`, `IsChain.nodup` — a chain is determined by its start, and visits
  no cell twice.
* `IsChain.congr` — a chain only depends on its own cells.
* `IsChain.relink` — one link joins two chains, or takes a cell out.
* `Chains.replace` — changing one chain of a family.
-/

namespace LinkedChain

variable {α ι : Type*} {nxt nxt' : α → Option (Option α)}

/-- Following the links from `x` visits the cells of `l` and then stops. -/
inductive IsChain (nxt : α → Option (Option α)) : Option α → List α → Prop
  /-- The null address starts the empty chain. -/
  | nil : IsChain nxt none []
  /-- A cell in front of a chain. -/
  | cons {p : α} {x : Option α} {l : List α} :
      nxt p = some x → IsChain nxt x l → IsChain nxt (some p) (p :: l)

namespace IsChain

variable {x y : Option α} {l m : List α} {p q : α}

@[simp] theorem none_iff : IsChain nxt none l ↔ l = [] := by
  constructor
  · intro h; cases h; rfl
  · rintro rfl; exact .nil

@[simp] theorem nil_iff : IsChain nxt x [] ↔ x = none := by
  constructor
  · intro h; cases h; rfl
  · rintro rfl; exact .nil

theorem cons_iff : IsChain nxt x (p :: l) ↔ x = some p ∧ ∃ y, nxt p = some y ∧ IsChain nxt y l := by
  constructor
  · intro h
    cases h with
    | cons hp hl => exact ⟨rfl, _, hp, hl⟩
  · rintro ⟨rfl, y, hp, hl⟩
    exact .cons hp hl

/-- A chain is determined by its start. -/
theorem eq (h : IsChain nxt x l) (h' : IsChain nxt x m) : l = m := by
  induction h generalizing m with
  | nil => exact (none_iff.mp h').symm
  | cons hp _ ih =>
    cases h' with
    | cons hp' hl' =>
      obtain rfl : _ = _ := Option.some.inj (hp.symm.trans hp')
      rw [ih hl']

/-- A link of a cell of a chain leads to a cell of the chain. -/
theorem next_mem (h : IsChain nxt x l) (hp : p ∈ l) (hq : nxt p = some (some q)) : q ∈ l := by
  induction h with
  | nil => simp at hp
  | cons hr hl ih =>
    rcases List.mem_cons.mp hp with rfl | hp
    · obtain rfl := Option.some.inj (hr.symm.trans hq)
      cases hl with
      | cons => exact List.mem_cons_of_mem _ List.mem_cons_self
    · exact List.mem_cons_of_mem _ (ih hp)

/-- The part of a chain from one of its cells on is the chain from there. -/
theorem drop (h : IsChain nxt x (l ++ p :: m)) : IsChain nxt (some p) (p :: m) := by
  induction l generalizing x with
  | nil =>
    obtain ⟨rfl, -⟩ := cons_iff.mp h
    exact h
  | cons q l ih =>
    obtain ⟨-, y, -, hl⟩ := cons_iff.mp h
    exact ih hl

/-- The part of a chain behind one of its cells is the chain from the link of that cell on. -/
theorem behind (h : IsChain nxt x (l ++ p :: m)) (hp : nxt p = some y) : IsChain nxt y m := by
  obtain ⟨-, z, hz, hm⟩ := cons_iff.mp h.drop
  obtain rfl : z = y := Option.some.inj (hz.symm.trans hp)
  exact hm

/-- A chain visits no cell twice. -/
theorem nodup (h : IsChain nxt x l) : l.Nodup := by
  induction h with
  | nil => exact List.nodup_nil
  | @cons p x l hp hl ih =>
    refine List.nodup_cons.mpr ⟨fun hmem => ?_, ih⟩
    -- a second visit to `p` would start a shorter copy of the same chain
    obtain ⟨l₁, l₂, rfl⟩ := List.append_of_mem hmem
    have heq := (IsChain.cons hp hl).eq hl.drop
    have := congrArg List.length heq
    simp only [List.length_cons, List.length_append] at this
    omega

/-- A chain only depends on the links of its own cells. -/
theorem congr (h : IsChain nxt x l) (hagree : ∀ p ∈ l, nxt' p = nxt p) : IsChain nxt' x l := by
  induction h with
  | nil => exact .nil
  | cons hp _ ih =>
    refine .cons ?_ (ih fun q hq => hagree q (List.mem_cons_of_mem _ hq))
    rw [hagree _ List.mem_cons_self]
    exact hp

/-- The first cell of a nonempty chain. -/
theorem head_eq (h : IsChain nxt x (p :: l)) : x = some p := (cons_iff.mp h).1

/-- A chain that starts at a cell is nonempty. -/
theorem exists_cons (h : IsChain nxt (some p) l) : ∃ m, l = p :: m := by
  cases h with
  | cons _ _ => exact ⟨_, rfl⟩

/-- A chain that has lost one of its cells is no chain any more. -/
theorem not_of_lost {l' : List α} (h : IsChain nxt x (l ++ p :: m))
    (hagree : ∀ q ∈ l, nxt' q = nxt q) (hp : nxt' p = none) : ¬ IsChain nxt' x l' := by
  induction l generalizing x l' with
  | nil =>
    intro h'
    rw [head_eq h] at h'
    obtain ⟨m', rfl⟩ := exists_cons h'
    obtain ⟨-, y, hy, -⟩ := cons_iff.mp h'
    rw [hp] at hy
    cases hy
  | cons q l ih =>
    intro h'
    obtain ⟨rfl, y, hy, hl⟩ := cons_iff.mp h
    obtain ⟨m', rfl⟩ := exists_cons h'
    obtain ⟨-, z, hz, hl'⟩ := cons_iff.mp h'
    rw [hagree q List.mem_cons_self, hy] at hz
    obtain rfl := Option.some.inj hz
    exact ih hl (fun r hr => hagree r (List.mem_cons_of_mem q hr)) hl'

variable [DecidableEq α]

/-- Writing a cell outside the chain leaves it alone. -/
theorem update (h : IsChain nxt x l) (hp : p ∉ l) (v : Option (Option α)) :
    IsChain (Function.update nxt p v) x l :=
  h.congr fun _ hq => Function.update_of_ne (ne_of_mem_of_not_mem hq hp) _ _

/-- **Changing a link**: behind one of its cells, a chain goes on with another chain. -/
theorem relink {r : List α} (h : IsChain nxt x (l ++ q :: r)) (h' : IsChain nxt y m)
    (hd : List.Disjoint (l ++ [q]) m) :
    IsChain (Function.update nxt q (some y)) x (l ++ q :: m) := by
  have hq : q ∉ m := hd (by simp)
  induction l generalizing x with
  | nil =>
    obtain ⟨rfl, -⟩ := cons_iff.mp h
    exact .cons (Function.update_self ..) (h'.update hq _)
  | cons p l ih =>
    have hpq : p ≠ q := by
      rintro rfl
      simpa using h.nodup
    obtain ⟨rfl, z, hp, hl⟩ := cons_iff.mp h
    refine .cons ?_ (ih hl fun a ha => hd (List.mem_cons_of_mem _ ha))
    rw [Function.update_of_ne hpq]
    exact hp

end IsChain

/-! ### Families of disjoint chains -/

/-- The chains with heads `head i` are the lists `ch i`, and no two of them share
a cell. -/
structure Chains (nxt : α → Option (Option α)) (head : ι → Option α) (ch : ι → List α) :
    Prop where
  /-- Each member is the chain from its head. -/
  isChain : ∀ i, IsChain nxt (head i) (ch i)
  /-- Two members share no cell. -/
  disjoint : ∀ i j, i ≠ j → List.Disjoint (ch i) (ch j)

namespace Chains

variable {head head' : ι → Option α} {ch : ι → List α}

/-- A family only depends on the links of its own cells. -/
theorem congr (h : Chains nxt head ch) (hhead : ∀ i, head' i = head i)
    (hagree : ∀ i, ∀ p ∈ ch i, nxt' p = nxt p) : Chains nxt' head' ch :=
  ⟨fun i => by rw [hhead]; exact (h.isChain i).congr (hagree i), h.disjoint⟩

/-- **Changing one member of a family**: the other cells keep their links, and
the new chain keeps clear of them. -/
theorem replace [DecidableEq ι] (h : Chains nxt head ch) (i : ι) {l : List α}
    (hhead : ∀ j, j ≠ i → head' j = head j) (hchain : IsChain nxt' (head' i) l)
    (hagree : ∀ j, j ≠ i → ∀ p ∈ ch j, nxt' p = nxt p)
    (hdisj : ∀ j, j ≠ i → List.Disjoint l (ch j)) :
    Chains nxt' head' (Function.update ch i l) := by
  constructor
  · intro j
    by_cases hj : j = i
    · subst hj; rw [Function.update_self]; exact hchain
    · rw [Function.update_of_ne hj, hhead j hj]
      exact (h.isChain j).congr (hagree j hj)
  · intro j k hjk
    by_cases hj : j = i
    · subst hj
      rw [Function.update_self, Function.update_of_ne (Ne.symm hjk)]
      exact hdisj k (Ne.symm hjk)
    · rw [Function.update_of_ne hj]
      by_cases hk : k = i
      · subst hk; rw [Function.update_self]; exact (hdisj j hj).symm
      · rw [Function.update_of_ne hk]; exact h.disjoint j k hjk

end Chains

end LinkedChain
