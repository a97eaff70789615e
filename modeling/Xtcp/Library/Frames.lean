import Mathlib

/-!
# Local computations

A state holds a value at each of its locations: `get s l` is what `s` holds at `l`.  A computation
is *local* to a set of locations when it reads and writes nothing else.  Two states that agree on
these locations then take it to states that agree on them too, with the same result, and leave
everything else as it was; so it is enough to look at two runs side by side.

Two computations that are local to disjoint sets commute.

## Main definitions

* `AgreeOn get F s t` — `s` and `t` hold the same at the locations of `F`.
* `Moves get F s t s' t'` — two states are changed side by side.
* `Parallel get F s t x y` — what two runs from `s` and `t` come to, side by side.
* `Local get F f s` — the computation `f` is local to `F` in the state `s`.
* `inTurn` — two computations, one after the other.

## Main results

* `Parallel.bind` — runs side by side compose.
* `Local.unchanged` — **a local computation changes nothing else**.
* `inTurn_comm` — **local computations with disjoint sets of locations commute**.
-/

namespace Frames

universe u

variable {σ ρ ρ' : Type u} {ε ℓ : Type*} {V : ℓ → Type*} {get : σ → (l : ℓ) → V l}
  {F G : Set ℓ} {s t s' t' : σ}

/-- The states hold the same at the locations of `F`. -/
def AgreeOn (get : σ → (l : ℓ) → V l) (F : Set ℓ) (s t : σ) : Prop := ∀ l ∈ F, get s l = get t l

namespace AgreeOn

theorem refl (s : σ) : AgreeOn get F s s := fun _ _ => rfl

theorem trans {u : σ} (h : AgreeOn get F s t) (h' : AgreeOn get F t u) : AgreeOn get F s u :=
  fun l hl => (h l hl).trans (h' l hl)

/-- What is unchanged outside a set is unchanged on any set disjoint from it. -/
theorem of_disjoint (hd : Disjoint F G) (h : AgreeOn get Fᶜ s t) : AgreeOn get G s t :=
  fun l hl => h l (Set.disjoint_right.mp hd hl)

end AgreeOn

/-- `s` and `t` have become `s'` and `t'`: these agree on `F`, and nothing else has changed. -/
structure Moves (get : σ → (l : ℓ) → V l) (F : Set ℓ) (s t s' t' : σ) : Prop where
  /-- They agree on `F`. -/
  agree : AgreeOn get F s' t'
  /-- Nothing else has changed from `s` to `s'`. -/
  left : AgreeOn get Fᶜ s s'
  /-- Nothing else has changed from `t` to `t'`. -/
  right : AgreeOn get Fᶜ t t'

namespace Moves

theorem refl (h : AgreeOn get F s t) : Moves get F s t s t := ⟨h, .refl s, .refl t⟩

theorem trans {s'' t'' : σ} (h : Moves get F s t s' t') (h' : Moves get F s' t' s'' t'') :
    Moves get F s t s'' t'' :=
  ⟨h'.agree, h.left.trans h'.left, h.right.trans h'.right⟩

end Moves

/-- Two runs, from `s` and from `t`: both go wrong in the same way; or both return the same
result, in states that they have moved to side by side. -/
inductive Parallel (get : σ → (l : ℓ) → V l) (F : Set ℓ) (s t : σ) :
    Except ε (σ × ρ) → Except ε (σ × ρ) → Prop
  /-- Both go wrong. -/
  | error {e : ε} : Parallel get F s t (.error e) (.error e)
  /-- Both return. -/
  | ok {s' t' : σ} {r : ρ} : Moves get F s t s' t' →
      Parallel get F s t (.ok (s', r)) (.ok (t', r))

namespace Parallel

/-- Something has been changed before. -/
theorem after {x y : Except ε (σ × ρ)} (h : Moves get F s t s' t')
    (h' : Parallel get F s' t' x y) : Parallel get F s t x y := by
  cases h' with
  | error => exact .error
  | ok hmoves => exact .ok (h.trans hmoves)

/-- **Runs side by side compose.** -/
theorem bind {x y : Except ε (σ × ρ)} {f g : σ × ρ → Except ε (σ × ρ')}
    (h : Parallel get F s t x y)
    (hfg : ∀ s' t' r, x = .ok (s', r) → AgreeOn get F s' t' →
      Parallel get F s' t' (f (s', r)) (g (t', r))) :
    Parallel get F s t (x >>= f) (y >>= g) := by
  cases h with
  | error => exact .error
  | @ok s' t' r hmoves => exact after hmoves (hfg s' t' r rfl hmoves.agree)

end Parallel

/-- In the state `s`, the computation `f` reads and writes the locations of `F` only. -/
def Local (get : σ → (l : ℓ) → V l) (F : Set ℓ) (f : σ → Except ε (σ × ρ)) (s : σ) : Prop :=
  ∀ t, AgreeOn get F s t → Parallel get F s t (f s) (f t)

namespace Local

variable {f : σ → Except ε (σ × ρ)} {g : σ → Except ε (σ × ρ')} {r : ρ}

/-- **A local computation changes nothing else.** -/
theorem unchanged (hf : Local get F f s) (h : f s = .ok (s', r)) : AgreeOn get Fᶜ s s' := by
  have hpar := hf s (.refl s)
  rw [h] at hpar
  cases hpar with
  | ok hmoves => exact hmoves.left

/-- What a local computation does after one that is local to other locations. -/
theorem after (hf : Local get F f s) (hg : Local get G g s) (hd : Disjoint F G)
    (h : f s = .ok (s', r)) : Parallel get G s s' (g s) (g s') :=
  hg s' (.of_disjoint hd (hf.unchanged h))

end Local

/-- Two local computations that both return, in either order. -/
theorem Local.exists_both {f : σ → Except ε (σ × ρ)} {g : σ → Except ε (σ × ρ')} {s₁ s₂ : σ} {r : ρ}
    {r' : ρ'} (hinj : Function.Injective get) (hd : Disjoint F G) (hf : Local get F f s)
    (hg : Local get G g s) (hfs : f s = .ok (s₁, r)) (hgs : g s = .ok (s₂, r')) :
    ∃ t, g s₁ = .ok (t, r') ∧ f s₂ = .ok (t, r) := by
  have hs₁ := hf.unchanged hfs
  have hs₂ := hg.unchanged hgs
  have hpar := hf.after hg hd hfs
  have hpar' := hg.after hf hd.symm hgs
  rw [hgs] at hpar
  rw [hfs] at hpar'
  generalize g s₁ = y at hpar ⊢
  generalize f s₂ = x at hpar' ⊢
  cases hpar with
  | @ok _ t₁ _ hmoves =>
    cases hpar' with
    | @ok _ t₂ _ hmoves' =>
      obtain ⟨hG, -, hGc⟩ := hmoves
      obtain ⟨hF, -, hFc⟩ := hmoves'
      -- location by location
      have ht : t₁ = t₂ := by
        refine hinj (funext fun l => ?_)
        by_cases hlF : l ∈ F
        · have hlG : l ∉ G := Set.disjoint_left.mp hd hlF
          exact (hGc l hlG).symm.trans (hF l hlF)
        · by_cases hlG : l ∈ G
          · exact (hG l hlG).symm.trans (hFc l hlF)
          · calc get t₁ l = get s₁ l := (hGc l hlG).symm
              _ = get s l := (hs₁ l hlF).symm
              _ = get s₂ l := hs₂ l hlG
              _ = get t₂ l := hFc l hlF
      exact ⟨t₁, rfl, by rw [ht]⟩

/-- A local computation that goes wrong still does so after another one. -/
theorem Local.error_after {f : σ → Except ε (σ × ρ)} {g : σ → Except ε (σ × ρ')} {r : ρ} {e : ε}
    (hd : Disjoint F G) (hf : Local get F f s) (hg : Local get G g s) (hfs : f s = .ok (s', r))
    (hgs : g s = .error e) : g s' = .error e := by
  have hpar := hf.after hg hd hfs
  rw [hgs] at hpar
  generalize g s' = y at hpar ⊢
  cases hpar with
  | error => rfl

/-- Two computations, one after the other, and both their results. -/
def inTurn (f : σ → Except ε (σ × ρ)) (g : σ → Except ε (σ × ρ')) (s : σ) :
    Except ε (σ × ρ × ρ') := do
  let (s', r) ← f s
  let (s'', r') ← g s'
  .ok (s'', r, r')

/-- **Local computations with disjoint sets of locations commute**: in either order they have the
same results and lead to the same state; when both go wrong, it has to be in the same way. -/
theorem inTurn_comm {f : σ → Except ε (σ × ρ)} {g : σ → Except ε (σ × ρ')}
    (hinj : Function.Injective get) (hd : Disjoint F G) (hf : Local get F f s)
    (hg : Local get G g s) (he : ∀ e e', f s = .error e → g s = .error e' → e = e') :
    inTurn f g s = (inTurn g f s).map fun x => (x.1, x.2.2, x.2.1) := by
  cases hfs : f s with
  | error e =>
    cases hgs : g s with
    | error e' =>
      simp only [inTurn, hfs, hgs, he e e' hfs hgs, Bind.bind, Except.bind, Except.map]
    | ok y =>
      have hfs₂ := Local.error_after hd.symm hg hf hgs hfs
      simp only [inTurn, hfs, hgs, hfs₂, Bind.bind, Except.bind, Except.map]
  | ok x =>
    cases hgs : g s with
    | error e' =>
      have hgs₁ := Local.error_after hd hf hg hfs hgs
      simp only [inTurn, hfs, hgs, hgs₁, Bind.bind, Except.bind, Except.map]
    | ok y =>
      obtain ⟨t, hgs₁, hfs₂⟩ := Local.exists_both hinj hd hf hg hfs hgs
      simp only [inTurn, hfs, hgs, hgs₁, hfs₂, Bind.bind, Except.bind, Except.map]

end Frames
