import Mathlib

/-!
# Runs of a guarded labelled system

A system is a partial step function: `step s a` is the state and the reply after
the action `a`, or an error.  What the environment may do is a predicate
`ok s a` on the state before the step.  A *run* is a list of actions, each
allowed where it is taken and each carried out without an error, together with
the replies they got.

The trace grows at its end, so that a fact about everything that has happened
so far is proved by one induction with the last step in front.

## Main definitions

* `Run step ok s tr t` — the trace `tr` leads from `s` to `t`.
* `replay` — the run a list of actions leads to, computed.
* `withGhost` — the system next to a value that it never looks at.

## Main results

* `Run.invariant` — the invariant rule.
* `Run.trans`, `Run.mono`, `Run.cons` — runs compose, and can be relaxed.
* `Run.of_replay` — a computed run is a run.
* `Run.ghost` — a ghost takes no run away.
* `bind_eq_ok` — a sequence of computations succeeds when each of them does.
-/

namespace Runs

universe u

variable {σ ι ρ ε γ : Type*}

/-- A sequence of two computations succeeds when both do. -/
theorem bind_eq_ok {α β : Type u} {x : Except ε α} {f : α → Except ε β} {b : β} :
    x >>= f = .ok b ↔ ∃ a, x = .ok a ∧ f a = .ok b := by
  cases x with
  | error e =>
    constructor
    · intro h; cases h
    · rintro ⟨a, h, -⟩; cases h
  | ok a =>
    constructor
    · intro h; exact ⟨a, rfl, h⟩
    · rintro ⟨a', h, hf⟩; cases h; exact hf

/-- `Run step ok s tr t` says that the actions of `tr` lead from `s` to `t`,
each of them allowed by `ok` in the state it is taken in, with the replies
recorded in `tr`. -/
inductive Run (step : σ → ι → Except ε (σ × ρ)) (ok : σ → ι → Prop) (s : σ) :
    List (ι × ρ) → σ → Prop
  /-- Nothing has happened yet. -/
  | nil : Run step ok s [] s
  /-- One more step at the end. -/
  | snoc {tr : List (ι × ρ)} {t t' : σ} {a : ι} {r : ρ} :
      Run step ok s tr t → ok t a → step t a = .ok (t', r) →
        Run step ok s (tr ++ [(a, r)]) t'

variable {step : σ → ι → Except ε (σ × ρ)} {ok ok' : σ → ι → Prop} {s t u : σ}
  {tr tr' : List (ι × ρ)}

namespace Run

/-- **The invariant rule**: what holds at the start and is kept by every allowed
step holds after every run. -/
theorem invariant {I : σ → Prop} (hrun : Run step ok s tr t) (h0 : I s)
    (hstep : ∀ s a s' r, I s → ok s a → step s a = .ok (s', r) → I s') : I t := by
  induction hrun with
  | nil => exact h0
  | snoc _ hok hs ih => exact hstep _ _ _ _ ih hok hs

/-- A run under a stronger guard is a run under a weaker one. -/
theorem mono (hrun : Run step ok s tr t) (h : ∀ s a, ok s a → ok' s a) :
    Run step ok' s tr t := by
  induction hrun with
  | nil => exact .nil
  | snoc _ hok hs ih => exact ih.snoc (h _ _ hok) hs

/-- Runs compose. -/
theorem trans (h₁ : Run step ok s tr t) (h₂ : Run step ok t tr' u) :
    Run step ok s (tr ++ tr') u := by
  induction h₂ with
  | nil => simpa using h₁
  | snoc _ hok hs ih =>
    rw [← List.append_assoc]
    exact ih.snoc hok hs

/-- One step in front of a run. -/
theorem cons {a : ι} {r : ρ} (hok : ok s a) (hs : step s a = .ok (t, r))
    (hrun : Run step ok t tr u) : Run step ok s ((a, r) :: tr) u := by
  have hone : Run step ok s [(a, r)] t := .snoc .nil hok hs
  exact hone.trans hrun

end Run

/-- The run a list of actions leads to from `s`; `none` when one of them is not
allowed or fails. -/
def replay (step : σ → ι → Except ε (σ × ρ)) (ok : σ → ι → Prop)
    [∀ s a, Decidable (ok s a)] : σ → List ι → Option (List (ι × ρ) × σ)
  | s, [] => some ([], s)
  | s, a :: as =>
    if ok s a then
      match step s a with
      | .ok (s', r) => (replay step ok s' as).map fun q => ((a, r) :: q.1, q.2)
      | .error _ => none
    else none

/-- A computed run is a run. -/
theorem Run.of_replay [∀ s a, Decidable (ok s a)] {as : List ι}
    (h : replay step ok s as = some (tr, t)) : Run step ok s tr t := by
  induction as generalizing s tr with
  | nil =>
    simp only [replay, Option.some.injEq, Prod.mk.injEq] at h
    obtain ⟨rfl, rfl⟩ := h
    exact .nil
  | cons a as ih =>
    rw [replay] at h
    split at h
    · next hok =>
      split at h
      · next s' r hs =>
        simp only [Option.map_eq_some_iff, Prod.mk.injEq] at h
        obtain ⟨⟨tr', t'⟩, hrec, rfl, rfl⟩ := h
        exact .cons hok hs (ih hrec)
      · simp at h
    · simp at h

/-- A run with a given trace and end, computed. -/
theorem Run.exists_of_replay [∀ s a, Decidable (ok s a)] (as : List ι)
    {P : List (ι × ρ) → σ → Prop} [∀ tr t, Decidable (P tr t)]
    (h : (replay step ok s as).any (fun q => decide (P q.1 q.2)) = true) :
    ∃ tr t, Run step ok s tr t ∧ P tr t := by
  cases hq : replay step ok s as with
  | none => simp [hq] at h
  | some q =>
    obtain ⟨tr, t⟩ := q
    rw [hq, Option.any_some, decide_eq_true_eq] at h
    exact ⟨tr, t, .of_replay hq, h⟩

/-! ### Ghosts -/

/-- The system with a ghost: a value that `note` computes along the run, and that
the system never looks at. -/
def withGhost (step : σ → ι → Except ε (σ × ρ)) (note : σ → γ → ι → σ → γ) (x : σ × γ) (a : ι) :
    Except ε ((σ × γ) × ρ) :=
  (step x.1 a).map fun q => ((q.1, note x.1 x.2 a q.1), q.2)

variable {note : σ → γ → ι → σ → γ}

theorem withGhost_eq_ok {x y : σ × γ} {a : ι} {r : ρ} :
    withGhost step note x a = .ok (y, r) ↔
      step x.1 a = .ok (y.1, r) ∧ y.2 = note x.1 x.2 a y.1 := by
  obtain ⟨t, g⟩ := y
  unfold withGhost
  cases hs : step x.1 a with
  | error e =>
    constructor
    · intro h; cases h
    · rintro ⟨h, -⟩; cases h
  | ok q =>
    obtain ⟨t', r'⟩ := q
    constructor
    · intro h
      cases h
      exact ⟨rfl, rfl⟩
    · rintro ⟨h, hg⟩
      cases h
      dsimp only at hg
      subst hg
      rfl

/-- Every run goes through with a ghost at its side. -/
theorem Run.ghost (note : σ → γ → ι → σ → γ) (hrun : Run step ok s tr t) (g : γ) :
    ∃ g', Run (withGhost step note) (fun x a => ok x.1 a) (s, g) tr (t, g') := by
  induction hrun with
  | nil => exact ⟨g, .nil⟩
  | @snoc _ u u' a r _ hok hs ih =>
    obtain ⟨g', ih⟩ := ih
    have hs' : withGhost step note (u, g') a = .ok ((u', note u g' a u'), r) :=
      withGhost_eq_ok.mpr ⟨hs, rfl⟩
    exact ⟨_, ih.snoc hok hs'⟩

end Runs
