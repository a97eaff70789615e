import Xtcp.Library.Runs

/-!
# Simulation by a machine that answers

A specification is often a machine that always answers: `spec f a` is its state and its reply
after the action `a`.  A system is simulated by it when a relation between their states is kept
by every step that the system may take, and the replies are the same.  Then the replies of a whole
run are those of the machine.

Two copies of one system whose states are related in such a way cannot be told apart by what they
reply.

## Main definitions

* `answers` — the machine on a list of actions.
* `replies` — what a system replies to a list of actions.

## Main results

* `Run.simulates` — **a relation that every step keeps is kept by a run**, with the same replies.
* `replies_eq` — **related states reply alike**.
-/

namespace Runs

universe u

variable {ι φ ε : Type*}

/-! ### The machine of a specification -/

section answers

variable {σ ρ : Type*} {step : σ → ι → Except ε (σ × ρ)} {ok : σ → ι → Prop} {s t : σ}
  {tr : List (ι × ρ)}

/-- The state of a machine after a list of actions, and its answers. -/
def answers (spec : φ → ι → φ × ρ) : φ → List ι → φ × List ρ
  | f, [] => (f, [])
  | f, a :: as =>
    ((answers spec (spec f a).1 as).1, (spec f a).2 :: (answers spec (spec f a).1 as).2)

/-- One more action at the end. -/
theorem answers_concat (spec : φ → ι → φ × ρ) (f : φ) (as : List ι) (a : ι) :
    answers spec f (as ++ [a]) = ((spec (answers spec f as).1 a).1,
      (answers spec f as).2 ++ [(spec (answers spec f as).1 a).2]) := by
  induction as generalizing f with
  | nil => rfl
  | cons b as ih =>
    rw [List.cons_append, answers, ih]
    rfl

/-- **A relation that every step keeps is kept by a run**, and the replies of the run are the
answers of the machine. -/
theorem Run.simulates {spec : φ → ι → φ × ρ} {R : σ → φ → Prop} {f : φ}
    (hrun : Run step ok s tr t) (h0 : R s f)
    (hstep : ∀ s f a s' r, R s f → ok s a → step s a = .ok (s', r) →
      R s' (spec f a).1 ∧ r = (spec f a).2) :
    R t (answers spec f (tr.map Prod.fst)).1 ∧
      tr.map Prod.snd = (answers spec f (tr.map Prod.fst)).2 := by
  induction hrun with
  | nil => exact ⟨h0, rfl⟩
  | snoc _ hok hs ih =>
    obtain ⟨hR, hreplies⟩ := ih
    obtain ⟨hR', hreply⟩ := hstep _ _ _ _ _ hR hok hs
    rw [List.map_append, List.map_append, List.map_singleton, List.map_singleton, answers_concat,
      hreplies, hreply]
    exact ⟨hR', rfl⟩

end answers

/-! ### Two copies of a system -/

section replies

variable {σ ρ : Type u} {step : σ → ι → Except ε (σ × ρ)} {s t : σ}

/-- What a system replies to a list of actions. -/
def replies (step : σ → ι → Except ε (σ × ρ)) : σ → List ι → Except ε (List ρ)
  | _, [] => .ok []
  | s, a :: as => do
    let (s', r) ← step s a
    let rs ← replies step s' as
    .ok (r :: rs)

/-- **Related states reply alike**: a relation is kept by every action of a kind, with the same
reply. -/
theorem replies_eq {R : σ → σ → Prop} {P : ι → Prop}
    (hstep : ∀ s t a, R s t → P a →
      ∃ s' t' r, step s a = .ok (s', r) ∧ step t a = .ok (t', r) ∧ R s' t') (h : R s t)
    {as : List ι} (has : ∀ a ∈ as, P a) :
    ∃ rs, replies step s as = .ok rs ∧ replies step t as = .ok rs := by
  induction as generalizing s t with
  | nil => exact ⟨[], rfl, rfl⟩
  | cons a as ih =>
    obtain ⟨s', t', r, hs, ht, h'⟩ := hstep s t a h (has a List.mem_cons_self)
    obtain ⟨rs, hrs, hrs'⟩ := ih h' fun b hb => has b (List.mem_cons_of_mem a hb)
    refine ⟨r :: rs, ?_, ?_⟩
    · simp only [replies, hs, hrs, Bind.bind, Except.bind]
    · simp only [replies, ht, hrs', Bind.bind, Except.bind]

end replies

end Runs
