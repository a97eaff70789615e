import Xtcp.Library.Runs

/-!
# Conveyors

A *conveyor* is a part of a system through which values move in order: a step may put some in
behind the last one, and take some out in front.  What a step puts in can be read off the step and
its reply; what it takes out need not be, so it is a relation.

As long as nothing else is done to it, what has come out, followed by what is still inside, is what
was inside at the start, followed by what has been put in.  The conveyor may have to be open for
that: `live` is asked of every state the run goes through, the last one included.

## Main results

* `Run.conveys` — **what goes in comes out**, once and in order, or is still inside.
-/

namespace Runs

variable {σ ι ρ ε α : Type*} {step : σ → ι → Except ε (σ × ρ)} {ok : σ → ι → Prop} {s t : σ}
  {tr : List (ι × ρ)}

/-- **What goes in comes out**, once and in order, or is still inside: from one step to runs. -/
theorem Run.conveys (inside : σ → List α → Prop) (live : σ → Prop) (into : ι × ρ → List α)
    (Out : ι × ρ → List α → Prop) (hrun : Run step ok s tr t) (hlive : ∀ s a, ok s a → live s)
    (hstep : ∀ s l a s' r, inside s l → ok s a → step s a = .ok (s', r) → live s' →
      ∃ out l', Out (a, r) out ∧ inside s' l' ∧ out ++ l' = l ++ into (a, r))
    {l : List α} (h0 : inside s l) (ht : live t) :
    ∃ outs l', List.Forall₂ Out tr outs ∧ inside t l' ∧
      outs.flatten ++ l' = l ++ tr.flatMap into := by
  induction hrun with
  | nil => exact ⟨[], l, .nil, h0, by simp⟩
  | snoc _ hok hs ih =>
    obtain ⟨outs, m, hout, hm, heq⟩ := ih (hlive _ _ hok)
    obtain ⟨out, l', hout', hl', heq'⟩ := hstep _ m _ _ _ hm hok hs ht
    refine ⟨outs ++ [out], l', List.rel_append hout (.cons hout' .nil), hl', ?_⟩
    simp only [List.flatten_append, List.flatten_singleton, List.flatMap_append,
      List.flatMap_singleton]
    rw [List.append_assoc, heq', ← List.append_assoc, heq, List.append_assoc]

end Runs
