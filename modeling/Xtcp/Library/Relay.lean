import Xtcp.Library.Programs

/-!
# Tasks that pass on what they receive

A relay is told that there is something to receive, receives it, and sends it on.  What it has sent,
followed by what it still holds, is what it has received; and it has received as often as it has
been told to, apart from the times that are still pending.  Between two rounds a relay holds nothing
and has nothing pending.

## Main definitions

* `Relay` — how to read the exchanges of a task as those of a relay.
* `Relay.Has` — what a relay has done so far.

## Main results

* `Relay.Has.snoc`, `Relay.Has.quiet` — one more exchange.
* `Relay.Has.keeps` — the rule for a question that has nothing to do with the relay.
* `Relay.follow_has` — **a task whose rounds are those of a relay is a relay**.
-/

namespace Programs

universe u

variable {Q : Type u} {A : Q → Type u} {σ : Type u} {β χ : Type*}

/-- How to read the exchanges of a task as those of a relay. -/
structure Relay (Q : Type u) (A : Q → Type u) (β : Type*) where
  /-- The task is told that there is something to receive. -/
  told : Exchange Q A → Bool
  /-- The task receives. -/
  receives : Exchange Q A → Bool
  /-- What it receives. -/
  received : Exchange Q A → List β
  /-- What it sends. -/
  sent : Exchange Q A → List β
  /-- What is sent for what is received. -/
  answer : β → β
  /-- What is asked of every exchange. -/
  Proper : Exchange Q A → Prop

namespace Relay

variable (R : Relay Q A β)

/-- What a relay has done so far. -/
structure Has (w : List (Exchange Q A)) (held : List β) (pending : ℕ) : Prop where
  /-- What has been received has been sent, or is held. -/
  passed : (w.flatMap R.received).map R.answer = w.flatMap R.sent ++ held.map R.answer
  /-- It has received as often as it has been told to. -/
  count : w.countP R.told = w.countP R.receives + pending
  /-- Every exchange is proper. -/
  proper : ∀ e ∈ w, R.Proper e

/-- A question that has nothing to do with the relay. -/
def Quiet (q : Q) : Prop :=
  ∀ a : A q, R.told ⟨q, a⟩ = false ∧ R.receives ⟨q, a⟩ = false ∧ R.received ⟨q, a⟩ = [] ∧
    R.sent ⟨q, a⟩ = [] ∧ R.Proper ⟨q, a⟩

variable {R} {w : List (Exchange Q A)} {held : List β} {pending : ℕ}

namespace Has

theorem nil (R : Relay Q A β) : R.Has [] [] 0 := ⟨rfl, rfl, by simp⟩

/-- One more exchange. -/
theorem snoc (h : R.Has w held pending) {e : Exchange Q A} {held' : List β} {pending' : ℕ}
    (hpassed : (held ++ R.received e).map R.answer = R.sent e ++ held'.map R.answer)
    (hcount : pending + (R.told e).toNat = pending' + (R.receives e).toNat) (hproper : R.Proper e) :
    R.Has (w ++ [e]) held' pending' := by
  have hsnoc : ∀ P : Exchange Q A → Bool, (w ++ [e]).countP P = w.countP P + (P e).toNat := by
    intro P
    rw [List.countP_append, List.countP_singleton]
    cases P e <;> rfl
  constructor
  · rw [List.flatMap_append, List.flatMap_singleton, List.map_append, h.passed, List.append_assoc,
      ← List.map_append, hpassed, ← List.append_assoc, List.flatMap_append, List.flatMap_singleton]
  · rw [hsnoc, hsnoc, h.count]
    omega
  · intro e' he'
    rcases List.mem_append.mp he' with he' | he'
    · exact h.proper e' he'
    · rwa [List.mem_singleton.mp he']

/-- One more exchange that has nothing to do with the relay. -/
theorem quiet (h : R.Has w held pending) {q : Q} (hq : R.Quiet q) (a : A q) :
    R.Has (w ++ [⟨q, a⟩]) held pending := by
  obtain ⟨htold, hreceives, hreceived, hsent, hproper⟩ := hq a
  refine h.snoc ?_ ?_ hproper
  · rw [hreceived, hsent, List.append_nil, List.nil_append]
  · rw [htold, hreceives]

/-- The rule for a question that has nothing to do with the relay. -/
theorem keeps (h : R.Has w held pending) {q : Q} (hq : R.Quiet q) {α : Type u}
    {f : A q → Program Q A α} {E : List (Exchange Q A) → α → Prop}
    (hf : ∀ a w, R.Has w held pending →
      (f a).Keeps (fun w => ∃ held pending, R.Has w held pending) E w) :
    (perform q >>= f).Keeps (fun w => ∃ held pending, R.Has w held pending) E w :=
  Program.keeps_perform.mpr fun a => ⟨⟨_, _, h.quiet hq a⟩, hf a _ (h.quiet hq a)⟩

end Has

/-- A program is one round of a relay: it comes to its end with nothing held and nothing pending. -/
def Round (R : Relay Q A β) (w : List (Exchange Q A)) (p : Program Q A σ) : Prop :=
  p.Keeps (fun w => ∃ held pending, R.Has w held pending) (fun w _ => R.Has w [] 0) w

/-- **A task whose rounds are those of a relay is a relay**, at every moment and between two
rounds. -/
theorem follow_has {reply : (q : Q) → χ → Option (A q)} {body : σ → Program Q A σ}
    (hbody : ∀ w st, R.Has w [] 0 → R.Round w (body st)) {st : σ} {xs : List χ}
    {p : Program Q A σ} (h : follow reply body (.ret st) xs = some (w, p)) :
    (∃ held pending, R.Has w held pending) ∧ (p.Ended → R.Has w [] 0) := by
  have hstart : R.Round [] (Program.ret st) := Has.nil R
  obtain ⟨hdone, hrest⟩ := follow_keeps hbody ⟨[], 0, Has.nil R⟩ hstart h
  refine ⟨hdone, fun hended => ?_⟩
  cases p with
  | ret => exact hrest
  | ask => cases hended

end Relay

end Programs
