import Mathlib

/-!
# Programs that ask questions

A program comes to an end with a value, or asks a question and goes on with the answer.  A task
runs the same program again and again, each time with the value that the last time has ended with.

What a task does is the list of its questions and answers.  `Keeps` is the condition under which a
program, whatever it is answered, has one property after each answer and another one at its end; it
is computed along the program, so it splits where the program splits.  If the program that a task
repeats keeps the property that it starts with, then the task has it whenever it starts again.

## Main definitions

* `Program`, `perform` — programs, and the program of one question.
* `Program.Ended` — a program at its end.
* `Program.Keeps` — what a program keeps, whatever it is answered.
* `advance`, `follow` — a task, along what its surroundings do.

## Main results

* `Program.keeps_perform`, `Program.keeps_ite` — the rules for a question and for a branch.
* `follow_append`, `follow_map`, `follow_mem` — a task can be followed in two parts, and leaves its
  exchanges behind in what happens around it.
* `follow_keeps` — **the rule for tasks**.
-/

namespace Programs

universe u

variable {Q : Type u} {A : Q → Type u} {α β σ : Type u} {χ : Type*}

/-- A program that asks questions from `Q`; `A q` are the answers to `q`. -/
inductive Program (Q : Type u) (A : Q → Type u) (α : Type u) : Type u
  /-- The end. -/
  | ret (a : α)
  /-- Ask, and go on with the answer. -/
  | ask (q : Q) (k : A q → Program Q A α)

/-- A question with its answer. -/
abbrev Exchange (Q : Type u) (A : Q → Type u) : Type u := (q : Q) × A q

namespace Program

/-- One program after another. -/
def bind : Program Q A α → (α → Program Q A β) → Program Q A β
  | ret a, f => f a
  | ask q k, f => ask q fun a => (k a).bind f

instance : Monad (Program Q A) where
  pure := ret
  bind := bind

end Program

/-- The program that asks one question. -/
def perform (q : Q) : Program Q A (A q) := .ask q .ret

namespace Program

/-- The program has come to its end. -/
def Ended : Program Q A α → Prop
  | ret _ => True
  | ask _ _ => False

instance : (p : Program Q A α) → Decidable p.Ended
  | ret _ => isTrue trivial
  | ask _ _ => isFalse id

/-- After the exchanges `w`, and whatever the answers are, `M` holds after each answer that the
program gets, and `R` when it comes to its end. -/
def Keeps (M : List (Exchange Q A) → Prop) (R : List (Exchange Q A) → α → Prop) :
    List (Exchange Q A) → Program Q A α → Prop
  | w, ret a => R w a
  | w, ask q k => ∀ a, M (w ++ [⟨q, a⟩]) ∧ Keeps M R (w ++ [⟨q, a⟩]) (k a)

variable {M : List (Exchange Q A) → Prop} {w : List (Exchange Q A)}

/-- The rule for a question. -/
theorem keeps_perform {R : List (Exchange Q A) → α → Prop} {q : Q} {f : A q → Program Q A α} :
    Keeps M R w (perform q >>= f) ↔
      ∀ a, M (w ++ [⟨q, a⟩]) ∧ Keeps M R (w ++ [⟨q, a⟩]) (f a) := Iff.rfl

/-- The rule for a branch. -/
theorem keeps_ite {R : List (Exchange Q A) → α → Prop} {c : Prop} [Decidable c]
    {p q : Program Q A α} (hp : c → Keeps M R w p) (hq : ¬ c → Keeps M R w q) :
    Keeps M R w (if c then p else q) := by
  by_cases hc : c
  · rw [if_pos hc]
    exact hp hc
  · rw [if_neg hc]
    exact hq hc

end Program

/-! ### Tasks -/

/-- What a task goes on with: at the end of `body` it starts again. -/
def next (body : σ → Program Q A σ) : Program Q A σ → Program Q A σ
  | .ret st => body st
  | p => p

/-- A task takes one thing that happens around it for the answer to its question, if it is one. -/
def advance (reply : (q : Q) → χ → Option (A q)) (body : σ → Program Q A σ)
    (p : Program Q A σ) (x : χ) : Option (Exchange Q A × Program Q A σ) :=
  match next body p with
  | .ret _ => none
  | .ask q k => (reply q x).map fun a => (⟨q, a⟩, k a)

/-- The exchanges of a task along a list of things that happen around it, and what is left of its
program. -/
def follow (reply : (q : Q) → χ → Option (A q)) (body : σ → Program Q A σ) :
    Program Q A σ → List χ → Option (List (Exchange Q A) × Program Q A σ)
  | p, [] => some ([], p)
  | p, x :: xs =>
    (advance reply body p x).bind fun y =>
      (follow reply body y.2 xs).map fun z => (y.1 :: z.1, z.2)

variable {reply : (q : Q) → χ → Option (A q)} {body : σ → Program Q A σ} {p p' : Program Q A σ}
  {w : List (Exchange Q A)}

theorem advance_eq_some {x : χ} {e : Exchange Q A} (h : advance reply body p x = some (e, p')) :
    ∃ k, next body p = .ask e.1 k ∧ reply e.1 x = some e.2 ∧ p' = k e.2 := by
  unfold advance at h
  split at h
  · cases h
  · next q k hnext =>
    obtain ⟨a, ha, heq⟩ := Option.map_eq_some_iff.mp h
    cases heq
    exact ⟨k, hnext, ha, rfl⟩

theorem follow_cons {x : χ} {xs : List χ}
    (h : follow reply body p (x :: xs) = some (w, p')) :
    ∃ e q v, advance reply body p x = some (e, q) ∧ follow reply body q xs = some (v, p') ∧
      w = e :: v := by
  obtain ⟨⟨e, q⟩, hadvance, h⟩ := Option.bind_eq_some_iff.mp h
  obtain ⟨⟨v, p''⟩, hfollow, heq⟩ := Option.map_eq_some_iff.mp h
  cases heq
  exact ⟨e, q, v, hadvance, hfollow, rfl⟩

/-- **A task can be followed in two parts.** -/
theorem follow_append {xs ys : List χ} (h : follow reply body p (xs ++ ys) = some (w, p')) :
    ∃ u v q, follow reply body p xs = some (u, q) ∧ follow reply body q ys = some (v, p') ∧
      w = u ++ v := by
  induction xs generalizing p w with
  | nil => exact ⟨[], w, p, rfl, h, rfl⟩
  | cons x xs ih =>
    obtain ⟨e, q, v, hadvance, hfollow, rfl⟩ := follow_cons h
    obtain ⟨u, v', q', hu, hv, rfl⟩ := ih hfollow
    refine ⟨e :: u, v', q', ?_, hv, rfl⟩
    simp [follow, hadvance, hu]

/-- What can be read off the exchanges of a task can be read off what happens around it. -/
theorem follow_map {β : Type*} {f : Exchange Q A → β} {g : χ → β} {xs : List χ}
    (hfg : ∀ (e : Exchange Q A), ∀ x ∈ xs, reply e.1 x = some e.2 → f e = g x)
    (h : follow reply body p xs = some (w, p')) : w.map f = xs.map g := by
  induction xs generalizing p w with
  | nil =>
    cases h
    rfl
  | cons x xs ih =>
    obtain ⟨e, q, v, hadvance, hfollow, rfl⟩ := follow_cons h
    obtain ⟨k, -, hreply, rfl⟩ := advance_eq_some hadvance
    have htail := ih (fun e y hy => hfg e y (List.mem_cons_of_mem x hy)) hfollow
    rw [List.map_cons, List.map_cons, hfg e x List.mem_cons_self hreply, htail]

/-- Everything that happens is the answer to a question. -/
theorem follow_mem {xs : List χ} (h : follow reply body p xs = some (w, p')) {x : χ} (hx : x ∈ xs) :
    ∃ e ∈ w, reply e.1 x = some e.2 := by
  induction xs generalizing p w with
  | nil => cases hx
  | cons y xs ih =>
    obtain ⟨e, q, v, hadvance, hfollow, rfl⟩ := follow_cons h
    obtain ⟨k, -, hreply, rfl⟩ := advance_eq_some hadvance
    rcases List.mem_cons.mp hx with rfl | hx
    · exact ⟨e, List.mem_cons_self, hreply⟩
    · obtain ⟨e', he', hreply'⟩ := ih hfollow hx
      exact ⟨e', List.mem_cons_of_mem e he', hreply'⟩

variable {M : List (Exchange Q A) → Prop} {I : List (Exchange Q A) → σ → Prop}

/-- **The rule for tasks.**  If `body` keeps `I`, and `M` on the way, then so does a task that
repeats it: `M` holds all the time, and what is left of the program leads to `I`. -/
theorem follow_keeps (hbody : ∀ w st, I w st → (body st).Keeps M I w) {w₀ : List (Exchange Q A)}
    (hM : M w₀) (hp : p.Keeps M I w₀) {xs : List χ} (h : follow reply body p xs = some (w, p')) :
    M (w₀ ++ w) ∧ p'.Keeps M I (w₀ ++ w) := by
  induction xs generalizing p w₀ w with
  | nil =>
    cases h
    rw [List.append_nil]
    exact ⟨hM, hp⟩
  | cons x xs ih =>
    obtain ⟨e, q, v, hadvance, hfollow, rfl⟩ := follow_cons h
    obtain ⟨k, hnext, -, rfl⟩ := advance_eq_some hadvance
    -- at the end of the program, it is the invariant that lets it start again
    have hkeeps : (next body p).Keeps M I w₀ := by
      cases p with
      | ret st => exact hbody w₀ st hp
      | ask q k => exact hp
    rw [hnext] at hkeeps
    obtain ⟨hM', hk⟩ := hkeeps e.2
    have htail := ih hM' hk hfollow
    rwa [List.append_assoc, List.singleton_append] at htail

end Programs
