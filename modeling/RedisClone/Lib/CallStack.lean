import Mathlib.Tactic

/-!
# Call stacks with exception handlers

A program whose functions call back into each other is a stack of tasks.  A task
changes the state and either calls further tasks, which run before the rest of
the stack, or throws.  An exception drops the tasks up to the innermost handler.

Main results:

- Theorem {lit}`step_cons_ok`, {lit}`step_cons_error`: one step of a stack.
- Theorem {lit}`Finishes.steps`: tasks that run to their end do so above every stack.
-/

namespace CallStack

/-- What the tasks of a program do, and which of them are exception handlers. -/
structure Machine (σ τ ε : Type) where
  act : σ → τ → σ × Except ε (List τ)
  /-- The tasks with which a handler continues. -/
  handler : τ → ε → Option (List τ)

variable {σ τ ε : Type}

/-- The stack behind an exception, unless nobody handles it. -/
def Machine.unwind (m : Machine σ τ ε) (e : ε) : List τ → Option (List τ)
  | [] => none
  | t :: ts =>
      match m.handler t e with
      | some new => some (new ++ ts)
      | none => m.unwind e ts

/-- One step: the topmost task runs.  An empty stack stays as it is, and an
exception that is not handled ends the program. -/
def Machine.step (m : Machine σ τ ε) (s : σ) : List τ → Option (σ × List τ)
  | [] => some (s, [])
  | t :: ts =>
      match m.act s t with
      | (s', .ok new) => some (s', new ++ ts)
      | (s', .error e) => (m.unwind e ts).map fun ts' => (s', ts')

/-- A number of steps. -/
def Machine.steps (m : Machine σ τ ε) : Nat → σ → List τ → Option (σ × List τ)
  | 0, s, ts => some (s, ts)
  | n + 1, s, ts => (m.step s ts).bind fun c => m.steps n c.1 c.2

variable {m : Machine σ τ ε}

/-- The topmost task calls further tasks. -/
theorem step_cons_ok {s s' : σ} {t : τ} {new : List τ} (h : m.act s t = (s', .ok new))
    (ts : List τ) : m.step s (t :: ts) = some (s', new ++ ts) := by
  rw [Machine.step, h]

/-- The topmost task throws. -/
theorem step_cons_error {s s' : σ} {t : τ} {e : ε} (h : m.act s t = (s', .error e))
    (ts : List τ) : m.step s (t :: ts) = (m.unwind e ts).map fun ts' => (s', ts') := by
  rw [Machine.step, h]

/-- What one step of a nonempty stack can be. -/
theorem step_cons {s s' : σ} {t : τ} {ts ts' : List τ} (h : m.step s (t :: ts) = some (s', ts')) :
    (∃ new, m.act s t = (s', .ok new) ∧ ts' = new ++ ts) ∨
      ∃ e, m.act s t = (s', .error e) ∧ m.unwind e ts = some ts' := by
  rcases hact : m.act s t with ⟨s₁, r⟩
  cases r with
  | ok new =>
      rw [step_cons_ok hact] at h
      cases h
      exact Or.inl ⟨new, rfl, rfl⟩
  | error e =>
      rw [step_cons_error hact, Option.map_eq_some_iff] at h
      rcases h with ⟨ts₁, hunwind, hpair⟩
      cases hpair
      exact Or.inr ⟨e, rfl, hunwind⟩

/-- The stack behind an exception consists of a handler's tasks and a part of the
stack. -/
theorem unwind_eq_some {e : ε} {ts ts' : List τ} (h : m.unwind e ts = some ts') :
    ∃ above t new below, ts = above ++ t :: below ∧ m.handler t e = some new ∧
      ts' = new ++ below := by
  induction ts with
  | nil => simp [Machine.unwind] at h
  | cons t ts ih =>
      rw [Machine.unwind] at h
      cases hhandler : m.handler t e with
      | some new =>
          simp only [hhandler, Option.some.injEq] at h
          exact ⟨[], t, new, ts, rfl, hhandler, h.symm⟩
      | none =>
          simp only [hhandler] at h
          rcases ih h with ⟨above, t', new, below, rfl, hnew, rfl⟩
          exact ⟨t :: above, t', new, below, rfl, hnew, rfl⟩

/-! ## Tasks that run to their end -/

/-- The tasks and all that they call run to their end without an exception. -/
inductive Machine.Finishes (m : Machine σ τ ε) : σ → List τ → σ → Prop
  | nil (s : σ) : Finishes m s [] s
  | cons {s s' s'' : σ} {t : τ} {new ts : List τ} (hact : m.act s t = (s', .ok new))
      (hrest : Finishes m s' (new ++ ts) s'') : Finishes m s (t :: ts) s''

namespace Machine.Finishes

variable {s s' s'' : σ} {ts ts' : List τ}

/-- A task that calls no others. -/
theorem single {t : τ} (hact : m.act s t = (s', .ok [])) : m.Finishes s [t] s' :=
  .cons hact (.nil s')

/-- Tasks run one after the other. -/
theorem append (h : m.Finishes s ts s') (h' : m.Finishes s' ts' s'') :
    m.Finishes s (ts ++ ts') s'' := by
  induction h with
  | nil s => exact h'
  | cons hact hrest ih =>
      rw [List.cons_append]
      refine .cons hact ?_
      rw [← List.append_assoc]
      exact ih h'

/-- Tasks that run to their end do so above every stack. -/
theorem steps (h : m.Finishes s ts s') :
    ∃ n, ∀ below, m.steps n s (ts ++ below) = some (s', below) := by
  induction h with
  | nil s => exact ⟨0, fun below => rfl⟩
  | cons hact hrest ih =>
      rcases ih with ⟨n, hn⟩
      refine ⟨n + 1, fun below => ?_⟩
      rw [Machine.steps, List.cons_append, step_cons_ok hact, Option.bind_some,
        ← List.append_assoc]
      exact hn below

end Machine.Finishes

end CallStack
