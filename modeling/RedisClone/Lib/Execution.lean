import Mathlib.Tactic

/-!
# Executions of a transition function

A system takes one event at a time; an event that is not possible in a state
has no successor.  Facts about whole runs follow from facts about single steps.

Main results:

- Theorem {lit}`run_invariant`: what holds at the start and is preserved by each
  step holds at the end of every run.
- Theorem {lit}`follow_append`: runs compose.
- Theorem {lit}`follow_invariant`: the same for systems without outputs, for runs
  all of whose steps meet a condition on the state and the event.
- Theorem {lit}`exists_follow_replicate`: an event that makes a measure smaller is
  possible until a certain state is reached.
-/

namespace Execution

variable {σ ε ω : Type}

/-- Run a sequence of events and collect the outputs. -/
def run (step : σ → ε → Option (σ × List ω)) (s : σ) : List ε → Option (σ × List ω)
  | [] => some (s, [])
  | e :: es =>
      match step s e with
      | none => none
      | some (s', out) =>
          match run step s' es with
          | none => none
          | some (s'', out') => some (s'', out ++ out')

variable {step : σ → ε → Option (σ × List ω)}

/-- The first event of a run and the rest. -/
theorem run_cons {s t : σ} {e : ε} {es : List ε} {out : List ω}
    (h : run step s (e :: es) = some (t, out)) :
    ∃ s' out₁ out₂, step s e = some (s', out₁) ∧ run step s' es = some (t, out₂) ∧
      out = out₁ ++ out₂ := by
  rw [run] at h
  cases hstep : step s e with
  | none => simp [hstep] at h
  | some p =>
      rcases p with ⟨s', out₁⟩
      simp only [hstep] at h
      cases hrest : run step s' es with
      | none => simp [hrest] at h
      | some q =>
          rcases q with ⟨t', out₂⟩
          simp only [hrest, Option.some.injEq, Prod.mk.injEq] at h
          rcases h with ⟨rfl, rfl⟩
          exact ⟨s', out₁, out₂, rfl, hrest, rfl⟩

/-- Every step preserves {lit}`Inv`, so every run does. -/
theorem run_invariant {Inv : σ → Prop} {P : ε → Prop}
    (hstep : ∀ {s s' e out}, Inv s → P e → step s e = some (s', out) → Inv s')
    {s t : σ} {es : List ε} {out : List ω} (hs : Inv s) (hes : ∀ e ∈ es, P e)
    (h : run step s es = some (t, out)) : Inv t := by
  induction es generalizing s out with
  | nil =>
      rw [run] at h
      cases h
      exact hs
  | cons e es ih =>
      rcases run_cons h with ⟨s', out₁, out₂, hone, hrest, -⟩
      have hs' := hstep hs (hes e (by simp)) hone
      exact ih hs' (fun e he => hes e (by simp [he])) hrest

/-! ## Systems without outputs -/

/-- Run a sequence of events. -/
def follow (step : σ → ε → Option σ) (s : σ) : List ε → Option σ
  | [] => some s
  | e :: es => (step s e).bind fun s' => follow step s' es

/-- Every step of the run meets a condition on the state and the event. -/
def Along (step : σ → ε → Option σ) (P : σ → ε → Prop) (s : σ) : List ε → Prop
  | [] => True
  | e :: es => P s e ∧ ∀ s', step s e = some s' → Along step P s' es

/-- What is observed along a run, step by step. -/
def observe (step : σ → ε → Option σ) (obs : σ → ε → List ω) (s : σ) : List ε → List ω
  | [] => []
  | e :: es =>
      obs s e ++ match step s e with
        | some s' => observe step obs s' es
        | none => []

section Follow

variable {step : σ → ε → Option σ}

/-- The first event of a run and the rest. -/
theorem follow_cons {s t : σ} {e : ε} {es : List ε} (h : follow step s (e :: es) = some t) :
    ∃ s', step s e = some s' ∧ follow step s' es = some t :=
  Option.bind_eq_some_iff.mp h

/-- Runs compose. -/
theorem follow_append {s t : σ} {es fs : List ε} (h : follow step s es = some t) :
    follow step s (es ++ fs) = follow step t fs := by
  induction es generalizing s with
  | nil =>
      cases h
      rfl
  | cons e es ih =>
      rcases follow_cons h with ⟨s', hstep, hrest⟩
      rw [List.cons_append, follow, hstep, Option.bind_some]
      exact ih hrest

/-- Steps that meet the condition preserve {lit}`Inv`, so runs all of whose steps
do preserve it. -/
theorem follow_invariant {Inv : σ → Prop} {P : σ → ε → Prop}
    (hstep : ∀ {s s' e}, Inv s → P s e → step s e = some s' → Inv s')
    {s t : σ} {es : List ε} (hs : Inv s) (hes : Along step P s es)
    (h : follow step s es = some t) : Inv t := by
  induction es generalizing s with
  | nil =>
      cases h
      exact hs
  | cons e es ih =>
      rcases follow_cons h with ⟨s', hone, hrest⟩
      exact ih (hstep hs hes.1 hone) (hes.2 s' hone) hrest

/-- A relation between states and what was observed so far, kept by steps that meet
the condition, is kept by runs all of whose steps do. -/
theorem observe_invariant {obs : σ → ε → List ω} {Inv : σ → List ω → Prop} {P : σ → ε → Prop}
    (hstep : ∀ {s s' e seen}, Inv s seen → P s e → step s e = some s' → Inv s' (seen ++ obs s e))
    {s t : σ} {es : List ε} {seen : List ω} (hs : Inv s seen) (hes : Along step P s es)
    (h : follow step s es = some t) : Inv t (seen ++ observe step obs s es) := by
  induction es generalizing s seen with
  | nil =>
      cases h
      rw [observe, List.append_nil]
      exact hs
  | cons e es ih =>
      rcases follow_cons h with ⟨s', hone, hrest⟩
      have hlater := ih (hstep hs hes.1 hone) (hes.2 s' hone) hrest
      simp only [observe, hone]
      rw [← List.append_assoc]
      exact hlater

/-- A condition on the events alone holds along a run if it holds of each event. -/
theorem along_of_forall {P : ε → Prop} {es : List ε} (h : ∀ e ∈ es, P e) (s : σ) :
    Along step (fun _ e => P e) s es := by
  induction es generalizing s with
  | nil => trivial
  | cons e es ih => exact ⟨h e (by simp), fun s' _ => ih (fun e he => h e (by simp [he])) s'⟩

/-- Two conditions hold along a run. -/
theorem Along.and {P Q : σ → ε → Prop} {s : σ} {es : List ε} (hP : Along step P s es)
    (hQ : Along step Q s es) : Along step (fun s e => P s e ∧ Q s e) s es := by
  induction es generalizing s with
  | nil => trivial
  | cons e es ih =>
      exact ⟨⟨hP.1, hQ.1⟩, fun s' hstep => ih (hP.2 s' hstep) (hQ.2 s' hstep)⟩

/-- A condition holds along the two parts of a run. -/
theorem along_append {P : σ → ε → Prop} {s t : σ} {es fs : List ε}
    (hrun : follow step s es = some t) (h : Along step P s (es ++ fs)) :
    Along step P s es ∧ Along step P t fs := by
  induction es generalizing s with
  | nil =>
      cases hrun
      exact ⟨trivial, h⟩
  | cons e es ih =>
      rcases follow_cons hrun with ⟨s', hstep, hrest⟩
      have hfirst := ih hrest (h.2 s' hstep)
      refine ⟨⟨h.1, fun s'' hstep' => ?_⟩, hfirst.2⟩
      rw [hstep] at hstep'
      cases hstep'
      exact hfirst.1

/-- Conditions along runs compose. -/
theorem Along.append {P : σ → ε → Prop} {s t : σ} {es fs : List ε} (hes : Along step P s es)
    (hrun : follow step s es = some t) (hfs : Along step P t fs) : Along step P s (es ++ fs) := by
  induction es generalizing s with
  | nil =>
      cases hrun
      exact hfs
  | cons e es ih =>
      rcases follow_cons hrun with ⟨s', hstep, hrest⟩
      refine ⟨hes.1, fun s'' hstep' => ?_⟩
      rw [hstep] at hstep'
      cases hstep'
      exact ih (hes.2 s' hstep) hrest

/-- A condition holds along a run if it holds behind each of its prefixes. -/
theorem along_of_prefixes {P : σ → ε → Prop} {s : σ} {es : List ε}
    (h : ∀ first e second m, es = first ++ e :: second → follow step s first = some m → P m e) :
    Along step P s es := by
  induction es generalizing s with
  | nil => trivial
  | cons e es ih =>
      refine ⟨h [] e es s rfl rfl, fun s' hstep => ih ?_⟩
      intro first e' second m hsplit hrun
      refine h (e :: first) e' second m (by rw [hsplit]; rfl) ?_
      rw [follow, hstep]
      exact hrun

/-- An event that makes a measure smaller until a state is reached. -/
theorem exists_follow_replicate {α : Type} [LT α] [WellFoundedLT α] {e : ε} (m : σ → α)
    {Inv Stop : σ → Prop}
    (hstep : ∀ s, Inv s → ¬ Stop s → ∃ s', step s e = some s' ∧ Inv s' ∧ m s' < m s) (s : σ)
    (hs : Inv s) : ∃ n s', follow step s (List.replicate n e) = some s' ∧ Inv s' ∧ Stop s' := by
  induction hm : m s using WellFoundedLT.induction generalizing s with
  | ind a ih =>
      by_cases hstop : Stop s
      · exact ⟨0, s, rfl, hs, hstop⟩
      · rcases hstep s hs hstop with ⟨s', hone, hs', hlt⟩
        rcases ih (m s') (hm ▸ hlt) s' hs' rfl with ⟨n, s'', hrest, hinv, hend⟩
        refine ⟨n + 1, s'', ?_, hinv, hend⟩
        rw [List.replicate_succ, follow, hone]
        exact hrest

/-- A condition along a run can be checked by running it. -/
instance decidableAlong {P : σ → ε → Prop} [∀ s e, Decidable (P s e)] :
    ∀ (s : σ) (es : List ε), Decidable (Along step P s es)
  | _, [] => .isTrue trivial
  | s, e :: es =>
      match hstep : step s e with
      | none => decidable_of_iff (P s e) ⟨fun h => ⟨h, by simp [hstep]⟩, fun h => h.1⟩
      | some s' =>
          have : Decidable (Along step P s' es) := decidableAlong s' es
          decidable_of_iff (P s e ∧ Along step P s' es)
            ⟨fun h => ⟨h.1, by simp [hstep, h.2]⟩, fun h => ⟨h.1, h.2 s' hstep⟩⟩

end Follow

end Execution
