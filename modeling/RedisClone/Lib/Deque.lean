import Mathlib.Tactic

/-!
# Elements of a double-ended queue

Elements are put at either end of a queue and taken from its front.  The movements
of a run are recorded, so that one can say where every element is: it was delivered,
or it is still in the queue.

Main results:

- Theorem {lit}`Step.conserved`: what was put in is what was delivered together with
  what is left.
- Theorem {lit}`QueueStep.in_order`: without pushes to the front, elements leave in
  the order in which they came.
-/

namespace Deque

variable {α : Type}

/-- An element comes or leaves. -/
inductive Movement (α : Type) where
  | pushed (element : α)
  | delivered (element : α)

/-- The elements that came. -/
def pushed (moved : List (Movement α)) : List α :=
  moved.filterMap fun
    | .pushed element => some element
    | .delivered _ => none

/-- The elements that left. -/
def delivered (moved : List (Movement α)) : List α :=
  moved.filterMap fun
    | .pushed _ => none
    | .delivered element => some element

@[simp]
theorem pushed_append (seen moved : List (Movement α)) :
    pushed (seen ++ moved) = pushed seen ++ pushed moved :=
  List.filterMap_append

@[simp]
theorem delivered_append (seen moved : List (Movement α)) :
    delivered (seen ++ moved) = delivered seen ++ delivered moved :=
  List.filterMap_append

@[simp]
theorem pushed_map_pushed (elements : List α) : pushed (elements.map .pushed) = elements := by
  simp [pushed, List.filterMap_map]

@[simp]
theorem pushed_map_delivered (elements : List α) : pushed (elements.map .delivered) = [] := by
  simp [pushed]

@[simp]
theorem delivered_map_pushed (elements : List α) : delivered (elements.map .pushed) = [] := by
  simp [delivered]

@[simp]
theorem delivered_map_delivered (elements : List α) :
    delivered (elements.map .delivered) = elements := by
  simp [delivered, List.filterMap_map]

/-- A step of a queue whose elements leave at the front. -/
inductive QueueStep : List α → List (Movement α) → List α → Prop where
  | back (queue elements : List α) :
      QueueStep queue (elements.map .pushed) (queue ++ elements)
  | take (elements queue : List α) :
      QueueStep (elements ++ queue) (elements.map .delivered) queue

/-- A step of a queue that elements may also be put in front of, one after the
other. -/
inductive Step : List α → List (Movement α) → List α → Prop where
  | queue {before behind : List α} {moved : List (Movement α)}
      (h : QueueStep before moved behind) : Step before moved behind
  | front (queue elements : List α) :
      Step queue (elements.map .pushed) (elements.reverse ++ queue)

/-- Nothing happens to a queue. -/
theorem QueueStep.refl (queue : List α) : QueueStep queue [] queue := by
  simpa using QueueStep.take [] queue

/-- Elements leave in the order in which they came. -/
theorem QueueStep.in_order {before behind : List α} {seen moved : List (Movement α)}
    (hstep : QueueStep before moved behind) (h : pushed seen = delivered seen ++ before) :
    pushed (seen ++ moved) = delivered (seen ++ moved) ++ behind := by
  cases hstep with
  | back queue elements => simp [h]
  | take elements queue => simp [h]

/-- Every element that came was delivered, or is left. -/
theorem Step.conserved {before behind : List α} {seen moved : List (Movement α)}
    (hstep : Step before moved behind) (h : (pushed seen).Perm (delivered seen ++ before)) :
    (pushed (seen ++ moved)).Perm (delivered (seen ++ moved) ++ behind) := by
  cases hstep with
  | queue hqueue =>
      cases hqueue with
      | back queue elements =>
          rw [pushed_append, delivered_append, pushed_map_pushed, delivered_map_pushed,
            List.append_nil, ← List.append_assoc]
          exact h.append_right elements
      | take elements queue =>
          rw [pushed_append, delivered_append, pushed_map_delivered, delivered_map_delivered,
            List.append_nil, List.append_assoc]
          exact h
  | front elements =>
      rw [pushed_append, delivered_append, pushed_map_pushed, delivered_map_pushed, List.append_nil]
      calc (pushed seen ++ elements).Perm (delivered seen ++ before ++ elements) :=
            h.append_right elements
        _ = delivered seen ++ (before ++ elements) := List.append_assoc _ _ _
        (delivered seen ++ (before ++ elements)).Perm
            (delivered seen ++ (elements.reverse ++ before)) :=
          ((List.perm_append_comm).trans
            ((List.reverse_perm elements).symm.append_right before)).append_left _

end Deque
