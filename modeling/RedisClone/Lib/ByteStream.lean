import Mathlib.Data.List.Basic
import Mathlib.Tactic

/-!
# Incremental stream machines

A reader of a byte stream keeps what it has not consumed yet in a buffer and
takes a step as soon as the buffer decides one.  If a decided step does not
depend on bytes that arrive later, then the reader cannot observe how the stream
was cut into chunks.

Main results:

- Theorem {lit}`drain_append`: draining a buffer and then more bytes is draining
  both at once.
- Theorem {lit}`feedAll_eq_drain`: feeding chunks one after the other is draining
  their concatenation.
- Theorem {lit}`drain_induction`: what every step preserves, a drain preserves.
-/

/-- A reader that consumes a prefix of its buffer in each step.  A step returns
the next state, the unread rest and the outputs; {lit}`none` waits for more. -/
structure StreamMachine (σ β ω : Type) where
  step : σ → List β → Option (σ × List β × List ω)
  /-- Bounds the number of steps that a buffer decides. -/
  size : σ → List β → Nat
  step_append : ∀ {s s' buf rest out}, step s buf = some (s', rest, out) →
    ∀ more, step s (buf ++ more) = some (s', rest ++ more, out)
  size_lt : ∀ {s s' buf rest out}, step s buf = some (s', rest, out) →
    size s' rest < size s buf

namespace StreamMachine

variable {σ β ω : Type} (m : StreamMachine σ β ω)

/-- Take steps until the buffer decides none. -/
def drain (s : σ) (buf : List β) : σ × List β × List ω :=
  match _h : m.step s buf with
  | none => (s, buf, [])
  | some (s', rest, out) =>
      let r := drain s' rest
      (r.1, r.2.1, out ++ r.2.2)
termination_by m.size s buf
decreasing_by exact m.size_lt _h

/-- A buffer that decides nothing is left as it is. -/
theorem drain_of_none {s : σ} {buf : List β} (h : m.step s buf = none) :
    m.drain s buf = (s, buf, []) := by
  rw [drain]
  split
  · rfl
  · rename_i hstep
    rw [h] at hstep
    contradiction

/-- One step of a drain. -/
theorem drain_of_some {s s' : σ} {buf rest : List β} {out : List ω}
    (h : m.step s buf = some (s', rest, out)) :
    m.drain s buf = ((m.drain s' rest).1, (m.drain s' rest).2.1, out ++ (m.drain s' rest).2.2) := by
  rw [drain]
  split
  · rename_i hstep
    rw [h] at hstep
    contradiction
  · rename_i hstep
    rw [h] at hstep
    cases hstep
    rfl

/-- What holds of the start of a drain and is preserved by each step holds of
its end.  The last argument collects the outputs. -/
theorem drain_induction (P : σ → List β → List ω → Prop)
    (hstep : ∀ {s s' buf rest out acc}, m.step s buf = some (s', rest, out) →
      P s buf acc → P s' rest (acc ++ out))
    (s : σ) (buf : List β) (acc : List ω) (h : P s buf acc) :
    P (m.drain s buf).1 (m.drain s buf).2.1 (acc ++ (m.drain s buf).2.2) := by
  induction s, buf using drain.induct m generalizing acc with
  | case1 s buf hnone =>
      rw [m.drain_of_none hnone]
      simpa using h
  | case2 s buf s' rest out hsome ih =>
      rw [m.drain_of_some hsome]
      simpa using ih (acc ++ out) (hstep hsome h)

/-- A drained buffer decides no further step. -/
theorem step_drain (s : σ) (buf : List β) :
    m.step (m.drain s buf).1 (m.drain s buf).2.1 = none := by
  induction s, buf using drain.induct m with
  | case1 s buf hnone =>
      rw [m.drain_of_none hnone]
      exact hnone
  | case2 s buf s' rest out hsome ih =>
      rw [m.drain_of_some hsome]
      exact ih

/-- Draining does not depend on when the later bytes arrive. -/
theorem drain_append (s : σ) (buf more : List β) :
    m.drain s (buf ++ more) =
      ((m.drain (m.drain s buf).1 ((m.drain s buf).2.1 ++ more)).1,
        (m.drain (m.drain s buf).1 ((m.drain s buf).2.1 ++ more)).2.1,
        (m.drain s buf).2.2 ++ (m.drain (m.drain s buf).1 ((m.drain s buf).2.1 ++ more)).2.2) := by
  induction s, buf using drain.induct m with
  | case1 s buf hnone => simp [m.drain_of_none hnone]
  | case2 s buf s' rest out hsome ih =>
      rw [m.drain_of_some (m.step_append hsome more), m.drain_of_some hsome, ih]
      simp

/-! ## Feeding chunks -/

/-- A chunk arrives behind the buffer. -/
def feed (s : σ) (buf chunk : List β) : σ × List β × List ω :=
  m.drain s (buf ++ chunk)

/-- Chunks arrive one after the other. -/
def feedAll (s : σ) (buf : List β) : List (List β) → σ × List β × List ω
  | [] => (s, buf, [])
  | chunk :: chunks =>
      let (s', rest, out) := m.feed s buf chunk
      let (s'', rest', out') := feedAll s' rest chunks
      (s'', rest', out ++ out')

/-- The chunks can be joined: a machine that waits on its buffer cannot tell how
the bytes behind it were cut. -/
theorem feedAll_eq_drain {s : σ} {buf : List β} (hwait : m.step s buf = none)
    (chunks : List (List β)) :
    m.feedAll s buf chunks = m.drain s (buf ++ chunks.flatten) := by
  induction chunks generalizing s buf with
  | nil =>
      rw [feedAll, List.flatten_nil, List.append_nil, m.drain_of_none hwait]
  | cons chunk chunks ih =>
      have hwait' := m.step_drain s (buf ++ chunk)
      rw [List.flatten_cons, ← List.append_assoc, m.drain_append, ← ih hwait']
      rfl

end StreamMachine
