import Mathlib.Data.Set.Basic
import Mathlib.Order.Disjoint
import Mathlib.Data.Set.Lattice
import Mathlib.Order.CompletePartialOrder

/-!
# Operations that are local to a set of keys

An operation takes a table to the table behind it and a result.  It is local to
a set of keys if it leaves the other keys alone and if its result, and what it
stores, depend on these keys only.  Operations that are local to disjoint sets
commute.

Main results:

- Theorem {lit}`Frame.Local.commute`: two operations on disjoint sets of keys
  give the same results and the same table in either order.
-/

namespace Frame

universe u v w

variable {K : Type u} {V : Type v} {R : Type w}

/-- Two tables agree on a set of keys. -/
def AgreeOn (keys : Set K) (t t' : K → V) : Prop :=
  ∀ key ∈ keys, t key = t' key

/-- The operation reads and writes only the keys of the set. -/
structure Local (keys : Set K) (f : (K → V) → (K → V) × R) : Prop where
  /-- The other keys are left alone. -/
  frame : ∀ t key, key ∉ keys → (f t).1 key = t key
  /-- The result depends on the keys of the set only. -/
  result : ∀ t t', AgreeOn keys t t' → (f t).2 = (f t').2
  /-- So does what is stored at them. -/
  stored : ∀ t t', AgreeOn keys t t' → AgreeOn keys (f t).1 (f t').1

namespace Local

variable {keys keys' : Set K} {f : (K → V) → (K → V) × R}

/-- An operation that leaves the table alone and reads only the keys of the set. -/
theorem of_reads (hfixed : ∀ t, (f t).1 = t)
    (hresult : ∀ t t', AgreeOn keys t t' → (f t).2 = (f t').2) : Local keys f where
  frame t key _ := by rw [hfixed]
  result := hresult
  stored t t' hagree := by
    rw [hfixed, hfixed]
    exact hagree

/-- An operation that does not look at the table. -/
theorem const (keys : Set K) (r : R) : Local keys fun t : K → V => (t, r) :=
  of_reads (fun _ => rfl) fun _ _ _ => rfl

/-- An operation on one key: the other keys are left alone, and what is found at
the key decides. -/
theorem of_key {key : K} (hframe : ∀ t key', key' ≠ key → (f t).1 key' = t key')
    (hkey : ∀ t t', t key = t' key → (f t).2 = (f t').2 ∧ (f t).1 key = (f t').1 key) :
    Local {key} f where
  frame t key' hnot := hframe t key' hnot
  result t t' hagree := (hkey t t' (hagree key rfl)).1
  stored t t' hagree key' hmem := by
    rw [Set.mem_singleton_iff.mp hmem]
    exact (hkey t t' (hagree key rfl)).2

/-- The result of an operation is turned into another one. -/
theorem map {S : Type*} {g : R → S} {h : (K → V) → (K → V) × S} (hf : Local keys f)
    (hmap : ∀ t, h t = ((f t).1, g (f t).2)) : Local keys h where
  frame t := by
    rw [hmap]
    exact hf.frame t
  result t t' hagree := by
    rw [hmap, hmap, hf.result t t' hagree]
  stored t t' hagree := by
    rw [hmap, hmap]
    exact hf.stored t t' hagree

/-- The case distinction on a value that reads only the keys of the set. -/
theorem bind {A : Type*} {a : (K → V) → A} (ha : ∀ t t', AgreeOn keys t t' → a t = a t')
    {h : A → (K → V) → (K → V) × R} (hlocal : ∀ x, Local keys (h x)) :
    Local keys fun t => h (a t) t where
  frame t := (hlocal (a t)).frame t
  result t t' hagree := by
    simp only [ha t t' hagree]
    exact (hlocal (a t')).result t t' hagree
  stored t t' hagree := by
    simp only [ha t t' hagree]
    exact (hlocal (a t')).stored t t' hagree

/-- An operation is local to every larger set. -/
theorem mono (hf : Local keys f) (hsub : keys ⊆ keys') : Local keys' f where
  frame t key hnot := hf.frame t key fun hmem => hnot (hsub hmem)
  result t t' hagree := hf.result t t' fun key hmem => hagree key (hsub hmem)
  stored t t' hagree key hmem := by
    by_cases hin : key ∈ keys
    · exact hf.stored t t' (fun key hmem => hagree key (hsub hmem)) key hin
    · rw [hf.frame t key hin, hf.frame t' key hin]
      exact hagree key hmem

/-- An operation on other keys cannot be told from none. -/
theorem agreeOn_of_disjoint {S : Type*} {g : (K → V) → (K → V) × S} (hg : Local keys' g)
    (hdisjoint : Disjoint keys keys') (t : K → V) :
    AgreeOn keys (g t).1 t :=
  fun key hmem => hg.frame t key (Set.disjoint_left.mp hdisjoint hmem)

/-- Operations on disjoint sets of keys commute. -/
theorem commute {S : Type*} {g : (K → V) → (K → V) × S} (hf : Local keys f) (hg : Local keys' g)
    (hdisjoint : Disjoint keys keys') (t : K → V) :
    (f (g t).1).2 = (f t).2 ∧ (g (f t).1).2 = (g t).2 ∧ (g (f t).1).1 = (f (g t).1).1 := by
  have hfirst := hg.agreeOn_of_disjoint hdisjoint t
  have hsecond := hf.agreeOn_of_disjoint hdisjoint.symm t
  refine ⟨hf.result _ _ hfirst, hg.result _ _ hsecond, funext fun key => ?_⟩
  by_cases hkey : key ∈ keys
  · -- the second operation does not reach a key of the first
    have hnot := Set.disjoint_left.mp hdisjoint hkey
    rw [hg.frame _ key hnot, hf.stored _ _ hfirst key hkey]
  · rw [hf.frame _ key hkey]
    by_cases hkey' : key ∈ keys'
    · exact hg.stored _ _ hsecond key hkey'
    · rw [hg.frame _ key hkey', hg.frame _ key hkey', hf.frame _ key hkey]

end Local

end Frame
