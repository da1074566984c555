import RedisClone.Util.Text

/-!
# The keyspace, its strings and its lists

The store is one table from keys to values with an optional deadline.
{lit}`StringStore` and {lit}`ListStore` are operations on that table.  A key
whose deadline has passed stays in the table until {lit}`get`, {lit}`incr` or
{lit}`type` looks at it; the list operations do not look at deadlines.

Every operation returns the table behind it, and the clock reading is an
argument, so that one call of an operation is one function application.
-/

namespace RedisClone

/-! ## Values -/

/-- {lit}`StreamEntry`. -/
structure StreamEntry where
  id : Bytes
  fields : List (Bytes × Bytes)
deriving DecidableEq, Repr

/-- {lit}`StoreValue::ValueVariant`. -/
inductive Value where
  | string (str : Bytes)
  | list (elements : List Bytes)
  | stream (entries : List StreamEntry)
deriving DecidableEq, Repr

/-- {lit}`StoreValue`: a value and its deadline on the steady clock. -/
structure StoreValue where
  value : Value
  expiresAt : Option Int
deriving DecidableEq, Repr

/-- {lit}`StoreValue::StoreValue`: the variant starts as an empty string. -/
def StoreValue.default : StoreValue :=
  ⟨.string [], none⟩

/-- The deadline lies before the clock reading. -/
def StoreValue.expired (v : StoreValue) (now : Int) : Bool :=
  v.expiresAt.any (· < now)

/-- {lit}`StoreType::to_string` of {lit}`StoreValue::type`. -/
def StoreValue.typeName (v : StoreValue) : Bytes :=
  match v.value with
  | .string _ => ascii "string"
  | .list _ => ascii "list"
  | .stream _ => ascii "stream"

/-- The table {lit}`data_` that the parts of the store share. -/
abbrev Store := Bytes → Option StoreValue

namespace Store

/-- No key is set. -/
def empty : Store :=
  fun _ => none

/-- Assignment to {lit}`data_[key]`. -/
def put (d : Store) (key : Bytes) (v : StoreValue) : Store :=
  Function.update d key (some v)

/-- {lit}`data_.erase`. -/
def erase (d : Store) (key : Bytes) : Store :=
  Function.update d key none

/-- {lit}`data_[key]`: a missing key is created with the default value. -/
def slot (d : Store) (key : Bytes) : StoreValue :=
  (d key).getD .default

@[simp]
theorem put_same (d : Store) (key : Bytes) (v : StoreValue) : d.put key v key = some v :=
  Function.update_self ..

@[simp]
theorem put_of_ne {key key' : Bytes} (h : key' ≠ key) (d : Store) (v : StoreValue) :
    d.put key v key' = d key' :=
  Function.update_of_ne h ..

@[simp]
theorem erase_same (d : Store) (key : Bytes) : d.erase key key = none :=
  Function.update_self ..

@[simp]
theorem erase_of_ne {key key' : Bytes} (h : key' ≠ key) (d : Store) :
    d.erase key key' = d key' :=
  Function.update_of_ne h ..

/-- Writing back what a key holds changes nothing. -/
theorem put_self {d : Store} {key : Bytes} {v : StoreValue} (h : d key = some v) :
    d.put key v = d := by
  unfold put
  rw [← h]
  exact Function.update_eq_self key d

/-! ## {lit}`StringStore` -/

/-- The error of an operation on a value of another type. -/
def wrongType : Bytes :=
  ascii "-WRONGTYPE Operation against a key holding the wrong kind of value"

/-- The error of an operation on a key that is not set. -/
def keyNotFound : Bytes :=
  ascii "Key not found"

/-- The error of {lit}`incr`. -/
def notAnInteger : Bytes :=
  ascii "-ERR value is not an integer or out of range\r\n"

/-- {lit}`StringStore::set` without a time to live. -/
def set (d : Store) (key value : Bytes) : Store :=
  d.put key ⟨.string value, none⟩

/-- {lit}`StringStore::set` with a time to live in milliseconds; the deadline is
computed in 64-bit nanoseconds. -/
def setTtl (d : Store) (key value : Bytes) (ttl now : Int) : Store :=
  d.put key ⟨.string value, some (wrapLongLong (now + wrapLongLong (ttl * 1000000)))⟩

/-- {lit}`StringStore::get`. -/
def get (d : Store) (key : Bytes) (now : Int) : Store × Except Bytes Bytes :=
  match d key with
  | none => (d, .error keyNotFound)
  | some v =>
      if v.expired now then (d.erase key, .error keyNotFound)
      else
        match v.value with
        | .string str => (d, .ok str)
        | _ => (d, .error wrongType)

/-- {lit}`StringStore::incr` for a key that is set and has not expired. -/
def incrValue (d : Store) (key : Bytes) (v : StoreValue) : Store × Except Bytes Int :=
  match v.value with
  | .string str =>
      match fromCharsLongLong str with
      | some (n, []) =>
          if n = longLongMax then (d, .error notAnInteger)
          else (d.put key ⟨.string (Decimal.renderInt (n + 1)), v.expiresAt⟩, .ok (n + 1))
      | _ => (d, .error notAnInteger)
  | _ => (d, .error notAnInteger)

/-- A string is replaced, or nothing happens. -/
theorem incrValue_cases (d : Store) (key : Bytes) (v : StoreValue) :
    (∃ n, d.incrValue key v =
      (d.put key ⟨.string (Decimal.renderInt n), v.expiresAt⟩, .ok n)) ∨
      d.incrValue key v = (d, .error notAnInteger) := by
  unfold incrValue
  split
  · split
    · split
      · exact Or.inr rfl
      · exact Or.inl ⟨_, rfl⟩
    · exact Or.inr rfl
  · exact Or.inr rfl

/-- {lit}`StringStore::incr` for a key that is not set. -/
def incrFresh (d : Store) (key : Bytes) : Store × Except Bytes Int :=
  (d.put key ⟨.string (Decimal.renderInt 1), none⟩, .ok 1)

/-- {lit}`StringStore::incr`. -/
def incr (d : Store) (key : Bytes) (now : Int) : Store × Except Bytes Int :=
  match d key with
  | none => d.incrFresh key
  | some v => if v.expired now then (d.erase key).incrFresh key else d.incrValue key v

/-- {lit}`Store::type`. -/
def type (d : Store) (key : Bytes) (now : Int) : Store × Bytes :=
  match d key with
  | none => (d, ascii "none")
  | some v => if v.expired now then (d.erase key, ascii "none") else (d, v.typeName)

/-! ## {lit}`ListStore` -/

/-- The list in a slot; a value of another type is replaced by an empty list. -/
def listSlot (v : StoreValue) : List Bytes :=
  match v.value with
  | .list elements => elements
  | _ => []

/-- A push: the list in the slot is changed, the deadline of the slot stays. -/
def push (d : Store) (key : Bytes) (change : List Bytes → List Bytes) : Store × Nat :=
  let elements := change (listSlot (d.slot key))
  (d.put key ⟨.list elements, (d.slot key).expiresAt⟩, elements.length)

/-- {lit}`ListStore::rpush`. -/
def rpush (d : Store) (key : Bytes) (values : List Bytes) : Store × Nat :=
  d.push key (· ++ values)

/-- {lit}`ListStore::lpush`: each value is pushed to the front in turn. -/
def lpush (d : Store) (key : Bytes) (values : List Bytes) : Store × Nat :=
  d.push key fun elements => values.foldl (fun list value => value :: list) elements

/-- {lit}`resolve_list_indices`; the sums are {lit}`long long` sums. -/
def resolveListIndices (start stop size : Int) : Option (Int × Int) :=
  let start := if start < 0 then max 0 (wrapLongLong (start + size)) else start
  let stop := if stop < 0 then wrapLongLong (stop + size) else stop
  if start ≥ size ∨ start > stop then none else some (start, min stop (size - 1))

/-- Resolved indices are in order and inside the list. -/
theorem resolveListIndices_bounds {start stop size first last : Int}
    (h : resolveListIndices start stop size = some (first, last)) :
    0 ≤ first ∧ first ≤ last ∧ last + 1 ≤ size := by
  unfold resolveListIndices at h
  have hstart : 0 ≤ if start < 0 then max 0 (wrapLongLong (start + size)) else start := by
    split <;> omega
  simp only at h
  generalize (if start < 0 then max 0 (wrapLongLong (start + size)) else start) = lower at h hstart
  generalize (if stop < 0 then wrapLongLong (stop + size) else stop) = upper at h
  split at h
  · contradiction
  · simp only [Option.some.injEq, Prod.mk.injEq] at h
    omega

/-- {lit}`ListStore::lrange`. -/
def lrange (d : Store) (key : Bytes) (start stop : Int) : List Bytes :=
  match d key with
  | some ⟨.list elements, _⟩ =>
      match resolveListIndices start stop elements.length with
      | some (first, last) => (elements.take (last + 1).toNat).drop first.toNat
      | none => []
  | _ => []

/-- {lit}`ListStore::llen`. -/
def llen (d : Store) (key : Bytes) : Nat :=
  match d key with
  | some ⟨.list elements, _⟩ => elements.length
  | _ => 0

/-- {lit}`ListStore::lpop`: a list that is emptied is erased. -/
def lpop (d : Store) (key : Bytes) (count : Nat) : Store × Except Bytes (List Bytes) :=
  match d key with
  | none => (d, .error keyNotFound)
  | some ⟨.list elements, expiresAt⟩ =>
      let popCount := min count elements.length
      let rest := elements.drop popCount
      (if rest = [] then d.erase key else d.put key ⟨.list rest, expiresAt⟩,
        .ok (elements.take popCount))
  | some _ => (d, .error wrongType)

end Store

end RedisClone
