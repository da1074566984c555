import RedisClone.Store.Store
import RedisClone.Store.StreamIdUtils

/-!
# The streams of the keyspace

{lit}`StreamStore::xadd` creates the key before it looks at the identifier, so a
rejected identifier leaves an empty stream behind.  Ranges and cursors parse the
identifier of every entry they pass, and an identifier that cannot be parsed
throws.
-/

namespace RedisClone

namespace Store

open StreamUtils

/-- The entries in a slot; {lit}`xadd` replaces the default value by an empty
stream. -/
def streamSlot (v : StoreValue) : List StreamEntry :=
  match v.value with
  | .stream entries => entries
  | _ => []

/-- The identifier of the last entry, empty if there is none. -/
def lastId (entries : List StreamEntry) : Bytes :=
  match entries.getLast? with
  | some entry => entry.id
  | none => []

/-- The key holds a value that is not a stream. -/
def holdsOther (d : Store) (key : Bytes) : Bool :=
  match d key with
  | some ⟨.stream _, _⟩ => false
  | some _ => true
  | none => false

/-- {lit}`StreamStore::xadd`: only {lit}`std::invalid_argument` is turned into an
error of the operation. -/
def xadd (d : Store) (key streamId : Bytes) (fields : List (Bytes × Bytes)) (now : Int) :
    Store × Except Exception (Except Bytes Bytes) :=
  if d.holdsOther key then (d, .ok (.error wrongType))
  else
    let entries := streamSlot (d.slot key)
    let expiresAt := (d.slot key).expiresAt
    match generateStreamId streamId (lastId entries) now with
    | .ok newId =>
        (d.put key ⟨.stream (entries ++ [⟨newId, fields⟩]), expiresAt⟩, .ok (.ok newId))
    | .error (.invalidArgument what) =>
        (d.put key ⟨.stream entries, expiresAt⟩, .ok (.error (ascii "-ERR " ++ what)))
    | .error e => (d.put key ⟨.stream entries, expiresAt⟩, .error e)

/-- The first bound lies above the second, as {lit}`xrange` and {lit}`xread`
compare them. -/
def above (a b : StreamBoundParts) : Bool :=
  a.ms > b.ms ∨ (a.ms = b.ms ∧ a.seq > b.seq)

/-- The first bound is not below the second, as {lit}`xrange` compares them. -/
def notBelow (a b : StreamBoundParts) : Bool :=
  a.ms > b.ms ∨ (a.ms = b.ms ∧ a.seq ≥ b.seq)

/-- The loop of {lit}`xrange`: it stops at the first entry above the end. -/
def xrangeEntries (first last : StreamBoundParts) :
    List StreamEntry → Except Exception (List StreamEntry)
  | [] => .ok []
  | entry :: entries => do
      let bound ← parseStreamBound entry.id true
      if above bound last then return []
      else
        let rest ← xrangeEntries first last entries
        return if notBelow bound first then entry :: rest else rest

/-- {lit}`StreamStore::xrange`; the bounds of a missing stream are not parsed. -/
def xrange (d : Store) (key start stop : Bytes) : Except Exception (List StreamEntry) :=
  match d key with
  | some ⟨.stream entries, _⟩ => do
      let first ← parseStreamBound start true
      let last ← parseStreamBound stop false
      xrangeEntries first last entries
  | _ => .ok []

/-- The inner loop of {lit}`xread`: the entries above a cursor. -/
def xreadEntries (target : StreamBoundParts) :
    List StreamEntry → Except Exception (List StreamEntry)
  | [] => .ok []
  | entry :: entries => do
      let bound ← parseStreamBound entry.id true
      let rest ← xreadEntries target entries
      return if above bound target then entry :: rest else rest

/-- {lit}`StreamStore::xread`: the streams that have entries above their cursor. -/
def xread (d : Store) : List (Bytes × Bytes) → Except Exception (List (Bytes × List StreamEntry))
  | [] => .ok []
  | (key, cursor) :: streams => do
      let target ← parseStreamBound cursor true
      let entries ←
        match d key with
        | some ⟨.stream entries, _⟩ => xreadEntries target entries
        | _ => pure []
      let rest ← d.xread streams
      return if entries = [] then rest else (key, entries) :: rest

end Store

end RedisClone
