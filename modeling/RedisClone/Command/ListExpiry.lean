import RedisClone.Command.Expiry
import RedisClone.Command.Exceptions
import RedisClone.Command.KeyspaceTypes

/-!
# Expired keys in the list and stream commands

The list and stream operations do not look at deadlines.  A key that {lit}`SET`
gave a deadline keeps it when a push puts a list in the place of the string, so the
list commands work on keys that {lit}`GET` and {lit}`TYPE` take for absent.

Main results:

- Theorem {lit}`expired_key_unseen_iff`: which list and stream commands treat an
  expired key like an absent one.
- Theorem {lit}`push_on_expired_key`: a push on an expired key is acknowledged and
  gone.
-/

namespace RedisClone

/-- The command replies the same, and leaves the same live entries, as if the key
were absent. -/
def AsIfAbsent (now : Int) (d : Store) (key : Bytes) (run : Store → CommandResult) : Prop :=
  (run d).2 = (run (d.erase key)).2 ∧ (run d).1.purge now = (run (d.erase key)).1.purge now

/-- {lit}`RPUSH`, {lit}`LPUSH`, {lit}`LRANGE`, {lit}`LLEN`, {lit}`LPOP`,
{lit}`BLPOP`, {lit}`XADD`, {lit}`XRANGE` and {lit}`XREAD`. -/
def isListOrStreamCommand (type : CommandType) : Bool :=
  type.worksOn = some .list ∨ type.worksOn = some .stream

/-- One of the keys ahead of the given one holds a list. -/
def listAhead (d : Store) (key : Bytes) (keys : List Bytes) : Prop :=
  ∃ key' ∈ keys.takeWhile (· ≠ key), ∃ v, d key' = some v ∧ v.type = .list

/-- The command does not get to see the value at the key: it fails ahead of the
lookup, it finds a list at another key, or it reads and there is nothing to read. -/
def Unseen (cmd : Command) (d : Store) (key : Bytes) (v : StoreValue) : Prop :=
  match cmd.type with
  | .rpush | .lpush => cmd.args.length < 2
  | .lrange =>
      cmd.args.length < 3 ∨ ∀ start stop, stoll (cmd.arg 1) = .ok start →
        stoll (cmd.arg 2) = .ok stop →
        Store.resolveListIndices start stop (Store.listSlot v).length = none
  | .llen => Store.listSlot v = []
  | .lpop => ∀ count, lpopCount cmd ≠ .ok count
  | .blpop =>
      (∀ timeout, stod (cmd.args.getLastD []) ≠ .ok timeout) ∨ v.type ≠ .list ∨
        listAhead d key cmd.args.dropLast
  | .xadd => cmd.args.length < 4 ∨ (cmd.args.length - 2) % 2 ≠ 0
  | _ => v.type ≠ .stream

/-- What holds of every table that commands build: lists have elements, and streams
have no deadline. -/
structure Store.Regular (d : Store) : Prop where
  noEmptyList : d.NoEmptyList
  undated : ∀ key v, d key = some v → v.type = .stream → v.expiresAt = none

namespace Store.Regular

variable {d : Store} {cmd : Command} {now : Reading}

theorem empty : Store.empty.Regular :=
  ⟨Store.NoEmptyList.empty, fun _ _ h => by contradiction⟩

theorem put (hd : d.Regular) (key : Bytes) {v : StoreValue} (hlist : v.value ≠ .list [])
    (hstream : v.type = .stream → v.expiresAt = none) : (d.put key v).Regular := by
  refine ⟨hd.noEmptyList.put key hlist, fun key' v' hv' htype => ?_⟩
  by_cases heq : key' = key
  · rw [heq, Store.put_same] at hv'
    cases hv'
    exact hstream htype
  · rw [Store.put_of_ne heq] at hv'
    exact hd.undated key' v' hv' htype

theorem erase (hd : d.Regular) (key : Bytes) : (d.erase key).Regular := by
  refine ⟨hd.noEmptyList.erase key, fun key' v hv htype => ?_⟩
  by_cases heq : key' = key
  · rw [heq, Store.erase_same] at hv
    contradiction
  · rw [Store.erase_of_ne heq] at hv
    exact hd.undated key' v hv htype

theorem lpop (hd : d.Regular) (key : Bytes) (count : Nat) : (d.lpop key count).1.Regular := by
  unfold Store.lpop
  split
  · exact hd
  · simp only
    split
    · exact hd.erase key
    · rename_i hrest
      exact hd.put key (fun heq => hrest (Value.list.inj heq)) (by simp [StoreValue.type])
  · exact hd

/-- {lit}`XADD` changes a stream, or makes one without a deadline. -/
theorem xadd (hd : d.Regular) (key id : Bytes) (fields : List (Bytes × Bytes)) (now : Int) :
    (d.xadd key id fields now).1.Regular := by
  unfold Store.xadd
  split
  · exact hd
  · rename_i hother
    have hdeadline : (d.slot key).expiresAt = none := by
      unfold Store.slot
      cases hv : d key with
      | none => rfl
      | some v =>
          refine hd.undated key v hv ?_
          unfold Store.holdsOther at hother
          rw [hv] at hother
          rcases v with ⟨_ | _ | _, expiresAt⟩
          · exact absurd rfl hother
          · exact absurd rfl hother
          · rfl
    simp only
    split <;> exact hd.put key (by simp) fun _ => hdeadline

/-- Every command keeps the table regular. -/
theorem of_dataCommand (hd : d.Regular) {body : Command → Reading → Store → CommandResult}
    (hbody : dataCommand cmd.type = some body) : (body cmd now d).1.Regular := by
  by_cases hxadd : cmd.type = .xadd
  · rw [hxadd] at hbody
    cases hbody
    have hadd := hd.xadd (cmd.arg 0) (cmd.arg 1) (pairs (cmd.args.drop 2)) now.system
    unfold xaddExecute
    split
    · exact hd
    · rcases hresult : d.xadd (cmd.arg 0) (cmd.arg 1) (pairs (cmd.args.drop 2)) now.system with
        ⟨d', _ | _ | _⟩ <;> rw [hresult] at hadd <;> exact hadd
  · have hacts : DataActs cmd now d (body cmd now d) := dataActs_of_dataCommand hbody
    generalize body cmd now d = result at hacts
    cases hacts with
    | replied | blocked | waits | threw => exact hd
    | removed htype hkey hexpired response => exact hd.erase _
    | written htype hargs str expiresAt response => exact hd.put _ (by simp) (by simp [StoreValue.type])
    | pushed htype hargs =>
        refine hd.put _ ?_ (by simp [StoreValue.type])
        intro hnil
        exact pushedElements_ne_nil hargs _ (Value.list.inj hnil)
    | @popped count d' values response htype hargs hcount hpop hreply =>
        have hpopped := hd.lpop (cmd.arg 0) count
        rw [hpop] at hpopped
        exact hpopped
    | poppedNone hpop e => exact absurd hpop hd.noEmptyList.lpop_one
    | @blpopped key value d' more htype hkey hpop =>
        have hpopped := hd.lpop key 1
        rw [hpop] at hpopped
        exact hpopped
    | appended htype hargs hid => exact absurd htype hxadd
    | created htype hargs hkey response => exact absurd htype hxadd

end Store.Regular

/-! ## Replies -/

/-- A bulk string can be read back from the front of a text. -/
theorem bulkReply_append_inj {a b x y : Bytes} (h : bulkReply a ++ x = bulkReply b ++ y) :
    a = b ∧ x = y := by
  unfold bulkReply at h
  simp only [List.append_assoc] at h
  have hcr : ∀ z : Bytes, ∀ b ∈ (crlf ++ z).head?, Decimal.isDigit b = false := by
    intro z b hb
    cases hb
    decide
  rcases Decimal.render_append_inj (hcr _) (hcr _) (List.append_cancel_left h) with ⟨hlength, hrest⟩
  have htext := List.append_cancel_left hrest
  rcases List.append_inj htext hlength with ⟨hab, htail⟩
  exact ⟨hab, List.append_cancel_left htail⟩

/-- The reply to {lit}`BLPOP` names the key. -/
theorem popReply_key {key key' value value' : Bytes}
    (h : popReply key value = popReply key' value') : key = key' := by
  unfold popReply at h
  simp only [List.append_assoc] at h
  exact (bulkReply_append_inj (List.append_cancel_left h)).1

/-- The reply with no element differs from every other one. -/
theorem bulkArray_eq_nil {texts : List Bytes} (h : bulkArray texts = bulkArray []) : texts = [] := by
  cases texts with
  | nil => rfl
  | cons text texts =>
      exfalso
      have hlength := congrArg List.length h
      have hpos := List.length_pos_iff.mpr (Decimal.render_ne_nil (texts.length + 1))
      have hnil : (bulkArray []).length = 4 := by decide
      rw [hnil] at hlength
      simp [bulkArray, arrayHeader, bulkReply, ascii, crlf] at hlength
      omega

/-- Different lengths are replied differently. -/
theorem integerReply_injective {m n : Int} (h : integerReply m = integerReply n) : m = n := by
  unfold integerReply at h
  simp only [List.append_assoc] at h
  exact Decimal.renderInt_injective (List.append_cancel_right (List.append_cancel_left h))

/-- A reply determines its text. -/
theorem outcome_reply_inj {a b : Bytes}
    (h : (Except.ok (Outcome.reply a) : Except Exception Outcome) = .ok (Outcome.reply b)) :
    a = b := by
  injection h with h
  injection h with h
  injection h

/-! ## Operations without the key -/

namespace Store

variable {d : Store} {key : Bytes} {v : StoreValue} {now : Int}

/-- A value that is not a stream has no entries to read. -/
theorem xrange_erase (hv : d key = some v) (htype : v.type ≠ .stream) (key' start stop : Bytes) :
    (d.erase key).xrange key' start stop = d.xrange key' start stop := by
  unfold xrange
  by_cases heq : key' = key
  · rw [heq, erase_same, hv]
    rcases v with ⟨_ | _ | _, expiresAt⟩
    · rfl
    · rfl
    · exact absurd rfl htype
  · rw [erase_of_ne heq]

/-- A value that is not a stream has no entries. -/
theorem entries_erase (hv : d key = some v) (htype : v.type ≠ .stream) (key' : Bytes) :
    (d.erase key).entries key' = d.entries key' := by
  unfold entries slot
  by_cases heq : key' = key
  · rw [heq, erase_same, hv]
    rcases v with ⟨_ | _ | _, expiresAt⟩
    · rfl
    · rfl
    · exact absurd rfl htype
  · rw [erase_of_ne heq]

theorem xread_erase (hv : d key = some v) (htype : v.type ≠ .stream)
    (streams : List (Bytes × Bytes)) : (d.erase key).xread streams = d.xread streams := by
  induction streams with
  | nil => rfl
  | cons stream streams ih =>
      rcases stream with ⟨key', cursor⟩
      rw [xread_cons, xread_cons, entries_erase hv htype, ih]

/-- The elements that a range selects are none if the bounds cannot be resolved. -/
theorem lrange_of_none (hv : d key = some v) {start stop : Int}
    (h : resolveListIndices start stop (listSlot v).length = none) : d.lrange key start stop = [] := by
  rcases v with ⟨_ | elements | _, expiresAt⟩
  · simp only [lrange, hv]
  · have hnone : resolveListIndices start stop elements.length = none := h
    simp only [lrange, hv, hnone]
  · simp only [lrange, hv]

/-- Bounds that can be resolved select an element. -/
theorem lrange_of_some (hv : d key = some v) {start stop : Int} {range : Int × Int}
    (h : resolveListIndices start stop (listSlot v).length = some range) :
    d.lrange key start stop ≠ [] := by
  rcases range with ⟨first, last⟩
  have hbounds := resolveListIndices_bounds h
  rcases v with ⟨_ | elements | _, expiresAt⟩
  case string =>
    simp only [listSlot, List.length_nil] at hbounds
    omega
  case stream =>
    simp only [listSlot, List.length_nil] at hbounds
    omega
  case list =>
    have hrange : resolveListIndices start stop elements.length = some (first, last) := h
    simp only [lrange, hv, hrange]
    simp only [listSlot] at hbounds
    apply List.ne_nil_of_length_pos
    rw [List.length_drop, List.length_take]
    omega

theorem lrange_erase (d : Store) (key : Bytes) (start stop : Int) :
    (d.erase key).lrange key start stop = [] := by
  simp only [lrange, erase_same]

theorem llen_erase (d : Store) (key : Bytes) : (d.erase key).llen key = 0 := by
  simp only [llen, erase_same]

/-- The length of the list in a slot. -/
theorem llen_eq (hv : d key = some v) : d.llen key = (listSlot v).length := by
  rcases v with ⟨_ | elements | _, expiresAt⟩ <;> simp only [llen, hv, listSlot, List.length_nil]

/-- A pop of another key. -/
theorem lpop_erase {key' : Bytes} (hne : key' ≠ key) (count : Nat) :
    (d.erase key).lpop key' count = ((d.lpop key' count).1.erase key, (d.lpop key' count).2) := by
  unfold lpop
  rw [erase_of_ne hne]
  split
  · rfl
  · simp only [Prod.mk.injEq, and_true]
    split
    · exact Function.update_comm hne.symm _ _ d
    · exact Function.update_comm hne.symm _ _ d
  · rfl

end Store

/-- A value that is not a stream does not decide what an identifier stands for. -/
theorem resolveStreamIds_erase {d : Store} {key : Bytes} {v : StoreValue} (hv : d key = some v)
    (htype : v.type ≠ .stream) (streams : List (Bytes × Bytes)) :
    resolveStreamIds (d.erase key) streams = resolveStreamIds d streams := by
  induction streams with
  | nil => rfl
  | cons stream streams ih =>
      rcases stream with ⟨key', id⟩
      rw [resolveStreamIds, resolveStreamIds, Store.xrange_erase hv htype, ih]

/-! ## The loop of {lit}`BLPOP` -/

section Loop

variable {d : Store} {key : Bytes} {v : StoreValue} {now : Int}

/-- The loop passes a key that holds no list. -/
theorem blpopKeys_of_not_list {key' : Bytes} (h : ∀ v, d key' = some v → v.type ≠ .list)
    (keys : List Bytes) : blpopKeys d (key' :: keys) = blpopKeys d keys := by
  rw [blpopKeys]
  cases hkey : d key' with
  | none => simp only [Store.lpop, hkey]
  | some v => rw [Store.lpop_of_foreign hkey (h v hkey)]

/-- The loop stops at a key that holds a list. -/
theorem blpopKeys_of_list (hv : d key = some v) (htype : v.type = .list) (keys : List Bytes) :
    (blpopKeys d (key :: keys)).1 = (d.lpop key 1).1 ∧
      ((blpopKeys d (key :: keys)).2 = match (d.lpop key 1).2 with
        | .ok (value :: _) => .ok (some (key, value))
        | _ => .error (.rangeCheck 0 0)) := by
  rw [blpopKeys]
  rcases v with ⟨_ | elements | _, expiresAt⟩
  · cases htype
  · cases elements with
    | nil => simp [Store.lpop, hv]
    | cons element elements => simp [Store.lpop, hv]
  · cases htype

/-- The loop does not get to see an expired key that holds no list, or that comes
behind one that does. -/
theorem blpopKeys_erase (hv : d key = some v) (hexpired : v.expired now = true)
    {keys : List Bytes} (h : v.type ≠ .list ∨ listAhead d key keys) :
    (blpopKeys d keys).2 = (blpopKeys (d.erase key) keys).2 ∧
      (blpopKeys d keys).1.purge now = (blpopKeys (d.erase key) keys).1.purge now := by
  induction keys with
  | nil => exact ⟨rfl, (Store.purge_erase hv hexpired).symm⟩
  | cons key' keys ih =>
      by_cases heq : key' = key
      · -- nothing lies ahead of the key
        have htype : v.type ≠ .list := by
          refine h.resolve_right ?_
          rintro ⟨ahead, hmem, -⟩
          simp [heq] at hmem
        have hfirst : ∀ w, d key' = some w → w.type ≠ .list := by
          intro w hw
          rw [heq, hv] at hw
          cases hw
          exact htype
        have hsecond : ∀ w, d.erase key key' = some w → w.type ≠ .list := by
          intro w hw
          rw [heq, Store.erase_same] at hw
          contradiction
        rw [blpopKeys_of_not_list hfirst, blpopKeys_of_not_list hsecond]
        exact ih (Or.inl htype)
      · have hsame : d.erase key key' = d key' := Store.erase_of_ne heq d
        by_cases hlist : ∃ w, d key' = some w ∧ w.type = .list
        · rcases hlist with ⟨w, hw, htype⟩
          rcases blpopKeys_of_list hw htype keys with ⟨hdata, hresult⟩
          rcases blpopKeys_of_list (hsame.trans hw) htype keys with ⟨hdata', hresult'⟩
          rw [hdata, hresult, hdata', hresult', Store.lpop_erase heq]
          refine ⟨rfl, (Store.purge_erase ?_ hexpired).symm⟩
          rw [lpop_of_ne (Ne.symm heq)]
          exact hv
        · have hfirst : ∀ w, d key' = some w → w.type ≠ .list :=
            fun w hw htype => hlist ⟨w, hw, htype⟩
          rw [blpopKeys_of_not_list hfirst, blpopKeys_of_not_list (by rwa [hsame])]
          refine ih (h.imp_right ?_)
          rintro ⟨ahead, hmem, w, hw, htype⟩
          simp only [List.takeWhile_cons, heq, not_false_eq_true, decide_true, if_true,
            List.mem_cons, ne_eq] at hmem
          rcases hmem with rfl | hmem
          · exact absurd htype (hfirst w hw)
          · exact ⟨ahead, by simpa using hmem, w, hw, htype⟩

/-- The loop pops a list that no other one lies ahead of. -/
theorem blpopKeys_pops {keys : List Bytes} (hkey : key ∈ keys) {element : Bytes}
    {elements : List Bytes} {expiresAt : Option Int}
    (hv : d key = some ⟨.list (element :: elements), expiresAt⟩) (h : ¬ listAhead d key keys) :
    (blpopKeys d keys).2 = .ok (some (key, element)) := by
  induction keys with
  | nil => contradiction
  | cons key' keys ih =>
      by_cases heq : key' = key
      · rw [heq, (blpopKeys_of_list hv rfl keys).2]
        simp [Store.lpop, hv]
      · have hahead : ∀ w, d key' = some w → w.type ≠ .list :=
          fun w hw htype => h ⟨key', by simp [heq], w, hw, htype⟩
        rw [blpopKeys_of_not_list hahead]
        refine ih ((List.mem_cons.mp hkey).resolve_left (Ne.symm heq)) ?_
        rintro ⟨ahead, hmem, hlist⟩
        exact h ⟨ahead, by simpa [heq] using Or.inr hmem, hlist⟩

/-- The loop does not pop an absent key. -/
theorem blpopKeys_ne_absent (keys : List Bytes) (value : Bytes) :
    (blpopKeys (d.erase key) keys).2 ≠ .ok (some (key, value)) := by
  intro h
  rcases blpopKeys_cases (d.erase key) keys with
    ⟨key', -, d', value', more, hpop, hkeys⟩ | ⟨key', -, d', e, hpop, hkeys⟩ | ⟨-, hkeys⟩ <;>
    rw [hkeys] at h <;> cases h
  simp [Store.lpop] at hpop

end Loop

/-! ## Commands -/

section Commands

variable {cmd : Command} {now : Reading} {d : Store} {key : Bytes} {v : StoreValue}

/-- A command that leaves the table alone and replies the same. -/
theorem asIfAbsent_reads {run : Store → CommandResult} (hv : d key = some v)
    (hexpired : v.expired now.steady = true) (hfixed : ∀ d, (run d).1 = d)
    (hsame : (run d).2 = (run (d.erase key)).2) : AsIfAbsent now.steady d key run := by
  refine ⟨hsame, ?_⟩
  rw [hfixed, hfixed]
  exact (Store.purge_erase hv hexpired).symm

/-- The check of the number of arguments. -/
theorem asIfAbsent_checked {n : Nat} {body : Store → CommandResult} (hv : d key = some v)
    (hexpired : v.expired now.steady = true)
    (h : n ≤ cmd.args.length → AsIfAbsent now.steady d key body) :
    AsIfAbsent now.steady d key fun d => checked cmd n d (body d) := by
  by_cases hargs : n ≤ cmd.args.length
  · unfold AsIfAbsent
    simp only [checked_of_le hargs]
    exact h hargs
  · refine asIfAbsent_reads hv hexpired (fun d => fst_checked_of_lt (by omega)) ?_
    unfold checked checkArgs
    rw [if_pos (by omega)]

/-- {lit}`LRANGE`, if the range has no element. -/
theorem asIfAbsent_lrange (hv : d (cmd.arg 0) = some v) (hexpired : v.expired now.steady = true)
    (hnone : cmd.args.length < 3 ∨ ∀ start stop, stoll (cmd.arg 1) = .ok start →
      stoll (cmd.arg 2) = .ok stop →
      Store.resolveListIndices start stop (Store.listSlot v).length = none) :
    AsIfAbsent now.steady d (cmd.arg 0) (lrangeExecute cmd now) := by
  refine asIfAbsent_checked hv hexpired fun hargs => ?_
  have hrange := hnone.resolve_left (by omega)
  cases hstart : stoll (cmd.arg 1) with
  | error e => exact asIfAbsent_reads hv hexpired (fun _ => rfl) rfl
  | ok start =>
      cases hstop : stoll (cmd.arg 2) with
      | error e => exact asIfAbsent_reads hv hexpired (fun _ => rfl) rfl
      | ok stop =>
          refine asIfAbsent_reads hv hexpired (fun _ => rfl) ?_
          simp only [Store.lrange_of_none hv (hrange start stop hstart hstop), Store.lrange_erase]

/-- {lit}`BLPOP`, if its loop does not come to the list. -/
theorem asIfAbsent_blpop (hv : d key = some v) (hexpired : v.expired now.steady = true)
    (h : (∀ timeout, stod (cmd.args.getLastD []) ≠ .ok timeout) ∨ v.type ≠ .list ∨
      listAhead d key cmd.args.dropLast) :
    AsIfAbsent now.steady d key (blpopExecute cmd now) := by
  refine asIfAbsent_checked hv hexpired fun _ => ?_
  cases htimeout : stod (cmd.args.getLastD []) with
  | error e => exact asIfAbsent_reads hv hexpired (fun _ => rfl) rfl
  | ok timeout =>
      rcases blpopKeys_erase hv hexpired (h.resolve_left fun hnone => hnone timeout htimeout) with
        ⟨hresult, hdata⟩
      unfold AsIfAbsent
      rcases hfirst : blpopKeys d cmd.args.dropLast with ⟨d₁, result₁⟩
      rcases hsecond : blpopKeys (d.erase key) cmd.args.dropLast with ⟨d₂, result₂⟩
      rw [hfirst, hsecond] at hresult hdata
      simp only at hresult hdata
      subst hresult
      simp only [hfirst, hsecond]
      rcases result₁ with _ | _ | _ <;> exact ⟨rfl, hdata⟩

/-- {lit}`XREAD`, if the key holds no stream. -/
theorem asIfAbsent_xread (hv : d key = some v) (hexpired : v.expired now.steady = true)
    (h : v.type ≠ .stream) : AsIfAbsent now.steady d key (xreadExecute cmd now) := by
  refine asIfAbsent_reads hv hexpired (fst_xreadExecute cmd now) ?_
  unfold xreadExecute
  simp only [resolveStreamIds_erase hv h, Store.xread_erase hv h]
  split
  · rfl
  · split
    · rfl
    · split
      · rfl
      · split
        · rfl
        · split <;> rfl

/-- A command that does not get to see an expired key treats it like an absent one. -/
theorem asIfAbsent_of_unseen {body : Command → Reading → Store → CommandResult}
    (hbody : dataCommand cmd.type = some body) (hcmd : isListOrStreamCommand cmd.type = true)
    (hkey : key ∈ cmd.keys) (hv : d key = some v) (hexpired : v.expired now.steady = true)
    (h : Unseen cmd d key v) : AsIfAbsent now.steady d key (body cmd now) := by
  unfold Command.keys at hkey
  unfold Unseen at h
  cases htype : cmd.type <;> rw [htype] at hbody hcmd <;>
    simp only [dataCommand, Option.some.injEq, reduceCtorEq] at hbody <;> subst hbody <;>
    simp only [htype] at hkey h <;> try contradiction
  case rpush => exact asIfAbsent_checked hv hexpired fun hargs => by omega
  case lpush => exact asIfAbsent_checked hv hexpired fun hargs => by omega
  case lrange =>
    rw [eq_arg_of_mem_take hkey] at hv ⊢
    exact asIfAbsent_lrange hv hexpired h
  case llen =>
    refine asIfAbsent_checked hv hexpired fun _ => ?_
    rw [eq_arg_of_mem_take hkey] at hv ⊢
    refine asIfAbsent_reads hv hexpired (fun _ => rfl) ?_
    simp only [Store.llen_eq hv, h, Store.llen_erase, List.length_nil]
  case lpop =>
    refine asIfAbsent_checked hv hexpired fun _ => ?_
    cases hcount : lpopCount cmd with
    | error e => exact asIfAbsent_reads hv hexpired (fun _ => rfl) rfl
    | ok count => exact absurd hcount (h count)
  case blpop => exact asIfAbsent_blpop hv hexpired h
  case xadd =>
    have hbad : ∀ d, xaddExecute cmd now d =
        (d, .ok (.reply (ascii "-ERR wrong number of arguments for XADD\r\n"))) := by
      intro d
      unfold xaddExecute
      rw [if_pos h]
    refine asIfAbsent_reads hv hexpired (fun d => by rw [hbad]) ?_
    rw [hbad, hbad]
  case xrange =>
    refine asIfAbsent_reads hv hexpired (fst_xrangeExecute cmd now) ?_
    unfold xrangeExecute
    rw [Store.xrange_erase hv h]
    split
    · rfl
    · split <;> rfl
  case xread => exact asIfAbsent_xread hv hexpired h

/-- A command with a key has an argument. -/
theorem length_of_mem_take (h : key ∈ cmd.args.take 1) : 1 ≤ cmd.args.length := by
  have hpos := List.length_pos_of_mem h
  rw [List.length_take] at hpos
  omega

/-- A pop from a list. -/
theorem lpop_isOk (hv : d key = some v) (htype : v.type = .list) (count : Nat) :
    ∃ d' values, d.lpop key count = (d', .ok values) := by
  rcases v with ⟨_ | elements | _, expiresAt⟩
  · cases htype
  · simp only [Store.lpop, hv]
    exact ⟨_, _, rfl⟩
  · cases htype

/-- {lit}`XADD` leaves a stream without a deadline behind at a key that was not set. -/
theorem xadd_absent (hargs : ¬ (cmd.args.length < 4 ∨ (cmd.args.length - 2) % 2 ≠ 0))
    (hkey : d (cmd.arg 0) = none) :
    ∃ entries, (xaddExecute cmd now d).1 (cmd.arg 0) = some ⟨.stream entries, none⟩ := by
  have hother : d.holdsOther (cmd.arg 0) = false := by
    simp only [Store.holdsOther, hkey]
  have hslot : d.slot (cmd.arg 0) = .default := by
    simp only [Store.slot, hkey, Option.getD_none]
  have hadd : ∃ entries, (d.xadd (cmd.arg 0) (cmd.arg 1) (pairs (cmd.args.drop 2)) now.system).1
      (cmd.arg 0) = some ⟨.stream entries, none⟩ := by
    unfold Store.xadd
    rw [hother, hslot]
    simp only [Bool.false_eq_true, if_false]
    split <;> exact ⟨_, Store.put_same d _ _⟩
  rcases hadd with ⟨entries, hadd⟩
  refine ⟨entries, ?_⟩
  unfold xaddExecute
  rw [if_neg hargs]
  rcases hresult : d.xadd (cmd.arg 0) (cmd.arg 1) (pairs (cmd.args.drop 2)) now.system with
    ⟨d', _ | _ | _⟩ <;> rw [hresult] at hadd <;> exact hadd

/-- The commands that leave a live entry where there was an expired one. -/
theorem not_asIfAbsent_of_live {run : Store → CommandResult}
    (hd : (run d).1.purge now.steady key = none)
    (hlive : (run (d.erase key)).1.purge now.steady key ≠ none) :
    ¬ AsIfAbsent now.steady d key run := by
  rintro ⟨-, hdata⟩
  rw [← hdata] at hlive
  exact hlive hd

/-- A push on an expired key is gone, a push on an absent key is not. -/
theorem not_asIfAbsent_push (hexpired : v.expired now.steady = true) (hv : d (cmd.arg 0) = some v)
    (hargs : 2 ≤ cmd.args.length) {change : List Bytes → List Bytes}
    {push : Store → Bytes → List Bytes → Store × Nat}
    (hpush : ∀ d : Store, push d (cmd.arg 0) (cmd.args.drop 1) = d.push (cmd.arg 0) change) :
    ¬ AsIfAbsent now.steady d (cmd.arg 0) (pushExecute push cmd) := by
  have hdata : ∀ d, (pushExecute push cmd d).1 = (d.push (cmd.arg 0) change).1 := by
    intro d
    unfold pushExecute
    rw [checked_of_le hargs, hpush]
  apply not_asIfAbsent_of_live
  · rw [hdata]
    refine Store.purge_of_expired (Store.put_same d _ _) ?_
    simpa only [StoreValue.expired, Store.slot, hv, Option.getD_some] using hexpired
  · rw [hdata]
    refine ne_of_eq_of_ne (Store.purge_of_live (Store.put_same _ _ _) ?_) (Option.some_ne_none _)
    simp [StoreValue.expired, Store.slot, StoreValue.default]

/-- An {lit}`LRANGE` that replies the same found no element. -/
theorem resolveListIndices_of_asIfAbsent (hv : d (cmd.arg 0) = some v)
    (h : AsIfAbsent now.steady d (cmd.arg 0) (lrangeExecute cmd now)) (hargs : 3 ≤ cmd.args.length)
    {start stop : Int} (hstart : stoll (cmd.arg 1) = .ok start)
    (hstop : stoll (cmd.arg 2) = .ok stop) :
    Store.resolveListIndices start stop (Store.listSlot v).length = none := by
  have hreply := h.1
  unfold lrangeExecute at hreply
  rw [checked_of_le hargs, checked_of_le hargs] at hreply
  simp only [hstart, hstop, Store.lrange_erase] at hreply
  have hnil := bulkArray_eq_nil (outcome_reply_inj hreply)
  cases hrange : Store.resolveListIndices start stop (Store.listSlot v).length with
  | none => rfl
  | some range => exact absurd hnil (Store.lrange_of_some hv hrange)

/-- An {lit}`LPOP` with a count replies to a list or to a foreign value as it does not to
an absent key. -/
theorem not_asIfAbsent_lpop (hv : d (cmd.arg 0) = some v) (hargs : 1 ≤ cmd.args.length)
    {count : Nat} (hcount : lpopCount cmd = .ok count) :
    ¬ AsIfAbsent now.steady d (cmd.arg 0) (lpopExecute cmd now) := by
  intro h
  have hreply := h.1
  unfold lpopExecute at hreply
  rw [checked_of_le hargs, checked_of_le hargs] at hreply
  have habsent : (d.erase (cmd.arg 0)).lpop (cmd.arg 0) count =
      (d.erase (cmd.arg 0), .error Store.keyNotFound) := by
    simp only [Store.lpop, Store.erase_same]
  simp only [hcount, habsent] at hreply
  by_cases hlist : v.type = .list
  · -- a pop is reported to the watchers
    rcases lpop_isOk hv hlist count with ⟨d', values, hpop⟩
    rw [hpop] at hreply
    cases hresponse : lpopReply cmd values with
    | error e => simp [hresponse, Except.map] at hreply
    | ok response => simp [hresponse, Except.map, Outcome.reply] at hreply
  · rw [Store.lpop_of_foreign hv hlist] at hreply
    exact absurd (outcome_reply_inj hreply) (by decide)

/-- A {lit}`BLPOP` whose loop comes to the list names the key in its reply. -/
theorem not_asIfAbsent_blpop (hkey : key ∈ cmd.args.dropLast) {element : Bytes}
    {elements : List Bytes} {expiresAt : Option Int}
    (hv : d key = some ⟨.list (element :: elements), expiresAt⟩)
    {timeout : Double} (htimeout : stod (cmd.args.getLastD []) = .ok timeout)
    (hahead : ¬ listAhead d key cmd.args.dropLast) :
    ¬ AsIfAbsent now.steady d key (blpopExecute cmd now) := by
  intro h
  have hargs : 2 ≤ cmd.args.length := by
    have hpos := List.length_pos_of_mem hkey
    rw [List.length_dropLast] at hpos
    omega
  have hreply := h.1
  unfold blpopExecute at hreply
  rw [checked_of_le hargs, checked_of_le hargs] at hreply
  have hpops := blpopKeys_pops hkey hv hahead
  rcases hfirst : blpopKeys d cmd.args.dropLast with ⟨d₁, result₁⟩
  rw [hfirst] at hpops
  simp only at hpops
  subst hpops
  rcases hsecond : blpopKeys (d.erase key) cmd.args.dropLast with
    ⟨d₂, _ | _ | ⟨key', value⟩⟩ <;> simp only [htimeout, hfirst, hsecond] at hreply
  · cases hreply
  · cases hreply
  · have hne : (blpopKeys (d.erase key) cmd.args.dropLast).2 ≠ .ok (some (key, value)) :=
      blpopKeys_ne_absent cmd.args.dropLast value
    rw [hsecond, popReply_key (outcome_reply_inj hreply)] at hne
    exact hne rfl

/-- {lit}`XADD` refuses an expired value that is no stream, and creates a stream at an
absent key. -/
theorem not_asIfAbsent_xadd (hv : d (cmd.arg 0) = some v) (hexpired : v.expired now.steady = true)
    (hstream : v.type ≠ .stream)
    (hargs : ¬ (cmd.args.length < 4 ∨ (cmd.args.length - 2) % 2 ≠ 0)) :
    ¬ AsIfAbsent now.steady d (cmd.arg 0) (xaddExecute cmd now) := by
  apply not_asIfAbsent_of_live
  · unfold xaddExecute
    rw [if_neg hargs, Store.xadd_of_foreign hv hstream]
    exact Store.purge_of_expired hv hexpired
  · have hcreates : ∃ entries, (xaddExecute cmd now (d.erase (cmd.arg 0))).1 (cmd.arg 0) =
        some ⟨.stream entries, none⟩ :=
      xadd_absent hargs (Store.erase_same d _)
    rcases hcreates with ⟨entries, hcreated⟩
    rw [Store.purge_of_live hcreated (by rfl)]
    simp

/-- A list or stream command that treats an expired key like an absent one does not
get to see it. -/
theorem unseen_of_asIfAbsent {body : Command → Reading → Store → CommandResult}
    (hbody : dataCommand cmd.type = some body) (hcmd : isListOrStreamCommand cmd.type = true)
    (hkey : key ∈ cmd.keys) (hv : d key = some v) (hexpired : v.expired now.steady = true)
    (hd : d.Regular) (h : AsIfAbsent now.steady d key (body cmd now)) : Unseen cmd d key v := by
  have hstream : v.type ≠ .stream := by
    intro htype
    simp [StoreValue.expired, hd.undated key v hv htype] at hexpired
  unfold Command.keys at hkey
  unfold Unseen
  cases htype : cmd.type <;> rw [htype] at hbody hcmd <;>
    simp only [dataCommand, Option.some.injEq, reduceCtorEq] at hbody <;> subst hbody <;>
    simp only [htype] at hkey ⊢ <;> try contradiction
  case rpush =>
    by_contra hargs
    rw [eq_arg_of_mem_take hkey] at hv h
    exact not_asIfAbsent_push hexpired hv (by omega) (fun _ => rfl) h
  case lpush =>
    by_contra hargs
    rw [eq_arg_of_mem_take hkey] at hv h
    exact not_asIfAbsent_push hexpired hv (by omega) (fun _ => rfl) h
  case lrange =>
    rw [eq_arg_of_mem_take hkey] at hv h
    exact or_iff_not_imp_left.mpr fun hargs start stop hstart hstop =>
      resolveListIndices_of_asIfAbsent hv h (by omega) hstart hstop
  case llen =>
    rw [eq_arg_of_mem_take hkey] at hv h
    have hreply := h.1
    unfold llenExecute at hreply
    rw [checked_of_le (length_of_mem_take hkey), checked_of_le (length_of_mem_take hkey)] at hreply
    simp only [Store.llen_eq hv, Store.llen_erase] at hreply
    have hlength := integerReply_injective (outcome_reply_inj hreply)
    exact List.length_eq_zero_iff.mp (by omega)
  case lpop =>
    intro count hcount
    rw [eq_arg_of_mem_take hkey] at hv h
    exact not_asIfAbsent_lpop hv (length_of_mem_take hkey) hcount h
  case blpop =>
    by_contra hseen
    simp only [not_or, not_forall, not_not] at hseen
    rcases hseen with ⟨⟨timeout, htimeout⟩, hlist, hahead⟩
    rcases v with ⟨_ | elements | _, expiresAt⟩
    · cases hlist
    · cases elements with
      | nil => exact hd.noEmptyList key _ hv rfl
      | cons element elements => exact not_asIfAbsent_blpop hkey hv htimeout hahead h
    · cases hlist
  case xadd =>
    by_contra hargs
    rw [eq_arg_of_mem_take hkey] at hv h
    exact not_asIfAbsent_xadd hv hexpired hstream hargs h
  case xrange => exact hstream
  case xread => exact hstream

/-- A list or stream command treats an expired key like an absent one if it does not
get to see the value; in a table that commands built, only then. -/
theorem expired_key_unseen_iff {body : Command → Reading → Store → CommandResult}
    (hbody : dataCommand cmd.type = some body) (hcmd : isListOrStreamCommand cmd.type = true)
    (hkey : key ∈ cmd.keys) (hv : d key = some v) (hexpired : v.expired now.steady = true) :
    (Unseen cmd d key v → AsIfAbsent now.steady d key (body cmd now)) ∧
      (d.Regular → (AsIfAbsent now.steady d key (body cmd now) ↔ Unseen cmd d key v)) :=
  ⟨asIfAbsent_of_unseen hbody hcmd hkey hv hexpired, fun hd =>
    ⟨unseen_of_asIfAbsent hbody hcmd hkey hv hexpired hd,
      asIfAbsent_of_unseen hbody hcmd hkey hv hexpired⟩⟩

end Commands

/-- {lit}`LLEN` of a key whose string has expired. -/
theorem expired_key_unseen_iff_llen :
    let d := Store.empty.put (ascii "k") ⟨.string (ascii "v"), some 5⟩
    let cmd : Command := ⟨.llen, ascii "LLEN", [ascii "k"]⟩
    AsIfAbsent 9 d (ascii "k") (llenExecute cmd ⟨9, 0⟩) ∧
      (AsIfAbsent 9 d (ascii "k") (llenExecute cmd ⟨9, 0⟩) ↔
        Unseen cmd d (ascii "k") ⟨.string (ascii "v"), some 5⟩) := by
  have hiff := @expired_key_unseen_iff ⟨.llen, ascii "LLEN", [ascii "k"]⟩ ⟨9, 0⟩
    (Store.empty.put (ascii "k") ⟨.string (ascii "v"), some 5⟩) (ascii "k") _ llenExecute
    rfl rfl (by decide) (Store.put_same _ _ _) (by decide)
  have hregular := Store.Regular.empty.put (ascii "k")
    (show (⟨.string (ascii "v"), some 5⟩ : StoreValue).value ≠ .list [] by simp)
    (fun hstream => absurd hstream (by decide))
  exact ⟨hiff.1 rfl, hiff.2 hregular⟩

/-- {lit}`SET k v PX 1`, and two milliseconds later {lit}`RPUSH k a`: the push is
acknowledged, {lit}`LLEN` counts the element, and {lit}`TYPE` finds no key. -/
theorem push_on_expired_key :
    let k := ascii "k"
    let d := (setExecute ⟨.set, ascii "SET", [k, ascii "v", ascii "PX", ascii "1"]⟩ ⟨0, 0⟩
      Store.empty).1
    let later : Reading := ⟨2000000, 0⟩
    let push := rpushExecute ⟨.rpush, ascii "RPUSH", [k, ascii "a"]⟩ later
    (d k).any (StoreValue.expired · later.steady) = true ∧
      (push d).1.purge later.steady k = none ∧
      (push (d.erase k)).1.purge later.steady k = some ⟨.list [ascii "a"], none⟩ ∧
      (llenExecute ⟨.llen, ascii "LLEN", [k]⟩ later (push d).1).2 = .ok (.reply (integerReply 1)) ∧
      (typeExecute ⟨.typeCmd, ascii "TYPE", [k]⟩ later (push d).1).2 =
        .ok (.reply (ascii "+none\r\n")) := by
  intro k d later push
  have hset : d = Store.empty.put k ⟨.string (ascii "v"), some 1000000⟩ := by
    have hexpiry : parseExpiry [ascii "PX", ascii "1"] = .ok (some 1) := by decide +kernel
    show (setExecute ⟨.set, ascii "SET", [k, ascii "v", ascii "PX", ascii "1"]⟩ ⟨0, 0⟩
      Store.empty).1 = _
    unfold setExecute
    rw [checked_of_le (by simp)]
    simp only [List.drop_succ_cons, List.drop_zero, hexpiry]
    rfl
  rw [hset]
  refine ⟨?_, ?_, ?_, ?_, ?_⟩ <;> decide +kernel

end RedisClone
