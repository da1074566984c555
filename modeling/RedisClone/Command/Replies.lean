import RedisClone.Command.DataCommands
import RedisClone.Command.InfoCommand
import RedisClone.Resp.RoundTrip

/-!
# The format of replies

Replies are put together by hand.  This module says what a complete reply is, and
checks every command: all replies are complete, except those to {lit}`GET` and
{lit}`LPOP` on a value of another type, whose text has no line terminator.  The
texts of exceptions that end up in replies hold no line terminator.

Main results:

- Theorem {lit}`wellReplied_of_dataCommand`: the replies of the commands on the
  keyspace.
- Theorem {lit}`IsReply.suffix`: a complete reply ends with a line terminator.
-/

namespace RedisClone

open RespValue

/-! ## Complete replies -/

/-- One complete reply: a line that starts with a plus sign, a dash or a colon, a
bulk string, a null, or an array of complete replies. -/
inductive IsReply : Bytes → Prop where
  | line {kind : UInt8} {text : Bytes} (hkind : kind = 43 ∨ kind = 45 ∨ kind = 58)
      (htext : NoCrlf text) : IsReply (kind :: (text ++ crlf))
  | bulk (text : Bytes) : IsReply (bulkReply text)
  | nullBulk : IsReply nullBulk
  | nullArray : IsReply nullArray
  | array {replies : List Bytes} (hreplies : ∀ r ∈ replies, IsReply r) :
      IsReply (arrayHeader replies.length ++ replies.flatten)

namespace IsReply

/-- A complete reply ends with a line terminator. -/
theorem suffix {r : Bytes} (h : IsReply r) : crlf <:+ r := by
  induction h with
  | @line kind text hkind htext => exact ⟨kind :: text, by simp⟩
  | bulk text => exact List.suffix_append _ _
  | nullBulk => decide
  | nullArray => decide
  | @array replies hreplies ih =>
      rcases List.eq_nil_or_concat replies with rfl | ⟨front, last, rfl⟩
      · exact ⟨ascii "*" ++ Decimal.render 0, by simp [arrayHeader]⟩
      · have hlast : crlf <:+ last := ih last (by simp)
        rw [List.concat_eq_append, List.flatten_append]
        exact (hlast.trans ⟨front.flatten, by simp⟩).trans (List.suffix_append _ _)

end IsReply

/-- A line with its terminator, as a test. -/
def IsLine (r : Bytes) : Prop :=
  (r.head? = some 43 ∨ r.head? = some 45 ∨ r.head? = some 58) ∧ crlf <:+ r ∧ NoCrlf r.dropLast

instance (r : Bytes) : Decidable (IsLine r) :=
  inferInstanceAs (Decidable (_ ∧ _))

/-- A line is a complete reply. -/
theorem IsLine.isReply {r : Bytes} (h : IsLine r) : IsReply r := by
  rcases h with ⟨hhead, ⟨front, rfl⟩, hinner⟩
  cases front with
  | nil => simp [crlf] at hhead
  | cons kind text =>
      have htext : NoCrlf text := by
        intro hsub
        apply hinner
        have hfront : kind :: text ++ crlf = (kind :: text ++ [13]) ++ [10] := by simp [crlf]
        rw [hfront, List.dropLast_concat]
        exact hsub.trans ⟨[kind], [13], by simp⟩
      exact .line (by simpa using hhead) htext

/-- The error for missing arguments. -/
theorem isReply_arguments {name : Bytes} (hname : NoCrlf name) :
    IsReply (ascii "-ERR wrong number of arguments for '" ++ name ++ ascii "' command\r\n") := by
  have hline : ascii "-ERR wrong number of arguments for '" ++ name ++ ascii "' command\r\n" =
      45 :: ((ascii "ERR wrong number of arguments for " ++ 39 :: (name ++ 39 :: ascii " command")) ++
        crlf) := by
    simp [ascii, crlf]
  rw [hline]
  exact .line (by decide) (noCrlf_append_cons (by decide)
    (noCrlf_append_cons hname (by decide) (by decide) (by decide)) (by decide) (by decide))

/-- An integer. -/
theorem noCrlf_renderInt (n : Int) : NoCrlf (Decimal.renderInt n) := by
  unfold Decimal.renderInt
  split
  · exact @noCrlf_append_cons [] _ 45 (by decide) (noCrlf_render _) (by decide) (by decide)
  · exact noCrlf_render _

theorem isReply_integer (n : Int) : IsReply (integerReply n) :=
  .line (Or.inr (Or.inr rfl)) (noCrlf_renderInt n)

theorem isReply_count (n : Int) : IsReply (countReply n) :=
  isReply_integer n

/-- An array of bulk strings. -/
theorem isReply_bulkArray (texts : List Bytes) : IsReply (bulkArray texts) := by
  have hreply : IsReply (arrayHeader (texts.map bulkReply).length ++
      (texts.map bulkReply).flatten) := by
    apply IsReply.array
    intro r hr
    rcases List.mem_map.mp hr with ⟨text, -, rfl⟩
    exact .bulk text
  rw [List.length_map] at hreply
  exact hreply

/-- An array of two replies. -/
theorem isReply_pair {a b : Bytes} (ha : IsReply a) (hb : IsReply b) :
    IsReply (ascii "*2\r\n" ++ a ++ b) := by
  have hpair : IsReply (arrayHeader [a, b].length ++ [a, b].flatten) := by
    apply IsReply.array
    intro r hr
    simp only [List.mem_cons, List.not_mem_nil, or_false] at hr
    rcases hr with rfl | rfl
    · exact ha
    · exact hb
  have htwo : arrayHeader 2 = ascii "*2\r\n" := by decide +kernel
  simpa [htwo] using hpair

theorem isReply_pop (key value : Bytes) : IsReply (popReply key value) :=
  isReply_pair (.bulk key) (.bulk value)

/-- A stream entry. -/
theorem isReply_entry (entry : StreamEntry) : IsReply (entryReply entry) := by
  have hfields : IsReply (bulkArray (entry.fields.flatMap fun field => [field.1, field.2])) :=
    isReply_bulkArray _
  have hlength : (entry.fields.flatMap fun field => [field.1, field.2]).length =
      entry.fields.length * 2 := by
    simp [List.length_flatMap]
  have hflat : (entry.fields.flatMap fun field => [field.1, field.2]).flatMap bulkReply =
      entry.fields.flatMap fun field => bulkReply field.1 ++ bulkReply field.2 := by
    simp [List.flatMap_assoc]
  unfold bulkArray at hfields
  rw [hlength, hflat] at hfields
  have hpair := isReply_pair (.bulk entry.id) hfields
  simpa [entryReply] using hpair

/-- The entries of a range. -/
theorem isReply_entries (entries : List StreamEntry) :
    IsReply (arrayHeader entries.length ++ entries.flatMap entryReply) := by
  have hreply : IsReply (arrayHeader (entries.map entryReply).length ++
      (entries.map entryReply).flatten) := by
    apply IsReply.array
    intro r hr
    rcases List.mem_map.mp hr with ⟨entry, -, rfl⟩
    exact isReply_entry entry
  rw [List.length_map] at hreply
  exact hreply

/-- The reply to {lit}`XREAD`. -/
theorem isReply_formatStreamEntries (results : List (Bytes × List StreamEntry)) :
    IsReply (formatStreamEntries results) := by
  unfold formatStreamEntries
  split
  · exact .nullArray
  · have hreply : IsReply (arrayHeader (results.map fun stream => ascii "*2\r\n" ++
        bulkReply stream.1 ++ (arrayHeader stream.2.length ++ stream.2.flatMap entryReply)).length ++
        (results.map fun stream => ascii "*2\r\n" ++ bulkReply stream.1 ++
          (arrayHeader stream.2.length ++ stream.2.flatMap entryReply)).flatten) := by
      apply IsReply.array
      intro r hr
      rcases List.mem_map.mp hr with ⟨stream, -, rfl⟩
      exact isReply_pair (.bulk stream.1) (isReply_entries stream.2)
    rw [List.length_map] at hreply
    simpa [List.flatMap] using hreply

/-! ## Exceptions -/

/-- If there is an exception, its text holds no line terminator. -/
def PlainError {α : Type} (r : Except Exception α) : Prop :=
  ∀ e, r = .error e → NoCrlf e.what

section PlainError

variable {α β : Type}

theorem plainError_ok (a : α) : PlainError (.ok a : Except Exception α) := by
  intro e h
  cases h

theorem plainError_error {e : Exception} (h : NoCrlf e.what) :
    PlainError (.error e : Except Exception α) := by
  intro e' h'
  cases h'
  exact h

theorem PlainError.bind {x : Except Exception α} (hx : PlainError x) {f : α → Except Exception β}
    (hf : ∀ a, PlainError (f a)) : PlainError (x >>= f) := by
  cases x with
  | error e => exact plainError_error (hx e rfl)
  | ok a => exact hf a

theorem PlainError.map {x : Except Exception α} (hx : PlainError x) (f : α → β) :
    PlainError (x.map f) := by
  cases x with
  | error e => exact plainError_error (hx e rfl)
  | ok a => exact plainError_ok _

/-- The text of an exception makes an error line. -/
theorem isReply_exception {e : Exception} (h : NoCrlf e.what) : IsReply (exceptionReply e) := by
  have hline : exceptionReply e = 45 :: ((ascii "ERR" ++ 32 :: e.what) ++ crlf) := by
    simp [exceptionReply, ascii]
  rw [hline]
  exact .line (by decide) (noCrlf_append_cons (by decide) h (by decide) (by decide))

end PlainError

/-! ## Numeric conversions and stream identifiers -/

theorem plainError_stoll (s : Bytes) : PlainError (stoll s) := by
  unfold stoll
  split
  · exact plainError_error (by decide)
  · split
    · exact plainError_ok _
    · exact plainError_error (by decide)

theorem plainError_stoull (s : Bytes) : PlainError (stoull s) := by
  unfold stoull
  split
  · exact plainError_error (by decide)
  · split
    · exact plainError_error (by decide)
    · exact plainError_ok _

theorem plainError_stod (s : Bytes) : PlainError (stod s) := by
  unfold stod
  split
  · exact plainError_error (by decide)
  · split
    · exact plainError_error (by decide)
    · exact plainError_ok _
  · exact plainError_ok _

theorem plainError_parseExpiry (args : List Bytes) : PlainError (parseExpiry args) := by
  induction args using parseExpiry.induct with
  | case1 option value rest hex =>
      rw [parseExpiry, if_pos hex]
      exact (plainError_stoll value).map _
  | case2 option value rest hex hpx =>
      rw [parseExpiry, if_neg hex, if_pos hpx]
      exact (plainError_stoll value).map _
  | case3 option value rest hex hpx ih =>
      rw [parseExpiry, if_neg hex, if_neg hpx]
      exact ih
  | case4 args hshort =>
      rw [parseExpiry]
      · exact plainError_ok _
      · exact hshort

namespace StreamUtils

theorem plainError_component (text : Bytes) : PlainError (component text) :=
  (plainError_stoull text).map _

theorem plainError_newComponent (text : Bytes) : PlainError (newComponent text) := by
  unfold newComponent
  split
  · exact plainError_ok _
  · exact plainError_error (by decide)

theorem plainError_parseStreamId (streamId : Bytes) (now : Int) :
    PlainError (parseStreamId streamId now) := by
  unfold parseStreamId
  split
  · exact plainError_ok _
  · split
    · exact plainError_error (by decide)
    · refine (plainError_newComponent _).bind fun ms => ?_
      split
      · exact plainError_ok _
      · exact (plainError_newComponent _).bind fun seq => plainError_ok _

theorem plainError_parseLastId (lastId : Bytes) : PlainError (parseLastId lastId) := by
  unfold parseLastId
  split
  · exact plainError_ok _
  · exact (plainError_component _).bind fun ms =>
      (plainError_component _).bind fun seq => plainError_ok _

theorem plainError_validateId (ms seq : Int) (lastIdParts : LastIdParts) :
    PlainError (validateId ms seq lastIdParts) := by
  unfold validateId
  split
  · exact plainError_error (by decide +kernel)
  · split
    · exact plainError_error (by decide +kernel)
    · exact plainError_ok _

theorem plainError_generateStreamId (pattern lastId : Bytes) (now : Int) :
    PlainError (generateStreamId pattern lastId now) :=
  (plainError_parseStreamId pattern now).bind fun _ =>
    (plainError_parseLastId lastId).bind fun _ =>
      (plainError_validateId _ _ _).bind fun _ => plainError_ok _

theorem plainError_parseStreamBound (streamId : Bytes) (isStart : Bool) :
    PlainError (parseStreamBound streamId isStart) := by
  unfold parseStreamBound
  split
  · exact plainError_ok _
  · split
    · exact plainError_ok _
    · split
      · exact (plainError_component _).bind fun ms => plainError_ok _
      · exact (plainError_component _).bind fun ms =>
          (plainError_stoull _).bind fun seq => plainError_ok _

end StreamUtils

namespace Store

open StreamUtils

theorem plainError_xrangeEntries (first last : StreamBoundParts) (entries : List StreamEntry) :
    PlainError (xrangeEntries first last entries) := by
  induction entries with
  | nil => exact plainError_ok _
  | cons entry entries ih =>
      refine (plainError_parseStreamBound _ _).bind fun bound => ?_
      split
      · exact plainError_ok _
      · exact ih.bind fun rest => plainError_ok _

theorem plainError_xrange (d : Store) (key start stop : Bytes) :
    PlainError (d.xrange key start stop) := by
  unfold xrange
  split
  · exact (plainError_parseStreamBound _ _).bind fun first =>
      (plainError_parseStreamBound _ _).bind fun last => plainError_xrangeEntries _ _ _
  · exact plainError_ok _

theorem plainError_xreadEntries (target : StreamBoundParts) (entries : List StreamEntry) :
    PlainError (xreadEntries target entries) := by
  induction entries with
  | nil => exact plainError_ok _
  | cons entry entries ih =>
      exact (plainError_parseStreamBound _ _).bind fun bound =>
        ih.bind fun rest => plainError_ok _

theorem plainError_xread (d : Store) (streams : List (Bytes × Bytes)) :
    PlainError (d.xread streams) := by
  induction streams with
  | nil => exact plainError_ok _
  | cons stream streams ih =>
      rcases stream with ⟨key, cursor⟩
      refine (plainError_parseStreamBound _ _).bind fun target => ?_
      dsimp only
      split
      · exact (plainError_xreadEntries _ _).bind fun entries =>
          ih.bind fun rest => plainError_ok _
      · exact (plainError_ok _).bind fun entries => ih.bind fun rest => plainError_ok _

end Store

theorem plainError_resolveStreamIds (d : Store) (streams : List (Bytes × Bytes)) :
    PlainError (resolveStreamIds d streams) := by
  induction streams with
  | nil => exact plainError_ok _
  | cons stream streams ih =>
      rcases stream with ⟨key, id⟩
      rw [resolveStreamIds]
      have hrest : ∀ resolved, PlainError (do
          let rest ← resolveStreamIds d streams
          pure ((key, resolved) :: rest)) := fun resolved => ih.bind fun rest => plainError_ok _
      split
      · exact (d.plainError_xrange _ _ _).bind fun entries => (plainError_ok _).bind hrest
      · exact (plainError_ok _).bind hrest

/-! ## Commands on the keyspace -/

/-- The reply of an outcome is complete; a blocked command does not reply yet. -/
def Outcome.Formed : Outcome → Prop
  | .answer a => IsReply a.response
  | _ => True

/-- A command replies completely, or throws an exception whose text is one line. -/
structure WellReplied (result : CommandResult) : Prop where
  formed : ∀ outcome, result.2 = .ok outcome → outcome.Formed
  plain : PlainError result.2

/-- The value is a string. -/
def Value.isString : Value → Bool
  | .string _ => true
  | _ => false

/-- The value is a list. -/
def Value.isList : Value → Bool
  | .list _ => true
  | _ => false

/-- {lit}`GET` stands at a key with a value of another type that has not expired, or
{lit}`LPOP`, which does not look at deadlines, at any value of another type. -/
def FindsOtherType (cmd : Command) (now : Reading) (d : Store) : Prop :=
  ∃ v ∈ d (cmd.arg 0),
    (cmd.type = .get ∧ v.expired now.steady = false ∧ v.value.isString = false) ∨
      (cmd.type = .lpop ∧ v.value.isList = false)

section Commands

variable {cmd : Command} {now : Reading} {d : Store}

theorem wellReplied_answer {d' : Store} {a : Answer} (h : IsReply a.response) :
    WellReplied (d', .ok (.answer a)) := by
  constructor
  · intro outcome houtcome
    cases houtcome
    exact h
  · exact plainError_ok _

theorem wellReplied_error {d' : Store} {e : Exception} (h : NoCrlf e.what) :
    WellReplied (d', .error e) := by
  constructor
  · intro outcome houtcome
    cases houtcome
  · exact plainError_error h

/-- The check of the number of arguments. -/
theorem wellReplied_checked (hname : NoCrlf cmd.name) {n : Nat} {body : CommandResult}
    (h : WellReplied body) : WellReplied (checked cmd n d body) := by
  unfold checked checkArgs
  split
  · rename_i hargs
    split at hargs <;> cases hargs
    exact wellReplied_answer (isReply_arguments hname)
  · exact h

/-- The error of a lookup that finds no value of another type. -/
theorem lookupError_eq {error : Bytes} (h : error = Store.keyNotFound) :
    lookupError error = nullBulk := by
  subst h
  decide +kernel

theorem wellReplied_get (hname : NoCrlf cmd.name) (htype : cmd.type = .get)
    (hother : ¬ FindsOtherType cmd now d) : WellReplied (getExecute cmd now d) := by
  apply wellReplied_checked hname
  have hget : ∀ error, (d.get (cmd.arg 0) now.steady).2 = .error error →
      error = Store.keyNotFound := by
    intro error herror
    unfold Store.get at herror
    split at herror
    · cases herror
      rfl
    · rename_i v hkey
      split at herror
      · cases herror
        rfl
      · rename_i hlive
        split at herror
        · cases herror
        · rename_i hstring
          have hvalue : v.value.isString = false := by
            unfold Value.isString
            split
            · rename_i str heq
              exact absurd heq (hstring str)
            · rfl
          exact absurd ⟨v, hkey, Or.inl ⟨htype, eq_false_of_ne_true hlive, hvalue⟩⟩ hother
  split
  · exact wellReplied_answer (.bulk _)
  · rename_i d' error hresult
    rw [lookupError_eq (hget error (by rw [hresult]))]
    exact wellReplied_answer .nullBulk

theorem wellReplied_lpop (hname : NoCrlf cmd.name) (htype : cmd.type = .lpop)
    (hother : ¬ FindsOtherType cmd now d) : WellReplied (lpopExecute cmd now d) := by
  apply wellReplied_checked hname
  have hpop : ∀ count error, (d.lpop (cmd.arg 0) count).2 = .error error →
      error = Store.keyNotFound := by
    intro count error herror
    unfold Store.lpop at herror
    split at herror
    · cases herror
      rfl
    · cases herror
    · rename_i v hlist hkey
      refine absurd ⟨v, hkey, Or.inr ⟨htype, ?_⟩⟩ hother
      rcases v with ⟨value, expiresAt⟩
      cases value with
      | list elements => exact absurd rfl (hlist elements expiresAt)
      | string str => rfl
      | stream entries => rfl
  split
  · rename_i e hcount
    refine wellReplied_error ?_
    unfold lpopCount at hcount
    split at hcount
    · exact plainError_stoull _ e hcount
    · cases hcount
  · rename_i count hcount
    split
    · rename_i d' error hresult
      rw [lookupError_eq (hpop count error (by rw [hresult]))]
      exact wellReplied_answer .nullBulk
    · unfold lpopReply
      split
      · split
        · exact wellReplied_answer (.bulk _)
        · exact wellReplied_error (by decide)
      · exact wellReplied_answer (isReply_bulkArray _)

theorem wellReplied_set (hname : NoCrlf cmd.name) : WellReplied (setExecute cmd now d) := by
  apply wellReplied_checked hname
  have hok : IsReply (ascii "+OK\r\n") := IsLine.isReply (by decide)
  split
  · rename_i e hexpiry
    exact wellReplied_error (plainError_parseExpiry _ e hexpiry)
  · exact wellReplied_answer hok
  · split
    · exact wellReplied_answer (IsLine.isReply (by decide +kernel))
    · exact wellReplied_answer hok

theorem wellReplied_type (hname : NoCrlf cmd.name) : WellReplied (typeExecute cmd now d) := by
  apply wellReplied_checked hname
  have hnone : NoCrlf (ascii "none") := by decide
  have hname : ∀ v : StoreValue, NoCrlf v.typeName := by
    intro v
    unfold StoreValue.typeName
    split <;> decide
  refine wellReplied_answer (.line (Or.inl rfl) ?_)
  unfold Store.type
  split
  · exact hnone
  · split
    · exact hnone
    · exact hname _

theorem wellReplied_incr (hname : NoCrlf cmd.name) : WellReplied (incrExecute cmd now d) := by
  apply wellReplied_checked hname
  have herror : ∀ error, (d.incr (cmd.arg 0) now.steady).2 = .error error →
      error = Store.notAnInteger := by
    intro error h
    unfold Store.incr at h
    split at h
    · cases h
    · rename_i v hkey
      split at h
      · cases h
      · rcases Store.incrValue_cases d (cmd.arg 0) v with ⟨n, hvalue⟩ | hvalue
        · rw [hvalue] at h
          cases h
        · rw [hvalue] at h
          cases h
          rfl
  split
  · exact wellReplied_answer (isReply_integer _)
  · rename_i d' error hresult
    rw [herror error (by rw [hresult])]
    exact wellReplied_answer (IsLine.isReply (by decide +kernel))

theorem wellReplied_push (hname : NoCrlf cmd.name)
    (push : Store → Bytes → List Bytes → Store × Nat) : WellReplied (pushExecute push cmd d) :=
  wellReplied_checked hname (wellReplied_answer (isReply_integer _))

theorem wellReplied_lrange (hname : NoCrlf cmd.name) : WellReplied (lrangeExecute cmd now d) := by
  apply wellReplied_checked hname
  cases hstart : stoll (cmd.arg 1) with
  | error e => exact wellReplied_error (plainError_stoll _ e hstart)
  | ok start =>
      cases hstop : stoll (cmd.arg 2) with
      | error e => exact wellReplied_error (plainError_stoll _ e hstop)
      | ok stop => exact wellReplied_answer (isReply_bulkArray _)

theorem wellReplied_blpop (hname : NoCrlf cmd.name) : WellReplied (blpopExecute cmd now d) := by
  apply wellReplied_checked hname
  have hkeys : ∀ keys, PlainError (blpopKeys d keys).2 := by
    intro keys
    induction keys with
    | nil => exact plainError_ok _
    | cons key keys ih =>
        unfold blpopKeys
        split
        · exact plainError_ok _
        · exact plainError_error (noCrlf_rangeCheck _ _)
        · exact ih
  split
  · rename_i e htimeout
    exact wellReplied_error (plainError_stod _ e htimeout)
  · split
    · rename_i d' e hresult
      exact wellReplied_error (hkeys _ e (by rw [hresult]))
    · exact wellReplied_answer (isReply_pop _ _)
    · exact ⟨fun outcome houtcome => by cases houtcome; trivial, plainError_ok _⟩

theorem wellReplied_xadd : WellReplied (xaddExecute cmd now d) := by
  unfold xaddExecute
  split
  · exact wellReplied_answer (IsLine.isReply (by decide +kernel))
  · rcases hadd : d.xadd (cmd.arg 0) (cmd.arg 1) (pairs (cmd.args.drop 2)) now.system with ⟨d', result⟩
    unfold Store.xadd at hadd
    split at hadd
    · cases hadd
      exact wellReplied_answer (IsLine.isReply (by decide +kernel))
    · have hplain := StreamUtils.plainError_generateStreamId (cmd.arg 1)
        (Store.lastId (Store.streamSlot (d.slot (cmd.arg 0)))) now.system
      simp only at hadd
      split at hadd
      · cases hadd
        exact wellReplied_answer (.bulk _)
      · rename_i what hid
        cases hadd
        exact wellReplied_answer (isReply_exception (hplain _ hid))
      · rename_i e _ hid
        cases hadd
        exact wellReplied_error (hplain _ hid)

theorem wellReplied_xrange : WellReplied (xrangeExecute cmd now d) := by
  unfold xrangeExecute
  split
  · exact wellReplied_answer (IsLine.isReply (by decide +kernel))
  · split
    · exact wellReplied_answer (isReply_entries _)
    · rename_i e hrange
      exact wellReplied_answer (isReply_exception (d.plainError_xrange _ _ _ e hrange))

theorem wellReplied_xread : WellReplied (xreadExecute cmd now d) := by
  unfold xreadExecute
  simp only
  split
  · exact wellReplied_answer (IsLine.isReply (by decide))
  · split
    · rename_i e hresolve
      exact wellReplied_error (plainError_resolveStreamIds _ _ e hresolve)
    · split
      · rename_i e hread
        exact wellReplied_answer (isReply_exception (d.plainError_xread _ e hread))
      · split
        · exact wellReplied_answer (isReply_formatStreamEntries _)
        · split
          · exact wellReplied_answer .nullArray
          · exact ⟨fun outcome houtcome => by cases houtcome; trivial, plainError_ok _⟩

/-- The replies of the commands on the keyspace are complete, unless {lit}`GET` or
{lit}`LPOP` finds a value of another type. -/
theorem wellReplied_of_dataCommand {body : Command → Reading → Store → CommandResult}
    (hbody : dataCommand cmd.type = some body) (hname : NoCrlf cmd.name)
    (hother : ¬ FindsOtherType cmd now d) : WellReplied (body cmd now d) := by
  cases htype : cmd.type <;> simp only [htype, dataCommand, Option.some.injEq, reduceCtorEq] at hbody
  case ping =>
    subst hbody
    unfold pingExecute
    split
    · exact wellReplied_answer (.bulk _)
    · exact wellReplied_answer (IsLine.isReply (by decide))
  case echo =>
    subst hbody
    exact wellReplied_checked hname (wellReplied_answer (.bulk _))
  case set =>
    subst hbody
    exact wellReplied_set hname
  case get =>
    subst hbody
    exact wellReplied_get hname htype hother
  case typeCmd =>
    subst hbody
    exact wellReplied_type hname
  case incr =>
    subst hbody
    exact wellReplied_incr hname
  case rpush =>
    subst hbody
    exact wellReplied_push hname _
  case lpush =>
    subst hbody
    exact wellReplied_push hname _
  case lrange =>
    subst hbody
    exact wellReplied_lrange hname
  case llen =>
    subst hbody
    exact wellReplied_checked hname (wellReplied_answer (isReply_integer _))
  case lpop =>
    subst hbody
    exact wellReplied_lpop hname htype hother
  case blpop =>
    subst hbody
    exact wellReplied_blpop hname
  case xadd =>
    subst hbody
    exact wellReplied_xadd
  case xrange =>
    subst hbody
    exact wellReplied_xrange
  case xread =>
    subst hbody
    exact wellReplied_xread

end Commands

/-- {lit}`INFO` replies completely. -/
theorem isReply_info (config : ServerConfig) (stats : ServerStats)
    (registry : Option ReplicaRegistry) (cmd : Command) :
    IsReply (infoExecute config stats registry cmd) := by
  unfold infoExecute
  split
  · exact IsLine.isReply (by decide +kernel)
  · exact .bulk _

end RedisClone
