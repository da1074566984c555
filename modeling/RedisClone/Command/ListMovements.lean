import RedisClone.Command.DataTransitions
import RedisClone.Lib.Deque

/-!
# The elements of lists

The list at a key that only list commands touch is a double-ended queue:
{lit}`RPUSH` and {lit}`LPUSH` put elements in, {lit}`LPOP` and {lit}`BLPOP` take
elements from the front and deliver them.

Main results:

- Theorem {lit}`listStep_of_dataCommand`: every command is a step of the queue.
- Theorem {lit}`carries_of_dataCommand`: the elements that a command takes are those
  of its reply.
- Theorem {lit}`reply_of_onList`: a command that takes no element replies without one.
-/

namespace RedisClone

open Deque

namespace Store

/-- The elements of the list at a key; a key that is not set is an empty list. -/
def listAt (d : Store) (key : Bytes) : List Bytes :=
  match d key with
  | some ⟨.list elements, _⟩ => elements
  | _ => []

/-- The key is not set, or it holds a list without a deadline. -/
def HoldsList (d : Store) (key : Bytes) : Prop :=
  d key = none ∨ ∃ elements, d key = some ⟨.list elements, none⟩

theorem holdsList_empty (key : Bytes) : Store.empty.HoldsList key :=
  Or.inl rfl

variable {d : Store} {key : Bytes}

/-- What {lit}`listAt` and {lit}`HoldsList` look at. -/
theorem listAt_congr {d' : Store} (h : d' key = d key) : d'.listAt key = d.listAt key := by
  unfold listAt
  rw [h]

theorem HoldsList.congr {d' : Store} (hd : d.HoldsList key) (h : d' key = d key) :
    d'.HoldsList key := by
  unfold HoldsList
  rw [h]
  exact hd

/-- A key that holds a list holds nothing that expires. -/
theorem HoldsList.not_expired (hd : d.HoldsList key) {v : StoreValue} (hv : d key = some v)
    (now : Int) : v.expired now = false := by
  rcases hd with hnone | ⟨elements, hlist⟩
  · rw [hnone] at hv
    cases hv
  · rw [hlist] at hv
    cases hv
    rfl

/-- The slot of a key that holds a list. -/
theorem HoldsList.slot (hd : d.HoldsList key) :
    listSlot (d.slot key) = d.listAt key ∧ (d.slot key).expiresAt = none := by
  rcases hd with hnone | ⟨elements, hlist⟩
  · simp [Store.slot, listAt, hnone, StoreValue.default, listSlot]
  · simp [Store.slot, listAt, hlist, listSlot]

/-- The elements that an operation returns. -/
def taken : Except Bytes (List Bytes) → List Bytes
  | .ok elements => elements
  | .error _ => []

/-- {lit}`lpop` takes elements from the front. -/
theorem lpop_take (d : Store) (key : Bytes) (count : Nat) :
    d.listAt key = taken (d.lpop key count).2 ++ (d.lpop key count).1.listAt key := by
  cases hkey : d key with
  | none => simp [lpop, listAt, hkey, taken]
  | some v =>
      rcases v with ⟨value, expiresAt⟩
      cases value with
      | string str => simp [lpop, listAt, hkey, taken]
      | stream entries => simp [lpop, listAt, hkey, taken]
      | list elements =>
          have hall := List.take_append_drop (min count elements.length) elements
          by_cases hrest : elements.drop (min count elements.length) = []
          · rw [hrest, List.append_nil] at hall
            simp only [lpop, listAt, hkey, taken, hrest, if_true, erase_same, List.append_nil, hall]
          · simp only [lpop, listAt, hkey, taken, hrest, if_false, put_same, hall]

/-- A pop of one element. -/
theorem lpop_one_eq {d' : Store} {value : Bytes} {more : List Bytes}
    (hpop : d.lpop key 1 = (d', .ok (value :: more))) : more = [] := by
  unfold lpop at hpop
  split at hpop
  · cases hpop
  · simp only [Prod.mk.injEq, Except.ok.injEq] at hpop
    have hlength := congrArg List.length hpop.2
    simp only [List.length_take, List.length_cons] at hlength
    exact List.eq_nil_of_length_eq_zero (by omega)
  · cases hpop

/-- {lit}`lpop` leaves a list behind. -/
theorem HoldsList.lpop (hd : d.HoldsList key) (key' : Bytes) (count : Nat) :
    (d.lpop key' count).1.HoldsList key := by
  by_cases heq : key = key'
  · subst heq
    rcases hd with hnone | ⟨elements, hlist⟩
    · exact Or.inl (by simp [Store.lpop, hnone])
    · simp only [Store.lpop, hlist]
      split
      · exact Or.inl (erase_same d key)
      · exact Or.inr ⟨_, put_same d key _⟩
  · exact hd.congr (lpop_of_ne heq count)

end Store

/-! ## Movements -/

/-- The values that a push puts into the list at a key. -/
def pushedBy (key : Bytes) (cmd : Command) : List Bytes :=
  if (cmd.type = .rpush ∨ cmd.type = .lpush) ∧ 2 ≤ cmd.args.length ∧ cmd.arg 0 = key then
    cmd.args.drop 1
  else []

/-- The elements that {lit}`LPOP` or {lit}`BLPOP` takes from the list at a key. -/
def poppedBy (key : Bytes) (cmd : Command) (d : Store) : List Bytes :=
  match cmd.type with
  | .lpop =>
      if cmd.args.head? = some key then
        match lpopCount cmd with
        | .ok count => Store.taken (d.lpop key count).2
        | .error _ => []
      else []
  | .blpop =>
      if 2 ≤ cmd.args.length then
        match stod (cmd.args.getLastD []), (blpopKeys d cmd.args.dropLast).2 with
        | .ok _, .ok (some (key', value)) => if key' = key then [value] else []
        | _, _ => []
      else []
  | _ => []

/-- What a command moves in or out of the list at a key. -/
def movedBy (key : Bytes) (cmd : Command) (d : Store) : List (Movement Bytes) :=
  (pushedBy key cmd).map .pushed ++ (poppedBy key cmd d).map .delivered

/-- The command does not overwrite the list at a key. -/
def KeepsList (key : Bytes) (cmd : Command) : Prop :=
  cmd.type = .set ∨ cmd.type = .incr ∨ cmd.type = .xadd → cmd.args.head? ≠ some key

instance (key : Bytes) (cmd : Command) : Decidable (KeepsList key cmd) :=
  inferInstanceAs (Decidable (_ → _))

section Steps

variable {key : Bytes} {cmd : Command} {now : Reading} {d : Store} {count : Nat}

/-- Commands other than pushes and pops move nothing. -/
theorem movedBy_other (hrpush : cmd.type ≠ .rpush) (hlpush : cmd.type ≠ .lpush)
    (hlpop : cmd.type ≠ .lpop) (hblpop : cmd.type ≠ .blpop) : movedBy key cmd d = [] := by
  have hpushed : pushedBy key cmd = [] := by simp [pushedBy, hrpush, hlpush]
  have hpopped : poppedBy key cmd d = [] := by
    unfold poppedBy
    split
    · rename_i htype
      exact absurd htype hlpop
    · rename_i htype
      exact absurd htype hblpop
    · rfl
  simp [movedBy, hpushed, hpopped]

/-- Commands other than pushes and pops leave the list alone. -/
theorem same_of_dataActs (hd : d.NoEmptyList) (hlist : d.HoldsList key)
    (hkeeps : KeepsList key cmd) (hrpush : cmd.type ≠ .rpush) (hlpush : cmd.type ≠ .lpush)
    (hlpop : cmd.type ≠ .lpop) (hblpop : cmd.type ≠ .blpop) {result : CommandResult}
    (h : DataActs cmd now d result) : result.1 key = d key := by
  have hput : ∀ (v : StoreValue), cmd.type = .set ∨ cmd.type = .incr ∨ cmd.type = .xadd →
      cmd.args ≠ [] → d.put (cmd.arg 0) v key = d key := by
    intro v htype hargs
    refine Store.put_of_ne ?_ d v
    intro heq
    exact hkeeps htype (by rw [head_of_args hargs, heq])
  cases h with
  | replied | blocked | waits | threw => rfl
  | @removed v htype hkey hexpired response =>
      refine Store.erase_of_ne ?_ d
      rintro rfl
      rw [hlist.not_expired hkey] at hexpired
      cases hexpired
  | written htype hargs str expiresAt response =>
      exact hput _ (htype.imp id fun h => Or.inl h) hargs
  | pushed htype hargs => exact absurd htype (by simp [hrpush, hlpush])
  | popped htype => exact absurd htype hlpop
  | poppedNone hpop e => exact absurd hpop hd.lpop_one
  | blpopped htype => exact absurd htype hblpop
  | appended htype hargs hid => exact hput _ (Or.inr (Or.inr htype)) hargs
  | created htype hargs hkey response => exact hput _ (Or.inr (Or.inr htype)) hargs

/-- A push with all its arguments. -/
theorem listAt_push (hlist : d.HoldsList key) {change : List Bytes → List Bytes} {key' : Bytes} :
    (d.push key' change).1.HoldsList key ∧
      (d.push key' change).1.listAt key =
        if key' = key then change (d.listAt key) else d.listAt key := by
  unfold Store.push
  simp only
  by_cases heq : key' = key
  · subst heq
    rcases hlist.slot with ⟨hslot, hexpires⟩
    rw [hslot, hexpires, if_pos rfl]
    refine ⟨Or.inr ⟨_, Store.put_same d key' _⟩, ?_⟩
    unfold Store.listAt
    rw [Store.put_same]
  · have hsame : ∀ v, d.put key' v key = d key := fun v => Store.put_of_ne (Ne.symm heq) d v
    rw [if_neg heq]
    exact ⟨hlist.congr (hsame _), Store.listAt_congr (hsame _)⟩

/-- A step of the queue at a key; only {lit}`LPUSH` puts elements in front. -/
structure ListStep (key : Bytes) (cmd : Command) (d d' : Store) : Prop where
  holdsList : d'.HoldsList key
  step : Step (d.listAt key) (movedBy key cmd d) (d'.listAt key)
  queueStep : cmd.type ≠ .lpush ∨ pushedBy key cmd = [] →
    QueueStep (d.listAt key) (movedBy key cmd d) (d'.listAt key)

/-- A step that does not put elements in front. -/
theorem ListStep.of_queue {d' : Store} (hlist : d'.HoldsList key)
    (h : QueueStep (d.listAt key) (movedBy key cmd d) (d'.listAt key)) :
    ListStep key cmd d d' :=
  ⟨hlist, .queue h, fun _ => h⟩

/-- Nothing happens to the list. -/
theorem ListStep.same {d' : Store} (hlist : d.HoldsList key) (hmoved : movedBy key cmd d = [])
    (hsame : d' key = d key) : ListStep key cmd d d' := by
  refine .of_queue (hlist.congr hsame) ?_
  rw [hmoved, Store.listAt_congr hsame]
  exact .refl _

theorem poppedBy_push (htype : cmd.type = .rpush ∨ cmd.type = .lpush) : poppedBy key cmd d = [] := by
  unfold poppedBy
  rcases htype with htype | htype <;> rw [htype]

theorem listStep_rpush (htype : cmd.type = .rpush) (hlist : d.HoldsList key) :
    ListStep key cmd d (rpushExecute cmd now d).1 := by
  have hpopped : poppedBy key cmd d = [] := poppedBy_push (Or.inl htype)
  unfold rpushExecute pushExecute
  by_cases hargs : 2 ≤ cmd.args.length
  · rw [checked_of_le hargs]
    rcases @listAt_push key d hlist (· ++ cmd.args.drop 1) (cmd.arg 0) with ⟨hlist', hat⟩
    refine .of_queue hlist' ?_
    simp only [Store.rpush, hat, movedBy, hpopped, List.map_nil, List.append_nil]
    by_cases heq : cmd.arg 0 = key
    · simp only [pushedBy, htype, hargs, heq, true_or, and_self, if_true]
      exact .back _ _
    · simp only [pushedBy, heq, and_false, if_false, List.map_nil]
      exact .refl _
  · refine .same hlist ?_ ?_
    · simp [movedBy, hpopped, pushedBy, hargs]
    · rw [fst_checked_of_lt (Nat.lt_of_not_le hargs)]

theorem listStep_lpush (htype : cmd.type = .lpush) (hlist : d.HoldsList key) :
    ListStep key cmd d (lpushExecute cmd now d).1 := by
  have hpopped : poppedBy key cmd d = [] := poppedBy_push (Or.inr htype)
  unfold lpushExecute pushExecute
  by_cases hargs : 2 ≤ cmd.args.length
  · rw [checked_of_le hargs]
    rcases @listAt_push key d hlist
      (fun elements => (cmd.args.drop 1).foldl (fun list value => value :: list) elements)
      (cmd.arg 0) with ⟨hlist', hat⟩
    by_cases heq : cmd.arg 0 = key
    · have hpushed : pushedBy key cmd = cmd.args.drop 1 := by
        simp [pushedBy, htype, hargs, heq]
      have hne : pushedBy key cmd ≠ [] := by
        rw [hpushed]
        intro hnil
        have hlength := congrArg List.length hnil
        simp only [List.length_drop, List.length_nil] at hlength
        omega
      refine ⟨hlist', ?_, fun hno => ?_⟩
      · simp only [Store.lpush, hat, movedBy, hpopped, hpushed, List.map_nil, List.append_nil]
        rw [if_pos heq, List.foldl_flip_cons_eq_append']
        exact .front _ _
      · rcases hno with hno | hno
        · exact absurd htype hno
        · exact absurd hno hne
    · refine .of_queue hlist' ?_
      simp only [Store.lpush, hat, heq, if_false, movedBy, hpopped, pushedBy, and_false,
        List.map_nil, List.append_nil]
      exact .refl _
  · refine .same hlist ?_ ?_
    · simp [movedBy, hpopped, pushedBy, hargs]
    · rw [fst_checked_of_lt (Nat.lt_of_not_le hargs)]

theorem pushedBy_pop (htype : cmd.type = .lpop ∨ cmd.type = .blpop) : pushedBy key cmd = [] := by
  unfold pushedBy
  rcases htype with htype | htype <;> simp [htype]

/-- The elements that {lit}`lpop` returns leave the list. -/
theorem queueStep_lpop (hmoved : movedBy key cmd d = (Store.taken (d.lpop key count).2).map .delivered) :
    QueueStep (d.listAt key) (movedBy key cmd d) ((d.lpop key count).1.listAt key) := by
  rw [hmoved, Store.lpop_take d key count]
  exact .take _ _

theorem listStep_lpop (htype : cmd.type = .lpop) (hlist : d.HoldsList key) :
    ListStep key cmd d (lpopExecute cmd now d).1 := by
  have hpushed : pushedBy key cmd = [] := pushedBy_pop (Or.inl htype)
  unfold lpopExecute
  by_cases hargs : 1 ≤ cmd.args.length
  · rw [checked_of_le hargs]
    have hhead := head_of_args (List.ne_nil_of_length_pos hargs)
    cases hcount : lpopCount cmd with
    | error e =>
        refine .same hlist ?_ rfl
        simp [movedBy, hpushed, poppedBy, htype, hcount]
    | ok count =>
        suffices hstep : ListStep key cmd d (d.lpop (cmd.arg 0) count).1 by
          simp only
          rcases hpop : d.lpop (cmd.arg 0) count with ⟨d', error | values⟩ <;>
            rw [hpop] at hstep <;> exact hstep
        refine .of_queue (hlist.lpop _ _) ?_
        by_cases heq : cmd.arg 0 = key
        · rw [heq]
          apply queueStep_lpop
          simp [movedBy, hpushed, poppedBy, htype, hhead, heq, hcount]
        · have hmoved : movedBy key cmd d = [] := by
            simp [movedBy, hpushed, poppedBy, htype, hhead, heq]
          rw [hmoved, Store.listAt_congr (lpop_of_ne (Ne.symm heq) count)]
          exact .refl _
  · refine .same hlist ?_ ?_
    · have hnone : cmd.args = [] := List.eq_nil_of_length_eq_zero (by omega)
      simp [movedBy, hpushed, poppedBy, htype, hnone]
    · rw [fst_checked_of_lt (Nat.lt_of_not_le hargs)]

theorem listStep_blpop (hd : d.NoEmptyList) (htype : cmd.type = .blpop)
    (hlist : d.HoldsList key) : ListStep key cmd d (blpopExecute cmd now d).1 := by
  have hpushed : pushedBy key cmd = [] := pushedBy_pop (Or.inr htype)
  unfold blpopExecute
  by_cases hargs : 2 ≤ cmd.args.length
  · rw [checked_of_le hargs]
    cases htimeout : stod (cmd.args.getLastD []) with
    | error e =>
        refine .same hlist ?_ rfl
        simp only [movedBy, hpushed, poppedBy, htype, htimeout, hargs, if_true, List.map_nil,
          List.append_nil]
    | ok timeout =>
        rcases blpopKeys_cases d cmd.args.dropLast with
          ⟨key', -, d', value, more, hpop, hkeys⟩ | ⟨key', -, d', e, hpop, -⟩ | ⟨-, hkeys⟩
        · have hmoved : movedBy key cmd d = if key' = key then [.delivered value] else [] := by
            simp only [movedBy, hpushed, poppedBy, htype, hargs, htimeout, hkeys, if_true]
            split <;> rfl
          simp only [hkeys]
          have hlist' := hlist.lpop key' 1
          rw [hpop] at hlist'
          refine .of_queue hlist' ?_
          by_cases heq : key' = key
          · subst heq
            have hstep := @queueStep_lpop key' cmd d 1
            rw [hpop, Store.lpop_one_eq hpop] at hstep
            exact hstep (by rw [hmoved, if_pos rfl]; rfl)
          · have hsame := @lpop_of_ne d _ _ (Ne.symm heq) 1
            rw [hpop] at hsame
            rw [hmoved, if_neg heq, Store.listAt_congr hsame]
            exact .refl _
        · exact absurd hpop hd.lpop_one
        · simp only [hkeys]
          refine .same hlist ?_ rfl
          simp [movedBy, hpushed, poppedBy, htype, hkeys]
  · refine .same hlist ?_ ?_
    · simp [movedBy, hpushed, poppedBy, htype, hargs]
    · rw [fst_checked_of_lt (Nat.lt_of_not_le hargs)]

variable {body : Command → Reading → Store → CommandResult}

/-- Every command is a step of the queue at a key that it does not overwrite. -/
theorem listStep_of_dataCommand (hbody : dataCommand cmd.type = some body) (hd : d.NoEmptyList)
    (hlist : d.HoldsList key) (hkeeps : KeepsList key cmd) :
    ListStep key cmd d (body cmd now d).1 := by
  by_cases hrpush : cmd.type = .rpush
  · rw [hrpush] at hbody
    cases hbody
    exact listStep_rpush hrpush hlist
  by_cases hlpush : cmd.type = .lpush
  · rw [hlpush] at hbody
    cases hbody
    exact listStep_lpush hlpush hlist
  by_cases hlpop : cmd.type = .lpop
  · rw [hlpop] at hbody
    cases hbody
    exact listStep_lpop hlpop hlist
  by_cases hblpop : cmd.type = .blpop
  · rw [hblpop] at hbody
    cases hbody
    exact listStep_blpop hd hblpop hlist
  exact .same hlist (movedBy_other hrpush hlpush hlpop hblpop)
    (same_of_dataActs hd hlist hkeeps hrpush hlpush hlpop hblpop (dataActs_of_dataCommand hbody))

end Steps

/-! ## Replies -/

/-- A reply carries these elements of the list at a key, and no others: it is the one
of {lit}`LPOP` with or without a count, or the one of {lit}`BLPOP`. -/
def Carries (key : Bytes) (elements : List Bytes) (response : Bytes) : Prop :=
  response = bulkArray elements ∨
    ∃ element, elements = [element] ∧ (response = bulkReply element ∨ response = popReply key element)

/-- A reply without an element: an error, an integer, a null or an empty array. -/
def HoldsNothing (response : Bytes) : Prop :=
  response.head? = some 45 ∨ response.head? = some 58 ∨ response = nullBulk ∨
    response = nullArray ∨ response = bulkArray []

/-- A reply to a command on the list at a key: it carries the elements that were taken, or
there are none and it holds nothing, or an element of another list, under its key. -/
def Replies (key : Bytes) (elements : List Bytes) (response : Bytes) : Prop :=
  (elements ≠ [] ∧ Carries key elements response) ∨
    (elements = [] ∧
      (HoldsNothing response ∨ ∃ key' value, key' ≠ key ∧ response = popReply key' value))

/-- A push to the list at a key, a pop from it, or a pop from several lists. -/
def OnList (key : Bytes) (cmd : Command) : Prop :=
  ((cmd.type = .rpush ∨ cmd.type = .lpush ∨ cmd.type = .lpop) ∧ cmd.arg 0 = key) ∨
    cmd.type = .blpop

/-- The error for a wrong number of arguments holds nothing. -/
theorem holdsNothing_checked {cmd : Command} {n : Nat} {d : Store} {body : CommandResult}
    {a : Answer} (h : (checked cmd n d body).2 = .ok (.answer a)) :
    HoldsNothing a.response ∨ (n ≤ cmd.args.length ∧ body.2 = .ok (.answer a)) := by
  by_cases hargs : n ≤ cmd.args.length
  · rw [checked_of_le hargs] at h
    exact Or.inr ⟨hargs, h⟩
  · simp only [checked, checkArgs, if_pos (Nat.lt_of_not_le hargs)] at h
    cases h
    exact Or.inl (Or.inl rfl)

/-- The errors of {lit}`lpop`. -/
theorem lpop_errors {d d' : Store} {key error : Bytes} {count : Nat}
    (h : d.lpop key count = (d', .error error)) :
    error = Store.keyNotFound ∨ error = Store.wrongType := by
  unfold Store.lpop at h
  split at h <;> cases h
  · exact Or.inl rfl
  · exact Or.inr rfl

theorem holdsNothing_lookupError {error : Bytes}
    (h : error = Store.keyNotFound ∨ error = Store.wrongType) :
    HoldsNothing (lookupError error) := by
  unfold lookupError
  split
  · rename_i hinfix
    rcases h with rfl | rfl
    · exact absurd hinfix (by decide +kernel)
    · exact Or.inl rfl
  · exact Or.inr (Or.inr (Or.inl rfl))

section Replies

variable {key : Bytes} {cmd : Command} {now : Reading} {d : Store}
  {body : Command → Reading → Store → CommandResult}

theorem carries_lpop (htype : cmd.type = .lpop) (hpopped : poppedBy key cmd d ≠ []) :
    ∃ response, (lpopExecute cmd now d).2 = .ok (.answer ⟨some key, none, false, response⟩) ∧
      Carries key (poppedBy key cmd d) response := by
  simp only [poppedBy, htype] at hpopped ⊢
  split at hpopped
  · rename_i hhead
    rw [if_pos hhead]
    have hne : cmd.args ≠ [] := by
      rintro hnil
      rw [hnil] at hhead
      cases hhead
    have hkey : cmd.arg 0 = key := Option.some.inj ((head_of_args hne).symm.trans hhead)
    unfold lpopExecute
    rw [checked_of_le (List.length_pos_of_ne_nil hne), hkey]
    cases hcount : lpopCount cmd with
    | error e => simp [hcount] at hpopped
    | ok count =>
        simp only [hcount] at hpopped ⊢
        rcases hpop : d.lpop key count with ⟨d', error | values⟩
        · simp [hpop, Store.taken] at hpopped
        · simp only [hpop, Store.taken] at hpopped ⊢
          unfold lpopReply
          split
          · rename_i hshort
            unfold lpopCount at hcount
            rw [if_neg (by omega)] at hcount
            cases hcount
            cases values with
            | nil => exact absurd rfl hpopped
            | cons value more =>
                refine ⟨_, rfl, Or.inr ⟨value, ?_, Or.inl rfl⟩⟩
                rw [Store.lpop_one_eq hpop]
          · exact ⟨_, rfl, Or.inl rfl⟩
  · exact absurd rfl hpopped

theorem carries_blpop (htype : cmd.type = .blpop) (hpopped : poppedBy key cmd d ≠ []) :
    ∃ response, (blpopExecute cmd now d).2 = .ok (.reply response) ∧
      Carries key (poppedBy key cmd d) response := by
  simp only [poppedBy, htype] at hpopped ⊢
  split at hpopped
  · rename_i hargs
    rw [if_pos hargs]
    unfold blpopExecute
    rw [checked_of_le hargs]
    split at hpopped
    · rename_i htimeout hkeys
      split at hpopped
      · rename_i heq
        subst heq
        rcases hloop : blpopKeys d cmd.args.dropLast with ⟨d', found⟩
        rw [hloop] at hkeys
        cases hkeys
        simp only [htimeout, if_true]
        exact ⟨_, rfl, Or.inr ⟨_, rfl, Or.inr rfl⟩⟩
      · exact absurd rfl hpopped
    · exact absurd rfl hpopped
  · exact absurd rfl hpopped

/-- A command that takes elements replies with them at once. -/
theorem carries_of_dataCommand (hbody : dataCommand cmd.type = some body)
    (hpopped : poppedBy key cmd d ≠ []) :
    ∃ notify response, (body cmd now d).2 = .ok (.answer ⟨notify, none, false, response⟩) ∧
      Carries key (poppedBy key cmd d) response := by
  by_cases hlpop : cmd.type = .lpop
  · rw [hlpop] at hbody
    cases hbody
    exact ⟨_, carries_lpop hlpop hpopped⟩
  by_cases hblpop : cmd.type = .blpop
  · rw [hblpop] at hbody
    cases hbody
    exact ⟨_, carries_blpop hblpop hpopped⟩
  refine absurd ?_ hpopped
  unfold poppedBy
  split
  · exact absurd ‹_› hlpop
  · exact absurd ‹_› hblpop
  · rfl

/-- The reply of {lit}`LPOP` or {lit}`BLPOP` that takes nothing holds nothing. -/
theorem holdsNothing_lpop (htype : cmd.type = .lpop) (hkey : cmd.arg 0 = key)
    (hpopped : poppedBy key cmd d = []) {a : Answer}
    (hanswer : (lpopExecute cmd now d).2 = .ok (.answer a)) : HoldsNothing a.response := by
  unfold lpopExecute at hanswer
  rcases holdsNothing_checked hanswer with hnothing | ⟨hargs, hanswer⟩
  · exact hnothing
  have hhead : cmd.args.head? = some key := by
    rw [← hkey]
    exact head_of_args (List.length_pos_iff.mp hargs)
  simp only [poppedBy, htype, if_pos hhead] at hpopped
  rw [hkey] at hanswer
  cases hcount : lpopCount cmd with
  | error e => simp [hcount] at hanswer
  | ok count =>
      simp only [hcount] at hanswer hpopped
      rcases hpop : d.lpop key count with ⟨d', error | values⟩
      · simp only [hpop] at hanswer
        cases hanswer
        exact holdsNothing_lookupError (lpop_errors hpop)
      · simp only [hpop, Store.taken] at hanswer hpopped
        subst hpopped
        unfold lpopReply at hanswer
        split at hanswer
        · cases hanswer
        · cases hanswer
          exact Or.inr (Or.inr (Or.inr (Or.inr rfl)))

theorem holdsNothing_blpop (htype : cmd.type = .blpop) (hpopped : poppedBy key cmd d = [])
    {a : Answer} (hanswer : (blpopExecute cmd now d).2 = .ok (.answer a)) :
    HoldsNothing a.response ∨ ∃ key' value, key' ≠ key ∧ a.response = popReply key' value := by
  unfold blpopExecute at hanswer
  rcases holdsNothing_checked hanswer with hnothing | ⟨hargs, hanswer⟩
  · exact Or.inl hnothing
  simp only [poppedBy, htype, if_pos hargs] at hpopped
  cases htimeout : stod (cmd.args.getLastD []) with
  | error e =>
      simp only [htimeout] at hanswer
      cases hanswer
  | ok timeout =>
      simp only [htimeout] at hanswer hpopped
      rcases hloop : blpopKeys d cmd.args.dropLast with ⟨d', e | _ | ⟨key', value⟩⟩
      · simp [hloop] at hanswer
      · simp [hloop] at hanswer
      · simp only [hloop] at hanswer hpopped
        cases hanswer
        refine Or.inr ⟨key', value, ?_, rfl⟩
        rintro rfl
        simp at hpopped

/-- A command on the list replies with the elements that it takes, or holds none. -/
theorem reply_of_onList (hbody : dataCommand cmd.type = some body) (hlist : OnList key cmd)
    {a : Answer} (hanswer : (body cmd now d).2 = .ok (.answer a)) :
    Replies key (poppedBy key cmd d) a.response := by
  by_cases hpopped : poppedBy key cmd d = []
  · refine Or.inr ⟨hpopped, ?_⟩
    rcases hlist with ⟨htype, hkey⟩ | htype
    · refine Or.inl ?_
      rcases htype with htype | htype | htype <;> rw [htype] at hbody <;> cases hbody
      · rcases holdsNothing_checked hanswer with hnothing | ⟨-, hpush⟩
        · exact hnothing
        · cases hpush
          exact Or.inr (Or.inl rfl)
      · rcases holdsNothing_checked hanswer with hnothing | ⟨-, hpush⟩
        · exact hnothing
        · cases hpush
          exact Or.inr (Or.inl rfl)
      · exact holdsNothing_lpop htype hkey hpopped hanswer
    · rw [htype] at hbody
      cases hbody
      exact holdsNothing_blpop htype hpopped hanswer
  · rcases @carries_of_dataCommand key cmd now d body hbody hpopped with
      ⟨notify, response, hresult, hcarries⟩
    rw [hresult] at hanswer
    cases hanswer
    exact Or.inl ⟨hpopped, hcarries⟩

/-- A push of values replies with the length of the list behind it. -/
theorem reply_of_push (hbody : dataCommand cmd.type = some body) (hlist : d.HoldsList key)
    (hpushed : pushedBy key cmd ≠ []) :
    (body cmd now d).2 = .ok (.answer ⟨some key, some (.blpop key), false,
      integerReply ((d.listAt key).length + (pushedBy key cmd).length : Nat)⟩) := by
  by_cases hpush : (cmd.type = .rpush ∨ cmd.type = .lpush) ∧ 2 ≤ cmd.args.length ∧ cmd.arg 0 = key
  · rcases hpush with ⟨htype, hargs, rfl⟩
    have hvalues : pushedBy (cmd.arg 0) cmd = cmd.args.drop 1 := by simp [pushedBy, htype, hargs]
    rw [hvalues]
    rcases htype with htype | htype
    · rw [htype] at hbody
      cases hbody
      unfold rpushExecute pushExecute
      rw [checked_of_le hargs, Store.rpush, Store.push, hlist.slot.1, List.length_append]
    · rw [htype] at hbody
      cases hbody
      unfold lpushExecute pushExecute
      rw [checked_of_le hargs, Store.lpush, Store.push, hlist.slot.1,
        List.foldl_flip_cons_eq_append', List.length_append, List.length_reverse, Nat.add_comm]
  · exact absurd (if_neg hpush) hpushed

end Replies

end RedisClone
