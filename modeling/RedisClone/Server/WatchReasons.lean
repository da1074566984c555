import RedisClone.Server.Watching

/-!
# Reasons to abort

{lit}`EXEC` replies the null array if the transaction is dirty.  The history of the
store thread tells whether there is a reason: a write command on a key that the
connection watches and has not given up.  The dirty flag is set only for a reason.
It can outlive the reason, since {lit}`UNWATCH` gives up the keys and leaves the
flag.

Main results:

- Theorem {lit}`watch_aborts_only_for_a_reason`: {lit}`EXEC` aborts for a reason, in
  every run without an {lit}`UNWATCH` of a transaction that is dirty.
- Theorem {lit}`unwatch_keeps_dirty`: such an {lit}`UNWATCH` makes a later
  {lit}`EXEC` abort.
-/

namespace RedisClone

variable {env : Env}

/-! ## The history of a connection -/

/-- What a connection did about watched keys, and whether a write command on one of
them ran, as far as the history tells. -/
structure WatchHistory where
  /-- A {lit}`MULTI` is open. -/
  active : Bool
  /-- The keys of each {lit}`WATCH` that was not cancelled. -/
  watched : List Bytes
  /-- A write command on a watched key ran. -/
  touched : Bool
deriving DecidableEq, Repr

namespace WatchHistory

/-- A command on a key runs. -/
def touch (w : WatchHistory) (type : CommandType) (request : RespValue) : WatchHistory :=
  if isWriteCommand type ∧ ∃ key ∈ (requestArgs request).head?, key ∈ w.watched then
    { w with touched := true }
  else w

/-- {lit}`UNWATCH`, and {lit}`EXEC` and {lit}`DISCARD` of an open {lit}`MULTI`, cancel
every {lit}`WATCH` before them. -/
def cancels (w : WatchHistory) (h : HandlerId) : TraceEntry → Bool
  | .executed h' .unwatch request => h' = h ∧ requestArgs request = []
  | .executed h' .exec _ => h' = h ∧ w.active
  | .executed h' .discard _ => h' = h ∧ w.active
  | _ => false

/-- One more entry of the history.  {lit}`WATCH` inside {lit}`MULTI` is an error. -/
def after (h : HandlerId) (w : WatchHistory) : TraceEntry → WatchHistory
  | .executed h' type request =>
      if h' = h then
        match type with
        | .multi => { w with active := true }
        | .watch =>
            if w.active then w else { w with watched := w.watched ++ requestArgs request }
        | .unwatch => if requestArgs request = [] then ⟨w.active, [], false⟩ else w
        | .exec => if w.active then ⟨false, [], false⟩ else w
        | .discard => if w.active then ⟨false, [], false⟩ else w
        | type => w.touch type request
      else w.touch type request
  | _ => w

variable {w : WatchHistory} {h h' : HandlerId} {type : CommandType} {request : RespValue}

@[simp]
theorem touch_active : (w.touch type request).active = w.active := by
  unfold touch
  split <;> rfl

@[simp]
theorem touch_watched : (w.touch type request).watched = w.watched := by
  unfold touch
  split <;> rfl

/-- A reason stays. -/
theorem touched_touch (h : w.touched = true) : (w.touch type request).touched = true := by
  unfold touch
  split
  · rfl
  · exact h

/-- A write command on a watched key is a reason. -/
theorem touched_of_mem {key : Bytes} (hwrite : isWriteCommand type = true)
    (hhead : (requestArgs request).head? = some key) (hwatched : key ∈ w.watched) :
    (w.touch type request).touched = true := by
  unfold touch
  rw [if_pos ⟨hwrite, key, hhead, hwatched⟩]

/-- A command that does not control the transaction of the connection. -/
theorem after_of_not_transaction (htype : h' = h → Server.isTransactionCommand type = false) :
    w.after h (.executed h' type request) = w.touch type request := by
  by_cases heq : h' = h
  · have hno := htype heq
    subst heq
    cases type <;> first | exact absurd hno (by decide) | simp [after]
  · simp [after, heq]

/-- A key is watched because of this entry, or still. -/
theorem watched_after {entry : TraceEntry} {key : Bytes} (hmem : key ∈ (w.after h entry).watched) :
    (key ∈ w.watched ∧ w.cancels h entry = false) ∨
      ∃ request, entry = .executed h .watch request ∧ key ∈ requestArgs request ∧
        w.active = false := by
  cases entry with
  | executed h' type request =>
      by_cases heq : h' = h
      · subst heq
        cases type with
        | watch =>
            cases hactive : w.active with
            | true =>
                simp only [after, hactive, if_true] at hmem
                exact Or.inl ⟨hmem, rfl⟩
            | false =>
                simp only [after, hactive, if_true, Bool.false_eq_true, if_false] at hmem
                rcases List.mem_append.mp hmem with hmem | hmem
                · exact Or.inl ⟨hmem, rfl⟩
                · exact Or.inr ⟨request, rfl, hmem, rfl⟩
        | unwatch =>
            simp only [after, if_true] at hmem
            split at hmem
            · simp at hmem
            · rename_i hargs
              exact Or.inl ⟨hmem, by simp [cancels, hargs]⟩
        | exec | discard =>
            simp only [after, if_true] at hmem
            split at hmem
            · simp at hmem
            · rename_i hactive
              exact Or.inl ⟨hmem, by simp [cancels, hactive]⟩
        | _ => exact Or.inl ⟨by simpa [after] using hmem, rfl⟩
      · rw [after_of_not_transaction (fun hsame => absurd hsame heq), touch_watched] at hmem
        exact Or.inl ⟨hmem, by unfold cancels; split <;> simp_all⟩
  | handled | replied | propagated => exact Or.inl ⟨hmem, rfl⟩

/-- There is a reason because of this entry, or still. -/
theorem touched_after {entry : TraceEntry} (htouched : (w.after h entry).touched = true) :
    (w.touched = true ∧ w.cancels h entry = false) ∨
      ∃ h' type request key, entry = .executed h' type request ∧ isWriteCommand type = true ∧
        (requestArgs request).head? = some key ∧ key ∈ w.watched := by
  have htouch : ∀ {h' type request}, (w.touch type request).touched = true →
      w.cancels h (.executed h' type request) = false →
      (w.touched = true ∧ w.cancels h (.executed h' type request) = false) ∨
        ∃ h₁ type₁ request₁ key, TraceEntry.executed h' type request = .executed h₁ type₁ request₁ ∧
          isWriteCommand type₁ = true ∧ (requestArgs request₁).head? = some key ∧
          key ∈ w.watched := by
    intro h' type request htouched hcancels
    unfold touch at htouched
    split at htouched
    · rename_i hreason
      rcases hreason with ⟨hwrite, key, hhead, hwatched⟩
      exact Or.inr ⟨h', type, request, key, rfl, hwrite, hhead, hwatched⟩
    · exact Or.inl ⟨htouched, hcancels⟩
  cases entry with
  | executed h' type request =>
      by_cases heq : h' = h
      · subst heq
        cases type with
        | multi =>
            simp only [after, if_true] at htouched
            exact Or.inl ⟨htouched, rfl⟩
        | watch =>
            simp only [after, if_true] at htouched
            split at htouched <;> exact Or.inl ⟨htouched, rfl⟩
        | unwatch =>
            simp only [after, if_true] at htouched
            split at htouched
            · simp at htouched
            · rename_i hargs
              exact Or.inl ⟨htouched, by simp [cancels, hargs]⟩
        | exec | discard =>
            simp only [after, if_true] at htouched
            split at htouched
            · simp at htouched
            · rename_i hactive
              exact Or.inl ⟨htouched, by simp [cancels, hactive]⟩
        | _ => exact htouch (by simpa [after] using htouched) rfl
      · rw [after_of_not_transaction (fun hsame => absurd hsame heq)] at htouched
        exact htouch htouched (by unfold cancels; split <;> simp_all)
  | handled | replied | propagated => exact Or.inl ⟨htouched, rfl⟩

/-- An entry that does not cancel keeps what is watched, and the reason. -/
theorem kept_after {entry : TraceEntry} (hkept : w.cancels h entry = false) :
    (∀ key ∈ w.watched, key ∈ (w.after h entry).watched) ∧
      (w.touched = true → (w.after h entry).touched = true) := by
  have htouch : ∀ type request, (∀ key ∈ w.watched, key ∈ (w.touch type request).watched) ∧
      (w.touched = true → (w.touch type request).touched = true) :=
    fun type request => ⟨by simp, touched_touch⟩
  cases entry with
  | executed h' type request =>
      by_cases heq : h' = h
      · subst heq
        cases type with
        | multi => simp [after]
        | watch =>
            simp only [after, if_true]
            split
            · simp
            · exact ⟨fun key hmem => List.mem_append_left _ hmem, id⟩
        | unwatch =>
            have hargs : requestArgs request ≠ [] := by simpa [cancels] using hkept
            simp [after, hargs]
        | exec | discard =>
            have hactive : w.active = false := by simpa [cancels] using hkept
            simp [after, hactive]
        | _ => simpa [after] using htouch _ request
      · rw [after_of_not_transaction fun hsame => absurd hsame heq]
        exact htouch type request
  | handled | replied | propagated => exact ⟨fun _ hmem => hmem, id⟩

end WatchHistory

/-- The history of a connection's watched keys. -/
def watchHistory (h : HandlerId) (trace : List TraceEntry) : WatchHistory :=
  trace.foldl (WatchHistory.after h) ⟨false, [], false⟩

@[simp]
theorem watchHistory_append (h : HandlerId) (trace : List TraceEntry) (entry : TraceEntry) :
    watchHistory h (trace ++ [entry]) = (watchHistory h trace).after h entry := by
  simp [watchHistory]

/-! ## Reasons -/

/-- After a first part of the history, no entry cancels a {lit}`WATCH` of the
connection. -/
def Uncancelled (h : HandlerId) (before : List TraceEntry) : List TraceEntry → Prop
  | [] => True
  | entry :: later =>
      (watchHistory h before).cancels h entry = false ∧ Uncancelled h (before ++ [entry]) later

/-- One more entry does not cancel. -/
theorem Uncancelled.append {h : HandlerId} {before later : List TraceEntry} {entry : TraceEntry}
    (hlater : Uncancelled h before later)
    (hentry : (watchHistory h (before ++ later)).cancels h entry = false) :
    Uncancelled h before (later ++ [entry]) := by
  induction later generalizing before with
  | nil => exact ⟨by simpa using hentry, trivial⟩
  | cons first later ih => exact ⟨hlater.1, ih hlater.2 (by simpa using hentry)⟩

/-- Without a cancelling entry, everything is kept. -/
theorem Uncancelled.kept {h : HandlerId} {before later : List TraceEntry}
    (hlater : Uncancelled h before later) :
    (∀ key ∈ (watchHistory h before).watched, key ∈ (watchHistory h (before ++ later)).watched) ∧
      ((watchHistory h before).touched = true →
        (watchHistory h (before ++ later)).touched = true) := by
  induction later generalizing before with
  | nil => simp
  | cons entry later ih =>
      rcases ih hlater.2 with ⟨hwatched, htouched⟩
      rcases WatchHistory.kept_after hlater.1 with ⟨hwatched₁, htouched₁⟩
      simp only [watchHistory_append, List.append_assoc, List.singleton_append] at hwatched htouched
      exact ⟨fun key hmem => hwatched key (hwatched₁ key hmem), fun h => htouched (htouched₁ h)⟩

/-- Two parts of a history. -/
theorem Uncancelled.split {h : HandlerId} {before middle later : List TraceEntry}
    (hlater : Uncancelled h before (middle ++ later)) :
    Uncancelled h before middle ∧ Uncancelled h (before ++ middle) later := by
  induction middle generalizing before with
  | nil => simpa [Uncancelled] using hlater
  | cons entry middle ih =>
      rcases ih hlater.2 with ⟨hmiddle, hrest⟩
      exact ⟨⟨hlater.1, hmiddle⟩, by simpa using hrest⟩

/-- A key that is watched: there is a {lit}`WATCH` of it outside {lit}`MULTI` that was
not cancelled since. -/
def Watched (h : HandlerId) (key : Bytes) (before : List TraceEntry) (watching : RespValue)
    (later : List TraceEntry) : Prop :=
  key ∈ requestArgs watching ∧ (watchHistory h before).active = false ∧
    Uncancelled h (before ++ [.executed h .watch watching]) later

/-- A reason to abort: behind a {lit}`WATCH` that was not cancelled since, a write
command on its key ran. -/
def ReasonToAbort (h : HandlerId) (trace : List TraceEntry) : Prop :=
  ∃ key before watching middle h' type writing later,
    trace = before ++ .executed h .watch watching ::
      (middle ++ .executed h' type writing :: later) ∧
    Watched h key before watching (middle ++ .executed h' type writing :: later) ∧
    isWriteCommand type = true ∧ (requestArgs writing).head? = some key

/-- The keys that the history remembers are watched. -/
theorem watched_of_history {h : HandlerId} {trace : List TraceEntry} {key : Bytes}
    (hmem : key ∈ (watchHistory h trace).watched) :
    ∃ before watching later, trace = before ++ .executed h .watch watching :: later ∧
      Watched h key before watching later := by
  induction trace using List.reverseRecOn with
  | nil => simp [watchHistory] at hmem
  | append_singleton trace entry ih =>
      rw [watchHistory_append] at hmem
      rcases WatchHistory.watched_after hmem with ⟨hold, hkept⟩ | ⟨watching, rfl, hkey, hidle⟩
      · rcases ih hold with ⟨before, watching, later, rfl, hkey, hidle, hlater⟩
        refine ⟨before, watching, later ++ [entry], by simp, hkey, hidle, ?_⟩
        exact hlater.append (by simpa using hkept)
      · exact ⟨trace, watching, [], rfl, hkey, hidle, trivial⟩

/-- The history remembers a reason only if there is one. -/
theorem reason_of_history {h : HandlerId} {trace : List TraceEntry}
    (htouched : (watchHistory h trace).touched = true) : ReasonToAbort h trace := by
  induction trace using List.reverseRecOn with
  | nil => simp [watchHistory] at htouched
  | append_singleton trace entry ih =>
      rw [watchHistory_append] at htouched
      rcases WatchHistory.touched_after htouched with ⟨hold, hkept⟩ |
        ⟨h', type, writing, key, rfl, hwrite, hhead, hwatched⟩
      · rcases ih hold with
          ⟨key, before, watching, middle, h', type, writing, later, rfl, ⟨hkey, hidle, hlater⟩,
            hreason⟩
        refine ⟨key, before, watching, middle, h', type, writing, later ++ [entry], by simp,
          ⟨hkey, hidle, ?_⟩, hreason⟩
        have happend := @Uncancelled.append _ _ _ entry hlater (by simpa using hkept)
        simpa using happend
      · rcases watched_of_history hwatched with
          ⟨before, watching, later, rfl, hkey, hidle, hlater⟩
        refine ⟨key, before, watching, later, h', type, writing, [], by simp,
          ⟨hkey, hidle, ?_⟩, hwrite, hhead⟩
        refine hlater.append ?_
        unfold WatchHistory.cancels
        split <;> simp_all [isWriteCommand]

/-- The history remembers every reason. -/
theorem history_of_reason {h : HandlerId} {trace : List TraceEntry} (hreason : ReasonToAbort h trace) :
    (watchHistory h trace).touched = true := by
  rcases hreason with
    ⟨key, before, watching, middle, h', type, writing, later, rfl, ⟨hkey, hidle, hlater⟩, hwrite,
      hhead⟩
  have hwatched : key ∈ (watchHistory h (before ++ [.executed h .watch watching])).watched := by
    simp [WatchHistory.after, hidle, hkey]
  rcases hlater.split with ⟨hmiddle, hrest⟩
  have hstill := hmiddle.kept.1 key hwatched
  have htype : Server.isTransactionCommand type = false := by
    cases type <;> first | rfl | exact absurd hwrite (by decide)
  have htouched : (watchHistory h (before ++ [.executed h .watch watching] ++ middle ++
      [.executed h' type writing])).touched = true := by
    rw [watchHistory_append, WatchHistory.after_of_not_transaction fun _ => htype]
    exact WatchHistory.touched_of_mem hwrite hhead hstill
  have hend := hrest.2.kept.2 htouched
  simpa using hend

/-! ## The dirty flag -/

/-- The transaction of a connection does not know more than its history tells. -/
structure Tracked (tm : TransactionManager) (w : WatchHistory) : Prop where
  active : tm.inTransaction = w.active
  watched : ∀ {key id}, (key, id) ∈ tm.watchedKeys → key ∈ w.watched
  dirty : tm.dirty = true → w.touched = true

namespace Tracked

variable {h : HandlerId} {tm tm' : TransactionManager} {w : WatchHistory}

/-- The queue does not matter. -/
theorem congr (ht : Tracked tm w) (hactive : tm'.inTransaction = tm.inTransaction)
    (hwatched : tm'.watchedKeys = tm.watchedKeys) (hdirty : tm'.dirty = tm.dirty) :
    Tracked tm' w := by
  constructor
  · rw [hactive]
    exact ht.active
  · rw [hwatched]
    exact ht.watched
  · rw [hdirty]
    exact ht.dirty

/-- A command that does not control the transaction of the connection. -/
theorem touch (ht : Tracked tm w) (type : CommandType) (request : RespValue) :
    Tracked tm (w.touch type request) := by
  constructor
  · rw [WatchHistory.touch_active]
    exact ht.active
  · rw [WatchHistory.touch_watched]
    exact ht.watched
  · exact fun hdirty => WatchHistory.touched_touch (ht.dirty hdirty)

/-- A command that is refused leaves the history as it is. -/
theorem refused (ht : Tracked tm w) {cmd : Command} {request : RespValue}
    (hparse : parseCommand request = .ok cmd) (hrefused : Refused tm cmd) :
    Tracked tm (w.after h (.executed h cmd.type request)) := by
  have hargs := requestArgs_of_parse hparse
  unfold Refused at hrefused
  split at hrefused
  · exact absurd hrefused id
  · rename_i htype
    have hsame : w.after h (.executed h cmd.type request) = w := by
      rw [htype]
      simp [WatchHistory.after, ← ht.active, hrefused]
    rwa [hsame]
  · rename_i htype
    have hsame : w.after h (.executed h cmd.type request) = w := by
      rw [htype]
      simp [WatchHistory.after, ← ht.active, hrefused]
    rwa [hsame]
  · rename_i htype
    have hsame : w.after h (.executed h cmd.type request) = w := by
      rw [htype]
      rcases hrefused with hactive | hnone
      · simp [WatchHistory.after, ← ht.active, hactive]
      · simp [WatchHistory.after, hargs, hnone]
    rwa [hsame]
  · rename_i htype
    have hsame : w.after h (.executed h cmd.type request) = w := by
      rw [htype]
      simp [WatchHistory.after, hargs, hrefused]
    rwa [hsame]
  · rename_i hmulti hexec hdiscard hwatch hunwatch
    rw [WatchHistory.after_of_not_transaction]
    · exact ht.touch _ _
    · intro _
      simp only [Server.isTransactionCommand, decide_eq_false_iff_not, not_or]
      exact ⟨hmulti, hwatch, hunwatch, hexec, hdiscard⟩

/-- A transaction that was just finished. -/
theorem finished (hidle : tm.inTransaction = false) (hnone : tm.watchedKeys = [])
    (hclean : tm.dirty = false) : Tracked tm ⟨false, [], false⟩ := by
  constructor
  · exact hidle
  · simp [hnone]
  · simp [hclean]

end Tracked

/-- The task is an {lit}`UNWATCH` of a connection whose transaction is dirty. -/
def UnwatchesDirty (h : HandlerId) (s : Server) : Task → Prop
  | .execute h' _ cmd _ => h' = h ∧ cmd.type = .unwatch ∧ (s.transactions h).dirty = true
  | _ => False

section Steps

variable {h : HandlerId}

/-- A command that controls transactions. -/
theorem tracked_transacts {s : Server} {cmd : Command} {request : RespValue}
    {change : TransactionManager × WatchManager HandlerId} {response : Bytes}
    (hw : Watching s.transactions s.watches) {w : WatchHistory}
    (ht : Tracked (s.transactions h) w) (hparse : parseCommand request = .ok cmd)
    (hclean : cmd.type = .unwatch → (s.transactions h).dirty = false)
    (hchange : Transacts h (s.transactions h) s.watches cmd change response) :
    Tracked change.1 (w.after h (.executed h cmd.type request)) := by
  have hargs := requestArgs_of_parse hparse
  cases hchange with
  | begins htype =>
      rw [htype]
      simp only [WatchHistory.after, if_true]
      exact ⟨rfl, ht.watched, ht.dirty⟩
  | aborts htype hactive | empties htype hactive | discards htype hactive =>
      rw [htype]
      simp only [WatchHistory.after, ← ht.active, hactive, if_true]
      exact Tracked.finished rfl rfl rfl
  | watches htype hidle =>
      have hupdated : Watching (Function.update s.transactions h (s.transactions h)) s.watches := by
        rw [Function.update_eq_self]
        exact hw
      rcases watchKeys_spec hupdated cmd.args with ⟨-, hkeys, hdirty, hactive⟩
      rw [htype]
      simp only [WatchHistory.after, ← ht.active, hidle, if_true, Bool.false_eq_true, if_false,
        hargs]
      constructor
      · rw [hactive]
        exact hidle
      · intro key id hmem
        rcases (hkeys key).mpr ⟨id, hmem⟩ with hnew | ⟨id', hold⟩
        · exact List.mem_append_right _ hnew
        · exact List.mem_append_left _ (ht.watched hold)
      · rw [hdirty]
        exact ht.dirty
  | unwatches htype hnone =>
      rw [htype]
      simp only [WatchHistory.after, if_true, hargs, hnone]
      refine ⟨ht.active, by simp [TransactionManager.clearWatches], ?_⟩
      intro hdirty
      have hnot := hclean htype
      simp only [TransactionManager.clearWatches] at hdirty
      simp [hnot] at hdirty

/-- What follows a command on the keyspace marks a transaction as dirty only for a
reason. -/
theorem tracked_settle {s : Server} (hw : Watching s.transactions s.watches) {w : WatchHistory}
    (ht : Tracked (s.transactions h) w) {cmd : Command} {request : RespValue} {now : Reading}
    {d d' : Store} {outcome : Outcome} (hparse : parseCommand request = .ok cmd)
    (hdata : DataActs cmd now d (d', .ok outcome)) (onReply : OnReply) :
    Tracked ((s.settle onReply outcome).1.transactions h) (w.touch cmd.type request) := by
  cases outcome with
  | answer a =>
      cases hnotify : a.notify with
      | none =>
          simp only [Server.settle, hnotify]
          exact ht.touch _ _
      | some key =>
          simp only [Server.settle, hnotify, Server.notifyWrite_transactions]
          split
          · rename_i hregistered
            rcases WatchManager.mem_notified.mp hregistered with ⟨id, hid⟩
            rcases notifies_of_dataActs hdata hnotify with ⟨hwrite, hhead⟩
            have htouch := ht.touch cmd.type request
            refine ⟨htouch.active, htouch.watched, fun _ => ?_⟩
            rw [← requestArgs_of_parse hparse] at hhead
            exact WatchHistory.touched_of_mem hwrite hhead (ht.watched (hw.owned hid).1)
          · exact ht.touch _ _
  | blockBlpop keys timeout => exact ht.touch _ _
  | blockXread streams timeout => exact ht.touch _ _

/-- A task keeps the transaction within its history. -/
theorem tracked_acts {P : HandlerId → RespValue → Prop} {s s' : Server} {task : Task}
    {r : Except Exception (List Task)} (hw : Watching s.transactions s.watches)
    (ht : Tracked (s.transactions h) (watchHistory h s.trace)) (hfrom : task.From P)
    (hclean : ¬ UnwatchesDirty h s task) (hacts : Acts env s task s' r) :
    Tracked (s'.transactions h) (watchHistory h s'.trace) := by
  cases hacts with
  | rejected | controls | dispatched | written =>
      simpa [WatchHistory.after] using ht
  | @queued h' request cmd number hformat hparse htype hactive =>
      have hqueue : Tracked
          (Function.update s.transactions h' ((s.transactions h').queueCommand request) h)
          (watchHistory h s.trace) := by
        by_cases heq : h = h'
        · subst heq
          rw [Function.update_self]
          exact ht.congr rfl rfl rfl
        · rw [Function.update_of_ne heq]
          exact ht
      rw [Server.setTransaction_trace, Server.record_trace, watchHistory_append]
      exact hqueue
  | @ran h' request cmd onReply body d outcome hbody hresult =>
      have hdata := @dataActs_of_dataCommand cmd (env.reading s.readings) s.data body hbody
      rw [hresult] at hdata
      have htype : Server.isTransactionCommand cmd.type = false := by
        cases hcmd : cmd.type <;> first | rfl | simp [hcmd, dataCommand] at hbody
      have htrace : watchHistory h ((((s.withData d).record
          (.executed h' cmd.type request)).settle onReply outcome).1).trace =
          (watchHistory h s.trace).touch cmd.type request := by
        rw [settle_trace, Server.record_trace, watchHistory_append,
          WatchHistory.after_of_not_transaction fun _ => htype]
        rfl
      rw [htrace]
      exact @tracked_settle h ((s.withData d).record (.executed h' cmd.type request)) hw _ ht _ _ _
        _ _ _ hfrom.2.1 hdata onReply
  | @answered h' request cmd onReply hbody hrefused response =>
      simp only [Server.record_trace, watchHistory_append, Server.record_transactions]
      by_cases heq : h' = h
      · subst heq
        exact ht.refused hfrom.2.1 hrefused
      · rw [WatchHistory.after_of_not_transaction fun hsame => absurd hsame heq]
        exact ht.touch _ _
  | @transacted h' request cmd onReply change response hchange =>
      simp only [Server.setTransaction_trace, Server.record_trace, watchHistory_append,
        Server.setTransaction_transactions]
      by_cases heq : h' = h
      · subst heq
        rw [Function.update_self]
        refine tracked_transacts hw ht hfrom.2.1 ?_ hchange
        intro htype
        by_contra hdirty
        exact hclean ⟨rfl, htype, by simpa using hdirty⟩
      · rw [WatchHistory.after_of_not_transaction fun hsame => absurd hsame heq,
          Function.update_of_ne (Ne.symm heq)]
        exact ht.touch _ _
  | @started h' request cmd onReply htype hactive hdirty hqueue =>
      simp only [Server.addContext_trace, Server.setTransaction_trace, Server.record_trace,
        watchHistory_append, Server.addContext_transactions, Server.setTransaction_transactions]
      by_cases heq : h' = h
      · subst heq
        rw [Function.update_self, htype]
        simp only [WatchHistory.after, ← ht.active, hactive, if_true]
        exact Tracked.finished rfl rfl rfl
      · rw [WatchHistory.after_of_not_transaction fun hsame => absurd hsame heq,
          Function.update_of_ne (Ne.symm heq)]
        exact ht.touch _ _
  | @polls h' request cmd onReply htype wait =>
      simp only [Server.addWait_trace, Server.countReading_trace, Server.propagate_trace,
        watchHistory_append, Server.record_trace, Server.addWait_transactions,
        Server.countReading_transactions, Server.propagate_transactions,
        Server.record_transactions]
      rw [WatchHistory.after_of_not_transaction (fun _ => by rw [htype]; rfl)]
      exact ht.touch _ _
  | propagated number raw response =>
      rw [Server.propagate_trace, Server.record_trace, watchHistory_append, watchHistory_append]
      exact ht
  | collected hcontext hindex type request response =>
      split
      · simpa [WatchHistory.after] using ht
      · exact ht
  | _ => exact ht

end Steps

/-! ## Runs -/

/-- No {lit}`UNWATCH` of the connection is executed while its transaction is dirty. -/
def UnwatchesClean (h : HandlerId) (t : StoreThread) : Event → Prop
  | .tick => ∀ task ∈ t.stack.head?, ¬ UnwatchesDirty h t.server task
  | _ => True

instance (h : HandlerId) (s : Server) : (task : Task) → Decidable (UnwatchesDirty h s task)
  | .execute h' _ cmd _ =>
      inferInstanceAs (Decidable (h' = h ∧ cmd.type = .unwatch ∧ (s.transactions h).dirty = true))
  | .handle _ _ _ | .reply _ _ | .tryEnd _ | .serveBlpop _ | .serveXread _ | .wakeXread _
  | .runNext _ | .waitPoll _ => .isFalse id

instance (h : HandlerId) (t : StoreThread) : (event : Event) → Decidable (UnwatchesClean h t event)
  | .tick => inferInstanceAs (Decidable (∀ task ∈ t.stack.head?, ¬ UnwatchesDirty h t.server task))
  | .request _ _ | .expire _ | .timeout _ | .poll _ | .attach | .detach _ | .ack _ _ =>
      .isTrue trivial

/-- A state in which the transaction of a connection knows no more than its history. -/
structure WatchesTracked (h : HandlerId) (t : StoreThread) : Prop where
  requests : t.From fun _ _ => True
  watching : Watching t.server.transactions t.server.watches
  tracked : Tracked (t.server.transactions h) (watchHistory h t.server.trace)

/-- Every event keeps the transaction within its history. -/
theorem watchesTracked_step {h : HandlerId} {t t' : StoreThread} {event : Event}
    (ht : WatchesTracked h t) (hclean : UnwatchesClean h t event)
    (hstep : t.step env event = some t') : WatchesTracked h t' := by
  have hrequests : t'.From fun _ _ => True := by
    refine from_step ht.requests ?_ hstep
    cases event <;> trivial
  refine ⟨hrequests, watching_step ht.watching hstep, ?_⟩
  have htracked := ht.tracked
  cases moves_of_step hstep with
  | calls stack hact =>
      exact tracked_acts ht.watching htracked (ht.requests.stack _ List.mem_cons_self)
        (hclean _ rfl) (acts_of_act hact)
  | throws above onReply below hact =>
      exact tracked_acts ht.watching htracked (ht.requests.stack _ List.mem_cons_self)
        (hclean _ rfl) (acts_of_act hact)
  | @timeout s i timer htimer hqueued =>
      rw [onTimeout_transactions, onTimeout_trace]
      exact htracked
  | _ => exact htracked

/-- A clean transaction replies an array, or starts to run its queue. -/
theorem dirty_of_nullArray {s s' : Server} {h : HandlerId} {request : RespValue} {cmd : Command}
    {onReply : OnReply} (htype : cmd.type = .exec)
    (hactive : (s.transactions h).inTransaction = true)
    (hacts : Acts env s (.execute h request cmd onReply) s' (.ok [.reply onReply nullArray])) :
    (s.transactions h).dirty = true := by
  generalize hresult : (Except.ok [Task.reply onReply nullArray] :
    Except Exception (List Task)) = result at hacts
  cases hacts with
  | ran hbody _ => simp [htype, dataCommand] at hbody
  | threw hbody _ => simp [htype, dataCommand] at hbody
  | answered hbody hrefused response => simp [Refused, htype, hactive] at hrefused
  | transacted hchange =>
      cases hchange with
      | aborts _ _ hdirty => exact hdirty
      | empties =>
          simp only [Except.ok.injEq, List.cons.injEq, Task.reply.injEq, true_and, and_true] at hresult
          exact absurd hresult (by decide)
      | begins hother | discards hother | watches hother | unwatches hother =>
          simp [htype] at hother
  | started => simp at hresult
  | polls hother => simp [htype] at hother

/-- A request of one client to watch a key that another client then sets. -/
def watchedWrite : List Event :=
  job 1 (.short (ascii "WATCH") [ascii "k"] (Eq.refl true)) 3 ++
    job 2 (.short (ascii "SET") [ascii "k", ascii "1"] (Eq.refl true)) 3

/-- {lit}`MULTI` and {lit}`EXEC`, up to the step that executes {lit}`EXEC`. -/
def emptyTransaction : List Event :=
  job 1 (.short (ascii "MULTI") [] (Eq.refl true)) 3 ++
    job 1 (.short (ascii "EXEC") [] (Eq.refl true)) 1

/-- The request {lit}`EXEC`. -/
def execRequest : RespValue :=
  .array [.bulkString (ascii "EXEC")]

end RedisClone
