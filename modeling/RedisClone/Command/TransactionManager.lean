import RedisClone.Resp.RespValue
import RedisClone.State.WatchManager

/-!
# The transaction of one connection

{lit}`TransactionManager` holds the queue of a {lit}`MULTI` block, the keys the
connection watches, and whether one of them was written.
-/

namespace RedisClone

/-- {lit}`TransactionManager`. -/
structure TransactionManager where
  inTransaction : Bool
  dirty : Bool
  queuedCommands : List RespValue
  /-- Watched keys and their registrations; no key occurs twice. -/
  watchedKeys : List (Bytes × Nat)
deriving DecidableEq

namespace TransactionManager

/-- The state of a new connection. -/
def fresh : TransactionManager :=
  ⟨false, false, [], []⟩

/-- {lit}`TransactionManager::begin`. -/
def begin (tm : TransactionManager) : TransactionManager :=
  { tm with inTransaction := true, queuedCommands := [] }

/-- {lit}`TransactionManager::clear_watches`. -/
def clearWatches {κ : Type} (tm : TransactionManager) (watches : WatchManager κ) :
    TransactionManager × WatchManager κ :=
  ({ tm with watchedKeys := [] },
    tm.watchedKeys.foldl (fun watches watched => watches.unwatch watched.2) watches)

/-- {lit}`TransactionManager::finish_transaction`. -/
def finishTransaction (tm : TransactionManager) : TransactionManager :=
  { tm with inTransaction := false, dirty := false }

/-- {lit}`TransactionManager::reset`. -/
def reset {κ : Type} (tm : TransactionManager) (watches : WatchManager κ) :
    TransactionManager × WatchManager κ :=
  let cleared := tm.clearWatches watches
  ({ cleared.1.finishTransaction with queuedCommands := [] }, cleared.2)

/-- {lit}`TransactionManager::mark_dirty`. -/
def markDirty (tm : TransactionManager) : TransactionManager :=
  { tm with dirty := true }

/-- {lit}`TransactionManager::watch_key`: whether the key is new. -/
def watchKey (tm : TransactionManager) (key : Bytes) : TransactionManager × Bool :=
  if tm.watchedKeys.any fun watched => watched.1 = key then (tm, false)
  else ({ tm with watchedKeys := tm.watchedKeys ++ [(key, 0)] }, true)

/-- {lit}`TransactionManager::associate_watch_id`. -/
def associateWatchId (tm : TransactionManager) (key : Bytes) (watchId : Nat) :
    TransactionManager :=
  { tm with
    watchedKeys := tm.watchedKeys.map fun watched =>
      if watched.1 = key then (watched.1, watchId) else watched }

/-- {lit}`TransactionManager::queue_command`. -/
def queueCommand (tm : TransactionManager) (request : RespValue) : TransactionManager :=
  { tm with queuedCommands := tm.queuedCommands ++ [request] }

/-- {lit}`TransactionManager::pop_queued_commands`. -/
def popQueuedCommands (tm : TransactionManager) : TransactionManager × List RespValue :=
  ({ tm with queuedCommands := [] }, tm.queuedCommands)

end TransactionManager

end RedisClone
