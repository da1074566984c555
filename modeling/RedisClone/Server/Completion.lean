import RedisClone.Server.Callbacks
import RedisClone.State.ServingOrder

/-!
# Completion

A handler is complete when the tasks that it put on the stack have run to their end.
Callbacks that do not belong to an {lit}`EXEC` call no further tasks, and every round
of the loop that serves blocked clients takes an element from the list.

Main results:

- Theorem {lit}`serveBlpop_serves`: the loop that serves blocked clients ends, and serves them
  in order.
-/

namespace RedisClone

open CallStack

variable {env : Env} {s : Server}

/-! ## Ticks -/

/-- A number of ticks is a number of steps of the stack. -/
theorem run_ticks (env : Env) (t : StoreThread) (n : Nat) :
    t.run env (List.replicate n .tick) =
      ((storeMachine env).steps n t.server t.stack).map fun c => ⟨c.1, c.2⟩ := by
  induction n generalizing t with
  | zero => rfl
  | succ n ih =>
      rw [List.replicate_succ, StoreThread.run, Execution.follow, Machine.steps, StoreThread.step]
      cases (storeMachine env).step t.server t.stack with
      | none => rfl
      | some c => exact ih ⟨c.1, c.2⟩

/-- Tasks that run to their end. -/
theorem run_of_finishes {s' : Server} {tasks : List Task}
    (h : (storeMachine env).Finishes s tasks s') (below : List Task) :
    ∃ n, StoreThread.run env ⟨s, tasks ++ below⟩ (List.replicate n .tick) = some ⟨s', below⟩ := by
  rcases h.steps with ⟨n, hn⟩
  refine ⟨n, ?_⟩
  rw [run_ticks, hn]
  rfl

/-! ## Replies -/

/-- The request that a callback writes the reply to. -/
def OnReply.request : OnReply → Option Nat
  | .connection number => some number
  | .propagating number _ => some number
  | _ => none

/-- The replies that were written. -/
def replies (trace : List TraceEntry) : List (Nat × Bytes) :=
  trace.filterMap fun
    | .replied number response => some (number, response)
    | _ => none

/-- What a callback writes. -/
def OnReply.written (onReply : OnReply) (response : Bytes) : List (Nat × Bytes) :=
  onReply.request.toList.map fun number => (number, response)

/-- A callback that does not belong to an {lit}`EXEC`. -/
theorem reply_finishes {onReply : OnReply} (h : onReply.isExec = false) (response : Bytes) :
    ∃ s', (storeMachine env).Finishes s [.reply onReply response] s' ∧
      replies s'.trace = replies s.trace ++ onReply.written response ∧
      s'.data = s.data ∧ s'.blpop = s.blpop := by
  cases onReply with
  | connection number =>
      exact ⟨_, .single rfl, by simp [replies, OnReply.written, OnReply.request], rfl, rfl⟩
  | discard => exact ⟨_, .single rfl, by simp [OnReply.written, OnReply.request], rfl, rfl⟩
  | propagating number raw =>
      exact ⟨_, .single rfl, by simp [replies, OnReply.written, OnReply.request], rfl, rfl⟩
  | exec context type request => cases h

/-- The loop that serves blocked clients runs to its end, as {lit}`serve_blpop_waiters` does with
callbacks that only write a reply: the waiters are answered in the order in which they
came. -/
theorem serveBlpop_serves {key : Bytes}
    (hwaiters : ∀ waiter ∈ s.blpop.waiters key, waiter.2.onReply.isExec = false) :
    ∃ s', (storeMachine env).Finishes s [.serveBlpop key] s' ∧
      s'.data = (serveBlpopWaiters key s.blpop s.data).store ∧
      s'.blpop = (serveBlpopWaiters key s.blpop s.data).registry ∧
      replies s'.trace = replies s.trace ++
        (serveBlpopWaiters key s.blpop s.data).delivered.flatMap fun delivery =>
          delivery.1.2.onReply.written (popReply key delivery.2) := by
  generalize hr : s.blpop = r at hwaiters
  generalize hd : s.data = d
  -- every round takes an element
  fun_induction serveBlpopWaiters key r d generalizing s with
  | case1 r d hnone =>
      refine ⟨s, .single ?_, hd, hr, by simp⟩
      simp [storeMachine, Server.act, Server.serveBlpop, hr, hnone]
  | case2 r d waiter more hlist d' value _ hpop later =>
      rename_i ih
      subst hr hd
      have hact : s.act env (.serveBlpop key) =
          (((s.setData d').unregisterBlpop waiter.1).cancelTimer waiter.2.timer,
            .ok [.reply waiter.2.onReply (popReply key value), .serveBlpop key]) := by
        simp [Server.act, Server.serveBlpop, hlist, hpop]
      rcases @reply_finishes env
          (((s.setData d').unregisterBlpop waiter.1).cancelTimer waiter.2.timer)
          waiter.2.onReply (hwaiters waiter (by simp [hlist])) (popReply key value) with
        ⟨s₁, hreply, htrace, hdata, hblpop⟩
      have hleft : ∀ other ∈ (s.blpop.unregister waiter.1).waiters key,
          other.2.onReply.isExec = false := fun other hmem =>
        hwaiters other (BlockingRegistry.mem_waiters_of_unregister hmem)
      rcases ih hblpop hleft hdata with ⟨s', hloop, hstore, hregistry, hreplies⟩
      refine ⟨s', .cons hact (hreply.append hloop), hstore, hregistry, ?_⟩
      rw [hreplies, htrace, List.flatMap_cons, List.append_assoc]
      rfl
  | case3 r d waiter more hlist d' hpop =>
      subst hr hd
      refine ⟨s.setData d', .single ?_, rfl, rfl, by simp⟩
      simp [storeMachine, Server.act, Server.serveBlpop, hlist, hpop]
  | case4 r d waiter more hlist d' error hpop =>
      subst hr hd
      refine ⟨s, .single ?_, rfl, rfl, by simp⟩
      simp [storeMachine, Server.act, Server.serveBlpop, hlist, hpop]

end RedisClone
