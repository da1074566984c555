import RedisClone.Server.ReplyFormat
import RedisClone.Server.Completion

/-!
# Where a reply ends

The store thread gives its replies to a connection one behind the other.  No complete reply is the
beginning of another one, so whoever knows nothing but the protocol cuts them in one way only.  The
errors that a connection writes itself, and the socket, are not part of this.

Main results:

- Theorem {lit}`IsReply.eq_of_append`: complete replies are a prefix code.
- Theorem {lit}`replies_self_delimiting`: whatever complete replies are cut off, they are the
  replies to the requests.
-/

namespace RedisClone

open RespValue

variable {env : Env}

/-- What is behind the first line of a complete reply. -/
inductive ReplyBody : UInt8 → Bytes → Bytes → Prop where
  | line {kind : UInt8} {text : Bytes} (hkind : kind = 43 ∨ kind = 45 ∨ kind = 58) :
      ReplyBody kind text []
  | null (kind : UInt8) : ReplyBody kind (ascii "-1") []
  | bulk (text : Bytes) : ReplyBody 36 (Decimal.render text.length) (text ++ crlf)
  | array {replies : List Bytes} (hreplies : ∀ r ∈ replies, IsReply r) :
      ReplyBody 42 (Decimal.render replies.length) replies.flatten

/-- A complete reply starts with a line. -/
theorem IsReply.exists_body {x : Bytes} (h : IsReply x) :
    ∃ kind line body, x = kind :: (line ++ (crlf ++ body)) ∧ NoCrlf line ∧
      ReplyBody kind line body := by
  cases h with
  | line hkind htext => exact ⟨_, _, [], by simp, htext, .line hkind⟩
  | bulk text =>
      exact ⟨36, _, text ++ crlf, by simp [bulkReply, ascii], noCrlf_render _, .bulk text⟩
  | nullBulk => exact ⟨36, ascii "-1", [], rfl, by decide, .null 36⟩
  | nullArray => exact ⟨42, ascii "-1", [], rfl, by decide, .null 42⟩
  | array hreplies =>
      exact ⟨42, _, _, by simp [arrayHeader, ascii], noCrlf_render _, .array hreplies⟩

/-- A numeral is not the length of a null. -/
theorem render_ne_minus (n : Nat) : Decimal.render n ≠ ascii "-1" := by
  intro heq
  have hdigit := @Decimal.isDigit_of_mem_render n 45 (by rw [heq]; decide)
  contradiction

/-- Of two rows of replies that can be cut off in one way, one is the beginning of the other. -/
theorem comparable_of_flatten {xs ys : List Bytes} {a b : Bytes}
    (hxs : ∀ x ∈ xs, ∀ y a b, IsReply y → x ++ a = y ++ b → x = y) (hys : ∀ y ∈ ys, IsReply y)
    (heq : xs.flatten ++ a = ys.flatten ++ b) : xs <+: ys ∨ ys <+: xs := by
  induction xs generalizing ys with
  | nil => exact Or.inl List.nil_prefix
  | cons x xs ih =>
      cases ys with
      | nil => exact Or.inr List.nil_prefix
      | cons y ys =>
          simp only [List.flatten_cons, List.append_assoc] at heq
          cases hxs x List.mem_cons_self y _ _ (hys y List.mem_cons_self) heq
          simpa only [List.prefix_cons_inj] using
            ih (fun x' hmem => hxs x' (List.mem_cons_of_mem _ hmem))
              (fun y' hmem => hys y' (List.mem_cons_of_mem _ hmem)) (List.append_cancel_left heq)

/-- Complete replies are a prefix code. -/
theorem IsReply.eq_of_append {x : Bytes} (hx : IsReply x) :
    ∀ y a b, IsReply y → x ++ a = y ++ b → x = y := by
  induction hn : x.length using Nat.strong_induction_on generalizing x with
  | _ n ih =>
      intro y a b hy heq
      rcases hx.exists_body with ⟨kind, line, body, rfl, hline, hbody⟩
      rcases hy.exists_body with ⟨kind', line', body', rfl, hline', hbody'⟩
      simp only [List.cons_append, List.cons.injEq, List.append_assoc] at heq
      rcases heq with ⟨hkinds, heq⟩
      have hread := congrArg readLine heq
      rw [readLine_append_crlf hline, readLine_append_crlf hline', Option.some.injEq,
        Prod.mk.injEq] at hread
      rcases hread with ⟨hlines, hrest⟩
      suffices hbodies : body = body' by rw [hkinds, hlines, hbodies]
      cases hbody with
      | line hkind =>
          cases hbody' with
          | line | null => rfl
          | bulk | array => simp [hkinds] at hkind
      | null =>
          cases hbody' with
          | line | null => rfl
          | bulk | array => exact absurd hlines.symm (render_ne_minus _)
      | bulk text =>
          cases hbody' with
          | line hkind => simp [← hkinds] at hkind
          | null => exact absurd hlines (render_ne_minus _)
          | bulk text' =>
              have hlength := Decimal.render_injective hlines
              simp only [List.append_assoc] at hrest
              rw [(List.append_inj hrest hlength).1]
          | array => contradiction
      | @array replies hreplies =>
          cases hbody' with
          | line hkind => simp [← hkinds] at hkind
          | null => exact absurd hlines (render_ne_minus _)
          | bulk => contradiction
          | array hreplies' =>
              have hshort : ∀ r ∈ replies, r.length < n := by
                intro r hmem
                have hle := (List.sublist_flatten_of_mem hmem).length_le
                simp only [List.length_cons, List.length_append] at hn
                omega
              have hlength := Decimal.render_injective hlines
              rcases comparable_of_flatten (fun r hmem => ih r.length (hshort r hmem)
                (hreplies r hmem) rfl) hreplies' hrest with h | h
              · rw [h.eq_of_length hlength]
              · rw [h.eq_of_length hlength.symm]

/-- Complete replies that are cut off from a row of complete replies are the first ones. -/
theorem isPrefix_of_flatten {xs ys : List Bytes} (hxs : ∀ x ∈ xs, IsReply x)
    (hys : ∀ y ∈ ys, IsReply y) (h : xs.flatten <+: ys.flatten) : xs <+: ys := by
  rcases h with ⟨rest, heq⟩
  rcases comparable_of_flatten (fun x hmem => (hxs x hmem).eq_of_append) hys
    (heq.trans (List.append_nil _).symm) with h | ⟨more, rfl⟩
  · exact h
  · cases more with
    | nil => simp
    | cons x more =>
        rcases (hxs x (by simp)).exists_body with ⟨kind, line, body, rfl, -⟩
        simp at heq

/-- The replies to some of the requests, in the order in which they were written. -/
def responsesTo (mine : Nat → Bool) (trace : List TraceEntry) : List Bytes :=
  ((replies trace).filter fun reply => mine reply.1).map Prod.snd

/-- In every run in which no unregistered command has a line terminator in its name and no
{lit}`GET` or {lit}`LPOP` finds a value of another type, whoever cuts a beginning of the replies that
the store thread gave to some requests into complete replies finds these replies, one by one; and no
complete reply is the beginning of another one. -/
theorem replies_self_delimiting {registry : ReplicaRegistry} {events : List Event}
    {t : StoreThread} (hevents : ∀ event ∈ events, event.From NamePlain)
    (hsteps : Execution.Along (StoreThread.step env) (FindsItsType env) (.withReplicas registry)
      events)
    (hrun : StoreThread.run env (.withReplicas registry) events = some t) {mine : Nat → Bool}
    (hmine : ∀ n, mine n = true → ¬ (OnReply.connection n).OfReplication t.server.trace)
    {decoded : List Bytes} (hdecoded : ∀ r ∈ decoded, IsReply r)
    (hbytes : decoded.flatten <+: (responsesTo mine t.server.trace).flatten) :
    decoded <+: responsesTo mine t.server.trace ∧
      ∀ x y, IsReply x → IsReply y → x <+: y → x = y := by
  have hformed : RepliesFormed t :=
    Execution.follow_invariant repliesFormed_step
      ⟨⟨from_initial.congr (fun _ => rfl) rfl, by simp⟩, by simp [ContextsFormed], by simp, by simp⟩
      ((Execution.along_of_forall hevents _).and hsteps) hrun
  refine ⟨isPrefix_of_flatten hdecoded (fun r hmem => ?_) hbytes, ?_⟩
  swap
  · rintro x y hx hy ⟨rest, heq⟩
    exact hx.eq_of_append y rest [] hy (by rw [heq, List.append_nil])
  rcases List.mem_map.mp hmem with ⟨⟨n, r⟩, hreply, rfl⟩
  rcases List.mem_filter.mp hreply with ⟨hreply, hn⟩
  rcases List.mem_filterMap.mp hreply with ⟨entry, hentry, heq⟩
  cases entry with
  | replied number response =>
      cases heq
      exact (hformed.replied _ _ hentry).resolve_right (hmine _ hn)
  | _ => contradiction

/-- A connection pushes and pops. -/
def pushedAndPopped : List Event :=
  job 0 (.short (ascii "RPUSH") [ascii "l", ascii "a"] (Eq.refl true)) 4 ++
    job 0 (.short (ascii "LPOP") [ascii "l"] (Eq.refl true)) 3

/-- What a client can cut off from its two replies is the number. -/
theorem replies_self_delimiting_pop :
    ∃ t, StoreThread.run sampleEnv (.withReplicas .empty) pushedAndPopped = some t ∧
      (responsesTo [0, 1].contains t.server.trace).flatten = ascii ":1\r\n$1\r\na\r\n" ∧
      [ascii ":1\r\n"] <+: responsesTo [0, 1].contains t.server.trace := by
  have hdone : (StoreThread.run sampleEnv (.withReplicas .empty) pushedAndPopped).map
      (fun t => ((responsesTo [0, 1].contains t.server.trace).flatten,
        decide ((OnReply.connection 0).OfReplication t.server.trace),
        decide ((OnReply.connection 1).OfReplication t.server.trace))) =
        some (ascii ":1\r\n$1\r\na\r\n", false, false) := by
    decide +kernel
  rcases Option.map_eq_some_iff.mp hdone with ⟨t, ht, hfacts⟩
  simp only [Prod.mk.injEq, decide_eq_false_iff_not] at hfacts
  refine ⟨t, ht, hfacts.1, (replies_self_delimiting (by decide +kernel) (by decide +kernel) ht
    (fun n hn => ?_) (fun r hmem => ?_) ?_).1⟩
  · rcases (show n = 0 ∨ n = 1 by simpa using hn) with rfl | rfl
    · exact hfacts.2.1
    · exact hfacts.2.2
  · rw [List.mem_singleton.mp hmem]
    exact isReply_integer 1
  · rw [hfacts.1]
    exact ⟨ascii "$1\r\na\r\n", rfl⟩

end RedisClone
