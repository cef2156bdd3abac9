import HubRelay.Proofs.Session.Answers
import HubRelay.Proofs.Session.Callers

/-!
What becomes of a caller that waits, one move at a time.

`Turn.Replied` spells out how a caller goes on that looks for its response. For any other caller a
move has one of three fates: it stays in the table, it is handed one of the messages that the move
posts, or it is released for one of the reasons in `Entry.Frees` (`Session.Moved.fate`).
-/

namespace HubRelay

/-! ### A caller looks for its response -/

/-- How a turn of a caller goes that awaits its response: it has mail, it goes on waiting, it waits
for the second time, it gives its request up, its second wait is over too, or the transport has
refused its request. -/
inductive Turn.Replied (x : Exchange) (now : Instant) : Turn → ReplyWait → Segment → Prop where
  | delivered {turn : Turn} {wait : ReplyWait} {m : Message} :
      x.awaited.mailFor wait.call = .delivered m →
      Replied x now turn wait
        ({ x with awaited := x.awaited.forget wait.call }, .finished (.replied (.ok m)))
  | released {turn : Turn} {wait : ReplyWait} :
      x.awaited.mailFor wait.call = .released →
      Replied x now turn wait
        ({ x with awaited := x.awaited.forget wait.call }, .finished (.replied (.error .reset)))
  | waits {turn : Turn} {wait : ReplyWait} :
      x.awaited.mailFor wait.call = .nothing → hasCome wait.deadline now = false →
      Replied x now turn wait (x, .waiting (.blocked (.reply wait)))
  | again {turn : Turn} {wait : ReplyWait} :
      x.awaited.mailFor wait.call = .nothing → wait.second = false →
      hasCome wait.deadline now = true → x.ledger.awaits wait.key = false →
      hasCome (now.after? wait.span) now = false →
      Replied x now turn wait
        (x, .waiting (.blocked (.reply
          { wait with deadline := now.after? wait.span, second := true })))
  | gaveUp {turn : Turn} {wait : ReplyWait} :
      x.awaited.mailFor wait.call = .nothing → wait.second = false →
      hasCome wait.deadline now = true → x.ledger.awaits wait.key = true →
      Replied x now turn wait
        ({ x with
            ledger := x.ledger.withoutRequest wait.key.handle wait.key.command
            awaited := (x.awaited.release wait.key).forget wait.call },
          .finished (.replied
            (x.timeoutReply (x.ledger.slotAt wait.key.handle wait.key.command).lapsed)))
  | overdue {turn : Turn} {wait : ReplyWait} :
      x.awaited.mailFor wait.call = .nothing →
      wait.second = true ∨ x.ledger.awaits wait.key = false →
      Replied x now turn wait
        ({ x with awaited := (x.awaited.release wait.key).forget wait.call },
          .finished (.replied (.error (.waitTimedOut wait.span))))
  | refused {o : Offering} {call : CallId} {span : Span} :
      o.purpose = .request (some (call, span)) →
      x.ledger.awaits o.message.header.key = true →
      Replied x now (.goesOn (.offering o) (.transport false))
        ⟨call, o.message.header.key, span, now.after? span, false⟩
        ({ x with
            ledger := x.ledger.withoutRequest o.message.header.handle o.message.header.command
            awaited := (x.awaited.release o.message.header.key).forget call },
          .finished (.replied
            (.error (.refused o.message.header.handle o.message.header.command))))

section Replies

variable {x : Exchange} {now : Instant} {turn : Turn} {wait later : ReplyWait}

/-- Nothing has come, and the caller looks once more or is through. -/
theorem replied_handOver (nothing : x.awaited.mailFor wait.call = .nothing)
    (second : wait.second = true) : Turn.Replied x now turn wait (x.pollHandOver wait now) := by
  rw [Exchange.pollHandOver, nothing]
  dsimp only
  cases come : hasCome wait.deadline now with
  | true => exact .overdue nothing (.inl second)
  | false => exact .waits nothing come

/-- A caller that looks at its mail finds a message, a release or nothing. -/
theorem replied_pollReply (x : Exchange) (now : Instant) (turn : Turn) (wait : ReplyWait) :
    Turn.Replied x now turn wait (x.pollReply wait now) := by
  rw [Exchange.pollReply]
  cases mail : x.awaited.mailFor wait.call with
  | delivered m => exact .delivered mail
  | released => exact .released mail
  | nothing =>
      dsimp only
      cases second : wait.second with
      | true => exact replied_handOver mail second
      | false =>
          rw [if_neg Bool.false_ne_true]
          cases come : hasCome wait.deadline now with
          | false => exact .waits mail come
          | true =>
              rw [if_pos rfl, Ledger.expire_eq]
              cases pending : x.ledger.awaits wait.key with
              | true => exact .gaveUp mail second come pending
              | false =>
                  rw [if_neg Bool.false_ne_true, Exchange.pollHandOver, mail]
                  dsimp only
                  cases come' : hasCome (now.after? wait.span) now with
                  | true => exact .overdue mail (.inr pending)
                  | false => exact .again mail second come pending come'

/-- This covers all turns of a caller that waits for a response. -/
theorem replied_of_turn {segment : Segment} (awaits : turn.AwaitsReply now wait)
    (turned : x.turn turn now = some segment) : Turn.Replied x now turn wait segment := by
  cases awaits with
  | waiting =>
      obtain rfl := Option.some.inj turned
      exact replied_pollReply x now _ _
  | @offered o call span accepted purpose =>
      obtain rfl := Option.some.inj turned
      obtain ⟨message, purpose'⟩ := o
      obtain rfl : purpose' = .request (some (call, span)) := purpose
      simp only [Exchange.offered]
      cases accepted with
      | true => exact replied_pollReply x now _ _
      | false =>
          have aborted : x.ledger.abort message.header.handle message.header.command
              message.header.transaction = if x.ledger.awaits message.header.key then
                some (x.ledger.withoutRequest message.header.handle message.header.command)
              else none := Ledger.abort_eq x.ledger message.header.key
          rw [if_neg Bool.false_ne_true, Exchange.requestRefused, aborted]
          cases pending : x.ledger.awaits message.header.key with
          | true => exact .refused rfl pending
          | false => exact replied_pollReply x now _ _

end Replies

/-! ### Waiting and having mail -/

namespace Awaited

variable {a : Awaited} {key : RequestKey} {call : CallId} {mail : Mail}

/-- A caller stands in the table under this key alone, and nothing has come for it. -/
structure Stands (a : Awaited) (key : RequestKey) (call : CallId) : Prop where
  waiting : (key, call) ∈ a.waiting
  alone : ∀ other, (other, call) ∈ a.waiting → other = key
  nothing : a.mailFor call = .nothing

/-- A caller has left the table and has this mail. -/
structure Got (a : Awaited) (call : CallId) (mail : Mail) : Prop where
  some : mail ≠ .nothing
  mail : a.mailFor call = mail
  gone : ∀ key, (key, call) ∉ a.waiting

/-- Mail that has come is not overtaken by mail that comes later. -/
theorem mailFor_append (nothing : a.mailFor call ≠ .nothing)
    (more : List (CallId × Option Message)) (waiting : List (RequestKey × CallId))
    (calls : CallId) :
    Awaited.mailFor ⟨waiting, a.mail ++ more, calls⟩ call = a.mailFor call := by
  unfold mailFor at nothing ⊢
  rw [List.find?_append]
  cases found : a.mail.find? fun m => m.1 == call with
  | none =>
      rw [found] at nothing
      exact absurd rfl nothing
  | some m => rfl

/-- A caller without mail gets the first that comes. -/
theorem mailFor_append_of_nothing (nothing : a.mailFor call = .nothing)
    (more : List (CallId × Option Message)) (waiting : List (RequestKey × CallId))
    (calls : CallId) :
    Awaited.mailFor ⟨waiting, a.mail ++ more, calls⟩ call =
      Awaited.mailFor ⟨waiting, more, calls⟩ call := by
  have none : a.mail.find? (fun m => m.1 == call) = none := by
    unfold mailFor at nothing
    split at nothing
    · assumption
    all_goals cases nothing
  unfold mailFor
  rw [List.find?_append, none]
  rfl

/-- What is put into the box of one caller, for those that leave the table. -/
theorem mailFor_leaving {leaving : List (RequestKey × CallId)} (mem : (key, call) ∈ leaving)
    (message : Option Message) (waiting : List (RequestKey × CallId)) (calls : CallId) :
    Awaited.mailFor ⟨waiting, leaving.map fun w => (w.2, message), calls⟩ call =
      match message with
      | none => .released
      | some m => .delivered m := by
  unfold mailFor
  have some : (List.map (fun w : RequestKey × CallId => (w.2, message)) leaving).find?
      (fun m => m.1 == call) = some (call, message) := by
    obtain ⟨m, found⟩ : ∃ m,
        (List.map (fun w : RequestKey × CallId => (w.2, message)) leaving).find?
          (fun m => m.1 == call) = some m := by
      rw [← Option.isSome_iff_exists, List.find?_isSome]
      exact ⟨(call, message), List.mem_map.mpr ⟨(key, call), mem, rfl⟩, beq_self_eq_true call⟩
    obtain ⟨w, -, rfl⟩ := List.mem_map.mp (List.mem_of_find?_eq_some found)
    have same : w.2 = call := by simpa using List.find?_some found
    rw [found, same]
  rw [some]
  cases message <;> rfl

/-- Mail for others is not mail for this caller. -/
theorem mailFor_others {leaving : List (RequestKey × CallId)}
    (others : ∀ w ∈ leaving, w.2 ≠ call) (message : Option Message)
    (waiting : List (RequestKey × CallId)) (calls : CallId) :
    Awaited.mailFor ⟨waiting, leaving.map fun w => (w.2, message), calls⟩ call = .nothing := by
  rw [mailFor_eq_nothing_iff]
  rintro ⟨m, mem, same⟩
  obtain ⟨w, left, rfl⟩ := List.mem_map.mp mem
  exact others w left same

namespace Stands

variable (stands : a.Stands key call)

include stands

/-- A caller that is picked out of the table is released, any other stays. -/
theorem releaseWhere (leaves : RequestKey → Bool) :
    if leaves key then (a.releaseWhere leaves).Got call .released
    else (a.releaseWhere leaves).Stands key call := by
  split
  · rename_i goes
    refine ⟨nofun, ?_, ?_⟩
    · exact (mailFor_append_of_nothing stands.nothing _ _ _).trans
        (mailFor_leaving (List.mem_filter.mpr ⟨stands.waiting, goes⟩) none _ _)
    · intro other mem
      obtain ⟨mem, stays⟩ := mem_waiting_releaseWhere.mp mem
      rw [stands.alone other mem, goes] at stays
      cases stays
  · rename_i stays
    refine ⟨List.mem_filter.mpr ⟨stands.waiting, by simpa using stays⟩, ?_, ?_⟩
    · exact fun other mem => stands.alone other (List.mem_filter.mp mem).1
    · refine (mailFor_append_of_nothing stands.nothing _ _ _).trans (mailFor_others ?_ _ _ _)
      rintro ⟨other, _⟩ mem rfl
      obtain ⟨mem, goes⟩ := List.mem_filter.mp mem
      obtain rfl := stands.alone other mem
      exact stays goes

/-- A caller that stands under a key is released with it and stays under any other. -/
theorem release (other : RequestKey) :
    if other = key then (a.release other).Got call .released
    else (a.release other).Stands key call := by
  have released := stands.releaseWhere (· == other)
  by_cases here : other = key
  · rw [if_pos here]
    rwa [if_pos (by simp [here])] at released
  · rw [if_neg here]
    rwa [if_neg (by simpa using Ne.symm here)] at released

/-- A message is handed to the caller that waits under its key. -/
theorem post (m : Message) :
    if m.header.key = key then (a.post m).Got call (.delivered m)
    else (a.post m).Stands key call := by
  split
  · rename_i here
    refine ⟨nofun, ?_, ?_⟩
    · exact (mailFor_append_of_nothing stands.nothing _ _ _).trans
        (mailFor_leaving (List.mem_filter.mpr ⟨stands.waiting, by simp [here]⟩) (some m) _ _)
    · intro other mem
      obtain ⟨mem, apart⟩ := List.mem_filter.mp mem
      obtain rfl := stands.alone other mem
      simp [here] at apart
  · rename_i apart
    refine ⟨List.mem_filter.mpr ⟨stands.waiting, by simpa using Ne.symm apart⟩, ?_, ?_⟩
    · exact fun other mem => stands.alone other (List.mem_filter.mp mem).1
    · refine (mailFor_append_of_nothing stands.nothing _ _ _).trans (mailFor_others ?_ _ _ _)
      rintro ⟨other, _⟩ mem rfl
      obtain ⟨mem, here⟩ := List.mem_filter.mp mem
      obtain rfl := stands.alone other mem
      exact apart (beq_iff_eq.mp here).symm

/-- Forgetting callers puts no mail into the box of one that stands. -/
theorem forget (gone : CallId) : (a.forget gone).Stands key call where
  waiting := stands.waiting
  alone := stands.alone
  nothing := by
    have nothing := mailFor_eq_nothing_iff.mp stands.nothing
    apply mailFor_eq_nothing_iff.mpr
    rintro ⟨m, mem, same⟩
    exact nothing ⟨m, (List.mem_filter.mp mem).1, same⟩

/-- A new caller under the same key sends the old one away. -/
theorem enlist (other : RequestKey) (old : call < a.calls) :
    if other = key then (a.enlist other).2.Got call .released
    else (a.enlist other).2.Stands key call := by
  have freed := stands.release other
  split
  · rename_i here
    rw [if_pos here] at freed
    refine ⟨nofun, freed.mail, ?_⟩
    intro k mem
    rcases List.mem_append.mp mem with mem | mem
    · exact freed.gone k mem
    · exact Nat.ne_of_lt old (Prod.mk.inj (List.mem_singleton.mp mem)).2
  · rename_i apart
    rw [if_neg apart] at freed
    refine ⟨List.mem_append_left _ freed.waiting, ?_, freed.nothing⟩
    intro k mem
    rcases List.mem_append.mp mem with mem | mem
    · exact freed.alone k mem
    · exact absurd (Prod.mk.inj (List.mem_singleton.mp mem)).2 (Nat.ne_of_lt old)

end Stands

namespace Got

variable (got : a.Got call mail)

include got

/-- Whoever has its mail keeps it while others are released. -/
theorem releaseWhere (leaves : RequestKey → Bool) : (a.releaseWhere leaves).Got call mail where
  some := got.some
  mail := (mailFor_append (got.mail ▸ got.some) _ _ _).trans got.mail
  gone := fun key mem => got.gone key (List.mem_filter.mp mem).1

theorem release (key : RequestKey) : (a.release key).Got call mail := got.releaseWhere (· == key)

/-- A response that is posted later does not replace the mail. -/
theorem post (m : Message) : (a.post m).Got call mail where
  some := got.some
  mail := (mailFor_append (got.mail ▸ got.some) _ _ _).trans got.mail
  gone := fun key mem => got.gone key (List.mem_filter.mp mem).1

theorem enlist (key : RequestKey) (old : call < a.calls) : (a.enlist key).2.Got call mail where
  some := got.some
  mail := (got.release key).mail
  gone := by
    intro other mem
    rcases List.mem_append.mp mem with mem | mem
    · exact (got.release key).gone other mem
    · exact Nat.ne_of_lt old (Prod.mk.inj (List.mem_singleton.mp mem)).2

theorem forget {gone : CallId} (other : gone ≠ call) : (a.forget gone).Got call mail where
  some := got.some
  mail := by
    rw [← got.mail]
    unfold mailFor Awaited.forget
    rw [List.find?_filter]
    congr 2
    funext m
    by_cases here : m.1 = call
    · simp [here, Ne.symm other]
    · simp [here]
  gone := got.gone

end Got

/-- Nor do several of them. -/
theorem got_postAll (got : a.Got call mail) (messages : List Message) :
    (a.postAll messages).Got call mail := by
  induction messages generalizing a with
  | nil => exact got
  | cons m rest ih => exact ih (got.post m)

/-- Of several messages the first under its key is handed to a caller. -/
theorem stands_postAll (stands : a.Stands key call) (messages : List Message) :
    (a.postAll messages).Stands key call ∨
      ∃ m ∈ messages, m.header.key = key ∧ (a.postAll messages).Got call (.delivered m) := by
  induction messages generalizing a with
  | nil => exact .inl stands
  | cons m rest ih =>
      have posted := stands.post m
      by_cases here : m.header.key = key
      · rw [if_pos here] at posted
        exact .inr ⟨m, List.mem_cons_self, here, got_postAll posted rest⟩
      · rw [if_neg here] at posted
        exact (ih posted).imp_right fun ⟨m', mem, rest⟩ => ⟨m', List.mem_cons_of_mem m mem, rest⟩

/-- No two callers wait for the same request, and none waits for two. The table is a list, so this
has to be kept by every move; a new caller releases the one under its key. -/
structure Single (a : Awaited) : Prop where
  callers : ∀ w ∈ a.waiting, ∀ w' ∈ a.waiting, w.1 = w'.1 → w = w'
  requests : ∀ w ∈ a.waiting, ∀ w' ∈ a.waiting, w.2 = w'.2 → w = w'

/-- A table with fewer callers still has one for each key at most. -/
theorem Single.of_fewer {b : Awaited} (single : a.Single)
    (fewer : ∀ w ∈ b.waiting, w ∈ a.waiting) : b.Single where
  callers := fun w mem w' mem' => single.callers w (fewer w mem) w' (fewer w' mem')
  requests := fun w mem w' mem' => single.requests w (fewer w mem) w' (fewer w' mem')

/-- A new caller takes the place of the one under its key, so that there is one again. -/
theorem Single.enlist (single : a.Single) (numbered : a.Numbered) (key : RequestKey) :
    (a.enlist key).2.Single := by
  have old : ∀ w ∈ (a.release key).waiting, w ∈ a.waiting ∧ w.1 ≠ key := by
    intro w mem
    obtain ⟨mem, stays⟩ := mem_waiting_releaseWhere.mp mem
    exact ⟨mem, by simpa using stays⟩
  have calls : ∀ w ∈ (a.release key).waiting, w.2 ≠ a.calls := fun w mem =>
    Nat.ne_of_lt (numbered.waiting w (old w mem).1)
  constructor
  · intro w mem w' mem' same
    rcases List.mem_append.mp mem with mem | mem <;> rcases List.mem_append.mp mem' with mem' | mem'
    · exact single.callers w (old w mem).1 w' (old w' mem').1 same
    · rw [List.mem_singleton.mp mem'] at same
      exact absurd same (old w mem).2
    · rw [List.mem_singleton.mp mem] at same
      exact absurd same.symm (old w' mem').2
    · rw [List.mem_singleton.mp mem, List.mem_singleton.mp mem']
  · intro w mem w' mem' same
    rcases List.mem_append.mp mem with mem | mem <;> rcases List.mem_append.mp mem' with mem' | mem'
    · exact single.requests w (old w mem).1 w' (old w' mem').1 same
    · rw [List.mem_singleton.mp mem'] at same
      exact absurd same (calls w mem)
    · rw [List.mem_singleton.mp mem] at same
      exact absurd same.symm (calls w' mem')
    · rw [List.mem_singleton.mp mem, List.mem_singleton.mp mem']

/-- A caller that waits and has no mail stands in the table. -/
theorem Single.stands (single : a.Single) (waiting : (key, call) ∈ a.waiting)
    (nothing : a.mailFor call = .nothing) : a.Stands key call where
  waiting
  alone := fun _ mem => (Prod.mk.inj (single.requests _ mem _ waiting rfl)).1
  nothing

/-- Mail that has come is not changed by messages posted later. -/
theorem mailFor_postAll_of_some (some : a.mailFor call ≠ .nothing) (messages : List Message) :
    (a.postAll messages).mailFor call = a.mailFor call := by
  induction messages generalizing a with
  | nil => rfl
  | cons m rest ih =>
      have kept : (a.post m).mailFor call = a.mailFor call := mailFor_append some _ _ _
      exact (ih (kept ▸ some)).trans kept

/-- Nothing comes for a caller that does not stand in the table. -/
theorem mailFor_postAll_of_gone (nothing : a.mailFor call = .nothing)
    (gone : ∀ key, (key, call) ∉ a.waiting) (messages : List Message) :
    (a.postAll messages).mailFor call = .nothing := by
  induction messages generalizing a with
  | nil => exact nothing
  | cons m rest ih =>
      refine ih ?_ fun key mem => gone key (mem_waiting_of_post mem)
      refine (mailFor_append_of_nothing nothing _ _ _).trans (mailFor_others ?_ _ _ _)
      rintro ⟨key, _⟩ mem rfl
      exact gone key (List.mem_filter.mp mem).1

/-- Whoever gets one of several messages has waited for it. -/
theorem waiting_of_postAll (single : a.Single) {messages : List Message} {m : Message}
    (came : (a.postAll messages).mailFor call = .delivered m)
    (new : a.mailFor call ≠ .delivered m) :
    m ∈ messages ∧ (m.header.key, call) ∈ a.waiting := by
  by_cases nothing : a.mailFor call = .nothing
  · by_cases stands : ∃ key, (key, call) ∈ a.waiting
    · obtain ⟨key, waiting⟩ := stands
      rcases stands_postAll (single.stands waiting nothing) messages with
        stays | ⟨m', mem, rfl, got⟩
      · rw [stays.nothing] at came
        cases came
      · obtain rfl := Mail.delivered.inj (got.mail.symm.trans came)
        exact ⟨mem, waiting⟩
    · rw [mailFor_postAll_of_gone nothing (not_exists.mp stands)] at came
      cases came
  · rw [mailFor_postAll_of_some nothing] at came
    exact absurd came new

end Awaited

/-! ### What a move hands over -/

namespace Entry

/-- The responses that a move hands over to callers. -/
def posts (e : Entry) : List Message :=
  match e.turn, e.progress with
  | .begins (.receive _), .finished _ => e.delivery.map Prod.snd
  | .begins (.scan _), _ => standingReplies e.visits
  | .goesOn (.serving ⟨_, m, .wakeCaller⟩) _, _ => [m]
  | .goesOn (.serving ⟨_, m, .nextLapsed _ _⟩) _, _ => m :: standingReplies e.visits
  | _, _ => []

/-- Why a move sends a caller away that waits for this request, with nothing for it: the link is
reset, the endpoint goes, another caller comes under the key, or a request under the key is taken
back. -/
inductive Frees (e : Entry) (key : RequestKey) : Prop where
  | forgotten : e.restarts key.handle = true → Frees e key
  | begun : key ∈ e.begun → Frees e key
  | refused {o : Offering} {caller : Option (CallId × Span)} :
      e.turn = .goesOn (.offering o) (.transport false) → o.purpose = .request caller →
      o.message.header.key = key → e.before.ledger.awaits key = true → Frees e key

end Entry

namespace Session

variable {s s' : Session} {e : Entry} {key : RequestKey} {call : CallId}

/-- No move puts two callers under one key. -/
theorem Moved.single (moved : s.Moved s' e) (numbered : s.exchange.awaited.Numbered)
    (single : s.exchange.awaited.Single) : s'.exchange.awaited.Single := by
  have deed := moved.deed
  rw [moved.after]
  rw [← moved.before] at numbered single
  obtain ⟨operation, found, turn, now, before, after, progress⟩ := e
  simp only at deed numbered single ⊢
  cases deed with
  | idle | enrolled | enrolledAt | slotWait | sent | waits | received | answered | echoed | closed
  | delivered => exact single
  | mailed => exact single.of_fewer fun w => id
  | dismissed | reset => exact single.of_fewer fun w mem => (List.mem_filter.mp mem).1
  | sentAwaiting => exact single.enlist numbered _
  | gaveUp | overdue | tookBack | tookBackAwaiting =>
      exact single.of_fewer fun w => Awaited.mem_waiting_of_release _ _
  | absorbed | woke => exact single.of_fewer fun w => Awaited.mem_waiting_of_post
  | scanned => exact single.of_fewer fun w => Awaited.mem_waiting_of_postAll
  | told =>
      exact single.of_fewer fun w mem =>
        Awaited.mem_waiting_of_post (Awaited.mem_waiting_of_postAll mem)

/-- So there is at most one caller for each key at every moment. -/
theorem Reachable.single {settings : Settings} (reached : Reachable settings s) :
    s.exchange.awaited.Single := by
  have empty := (Exchange.ledger_ofSettings settings).2
  refine reached.holds ?_ fun before moved single => moved.single before.numbered single
  rw [Session.ofSettings, empty]
  exact ⟨fun w mem => (List.not_mem_nil mem).elim, fun w mem => (List.not_mem_nil mem).elim⟩

/-- Another caller that looks for its response sends this one away only if it takes back its own
request, which bears the same number. -/
theorem Moved.fate_of_reply (moved : s.Moved s' e) (attended : s.Attended)
    (single : s.exchange.awaited.Single) (stands : e.before.awaited.Stands key call)
    {wait : ReplyWait} (awaits : e.turn.AwaitsReply e.now wait) (other : wait.call ≠ call) :
    e.after.awaited.Stands key call ∨ e.Frees key ∧ e.after.awaited.Got call .released := by
  -- The other caller waits for another request as long as nothing has come for it.
  have apart (nothing : e.before.awaited.mailFor wait.call = .nothing) : wait.key ≠ key := by
    obtain ⟨former, reply, turn, caller, request⟩ := awaits.activity
    obtain ⟨task, under, -, -, rfl⟩ := moved.former turn
    rw [moved.before] at nothing stands
    rcases attended.standing task under _ _ request caller with mail | ⟨waiting, -⟩
    · exact absurd mail (Awaited.mailFor_eq_nothing_iff.mp nothing)
    · rintro rfl
      exact other (Prod.mk.inj (single.callers _ waiting _ stands.waiting rfl)).2
  have released (nothing : e.before.awaited.mailFor wait.call = .nothing) :
      ((e.before.awaited.release wait.key).forget wait.call).Stands key call := by
    have stays := stands.release wait.key
    rw [if_neg (apart nothing)] at stays
    exact stays.forget wait.call
  have replied := replied_of_turn awaits moved.turned
  clear moved
  obtain ⟨operation, found, turn, now, before, after, progress⟩ := e
  simp only at replied stands released ⊢
  cases replied with
  | delivered | released => exact .inl (stands.forget _)
  | waits | again => exact .inl stands
  | gaveUp nothing | overdue nothing => exact .inl (released nothing)
  | @refused o call' span purpose pending =>
      have stays := stands.release o.message.header.key
      split at stays
      · rename_i here
        exact .inr ⟨.refused rfl purpose here (here ▸ pending), stays.forget other⟩
      · exact .inl (stays.forget _)

/-- What the move of another operation does to a caller that waits. It stays, it is handed the first
message under its key that the move posts, or it is released for one of the reasons in
`Entry.Frees`. -/
theorem Moved.fate (moved : s.Moved s' e) (attended : s.Attended)
    (numbered : s.exchange.awaited.Numbered) (single : s.exchange.awaited.Single)
    (accounted : s.Accounted) (stands : s.exchange.awaited.Stands key call)
    (others : e.turn.caller? ≠ some call) :
    s'.exchange.awaited.Stands key call ∨
      (∃ m ∈ e.posts, m.header.key = key ∧ s'.exchange.awaited.Got call (.delivered m)) ∨
      e.Frees key ∧ s'.exchange.awaited.Got call .released := by
  have wf := (moved.sound accounted.wellFormed).before
  have deed := moved.deed
  rw [moved.after]
  rw [← moved.before] at numbered stands
  by_cases looks : ∃ wait, e.turn.AwaitsReply e.now wait
  -- Another caller looks: it can concern this one only by taking back a request of the same number.
  · obtain ⟨wait, awaits⟩ := looks
    have other : wait.call ≠ call := by
      obtain ⟨former, reply, turn, caller, -⟩ := awaits.activity
      rintro rfl
      rw [turn] at others
      exact others caller
    exact (moved.fate_of_reply attended single stands awaits other).imp_right .inr
  · have old := numbered.waiting _ stands.waiting
    have visits := Entry.visits_of_deed deed
    clear moved
    obtain ⟨operation, found, turn, now, before, after, progress⟩ := e
    simp only at deed stands old wf looks ⊢
    cases deed with
    | idle | enrolled | enrolledAt | slotWait | sent | received | answered | echoed | closed
    | delivered => exact .inl stands
    | waits awaits | mailed awaits | gaveUp awaits | overdue awaits =>
        exact absurd ⟨_, awaits⟩ looks
    | tookBackAwaiting purpose => exact absurd ⟨_, .offered purpose⟩ looks
    | @dismissed handle =>
        have stays := stands.releaseWhere (·.handle == handle)
        split at stays
        · rename_i here
          exact .inr (.inr ⟨.forgotten ((Bool.beq_comm).trans here), stays⟩)
        · exact .inl stays
    -- A reset and an endpoint that goes release; a new caller and a request taken back do so under
    -- their own key only.
    | reset => exact .inr (.inr ⟨.forgotten rfl, stands.releaseWhere fun _ => true⟩)
    | @sentAwaiting _ role order span places idle =>
        have stays := stands.enlist ⟨order.handle, order.command,
          (before.ledger.slotAt order.handle order.command).nextTransaction⟩ old
        split at stays
        · rename_i here
          refine .inr (.inr ⟨.begun ?_, stays⟩)
          show key ∈ before.ledger.begun (before.ledger.withRequest _ _ _ now)
          rw [Ledger.begun_withRequest wf idle, here]
          exact List.mem_singleton_self _
        · exact .inl stays
    | @tookBack o _ purpose pending =>
        have stays := stands.release o.message.header.key
        split at stays
        · rename_i here
          exact .inr (.inr ⟨.refused rfl purpose here (here ▸ pending), stays⟩)
        · exact .inl stays
    | @absorbed frame r m code arrives response pending resident =>
        have stays := stands.post m
        split at stays
        · rename_i here
          refine .inr (.inl ⟨m, ?_, here, stays⟩)
          rw [Entry.posts, Entry.delivery_of_absorbed rfl rfl arrives response resident]
          exact List.mem_singleton_self m
        · exact .inl stays
    | @woke r m code =>
        have stays := stands.post m
        split at stays
        · rename_i here
          exact .inr (.inl ⟨m, List.mem_singleton_self m, here, stays⟩)
        · exact .inl stays
    | scanned =>
        rw [Entry.posts, visits]
        exact (Awaited.stands_postAll stands _).imp_right .inl
    | @told r m rest count =>
        rw [Entry.posts, visits]
        exact (Awaited.stands_postAll stands (m :: _)).imp_right .inl

/-- A caller that has mail keeps it until it looks itself. -/
theorem Moved.keeps (moved : s.Moved s' e) {mail : Mail} (got : s.exchange.awaited.Got call mail)
    (old : call < s.exchange.awaited.calls) (others : e.turn.caller? ≠ some call) :
    s'.exchange.awaited.Got call mail := by
  have deed := moved.deed
  rw [moved.after]
  rw [← moved.before] at got old
  have other {wait : ReplyWait} (awaits : e.turn.AwaitsReply e.now wait) : wait.call ≠ call := by
    obtain ⟨former, reply, turn, caller, -⟩ := awaits.activity
    rintro rfl
    rw [turn] at others
    exact others caller
  clear moved
  obtain ⟨operation, found, turn, now, before, after, progress⟩ := e
  simp only at deed got old other ⊢
  cases deed with
  | idle | enrolled | enrolledAt | slotWait | sent | waits | received | answered | echoed | closed
  | delivered => exact got
  | mailed awaits => exact got.forget (other awaits)
  | gaveUp awaits | overdue awaits => exact (got.release _).forget (other awaits)
  | tookBackAwaiting purpose => exact (got.release _).forget (other (.offered purpose))
  | @dismissed handle => exact got.releaseWhere (·.handle == handle)
  | reset => exact got.releaseWhere fun _ => true
  | sentAwaiting => exact got.enlist _ old
  | tookBack => exact got.release _
  | absorbed | woke => exact got.post _
  | scanned => exact Awaited.got_postAll got _
  | told => exact Awaited.got_postAll got (_ :: _)

end Session

end HubRelay
