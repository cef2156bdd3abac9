import HubRelay.Proofs.Bookkeeping
import HubRelay.Proofs.Ledger.History

/-!
The numbers of the requests of a slot come round after 256 of them.

As long as a slot is not forgotten, its requests are numbered from zero by one wrapping byte,
through whatever ends them. A response is known by that byte alone: it is taken for the answer to
the request that is outstanding if the two were begun a multiple of 256 requests apart. So the
number of a request that has ended is good for nothing until 256 later ones were begun.
-/

namespace HubRelay

namespace Ledger

variable {operations : List LedgerOperation} {handle : Handle} {command : Command}

/-- While a slot is not forgotten, its next number is how many requests it has seen, and so was that
of each of them. The induction is on the operations, from the front; an operation that ends requests
leaves the count as it is. -/
theorem numbered_record (command : Command)
    (kept : ∀ operation ∈ operations, ¬ operation.Forgets handle) :
    ((empty.run operations).slotAt handle command).nextTransaction =
        UInt8.ofNat (sentOn (empty.record operations) handle command).length ∧
      ∀ (j : Nat) (r : SentRequest),
        (sentOn (empty.record operations) handle command)[j]? = some r →
          r.transaction = UInt8.ofNat j := by
  induction operations using List.reverseRecOn with
  | nil => exact ⟨by rw [run, List.foldl_nil, slotAt_empty]; rfl, by simp [record, sentOn]⟩
  | append_singleton earlier operation ih =>
      obtain ⟨next, numbers⟩ := ih fun other mem => kept other (List.mem_append_left _ mem)
      have remembers := kept operation (by simp)
      rw [run_concat, record_concat, sentOn_concat]
      have wf := wellFormed_run wellFormed_empty earlier
      cases (performs _ operation).turns wf handle command with
      | @began r begins _ number _ next' =>
          rw [event, begins, next', next, Option.toList_some, List.length_append]
          refine ⟨(UInt8.ofNat_add _ 1).symm, fun j r' found => ?_⟩
          rw [List.getElem?_append] at found
          split at found
          · exact numbers j r' found
          · next last =>
            obtain ⟨place, same⟩ := List.getElem?_eq_some_iff.mp found
            rw [List.length_singleton, Nat.lt_one_iff] at place
            obtain rfl : j = (sentOn (empty.record earlier) handle command).length := by omega
            rw [List.getElem_singleton] at same
            rw [← same, number, next]
      | ended ends _ same =>
          rw [event, LedgerEvent.begunOn?_of_ends ends, Option.toList_none, List.append_nil,
            same remembers]
          exact ⟨next, numbers⟩
      | kept no_begin _ _ same =>
          rw [event, no_begin, Option.toList_none, List.append_nil, same]
          exact ⟨next, numbers⟩

/-- The number of the request that is outstanding, when `sent` are the requests that its slot has
seen. -/
theorem Recalls.transaction_eq {l : Ledger} {past : List LedgerEvent} (recalls : l.Recalls past)
    (numbers : ∀ (j : Nat) (r : SentRequest),
      (sentOn past handle command)[j]? = some r → r.transaction = UInt8.ofNat j)
    (pending : PendingOn past handle command) :
    (l.slotAt handle command).outgoing.transaction =
        UInt8.ofNat ((sentOn past handle command).length - 1) ∧
      0 < (sentOn past handle command).length := by
  obtain ⟨r, since, outstanding, rfl, rfl⟩ := pending
  have last := recalls.getLast?_sentOn outstanding
  rw [recalls.holds r since outstanding]
  refine ⟨numbers _ r ?_, List.length_pos_of_mem (List.mem_of_getLast? last)⟩
  rw [← List.getLast?_eq_getElem?, last]

/-- Whoever begins a request finds one pending then, that or another. -/
theorem isPending_after_begin {l : Ledger} (wf : l.WellFormed) (handle : Handle)
    (command : Command) (timeout : Option Span) (now : Instant) :
    (l.after (.begin handle command timeout now)).isPending handle command = true := by
  simp only [after, perform, begin_eq, isPending_eq]
  cases pending : (l.slotAt handle command).outgoing.pending with
  | true => exact pending
  | false =>
      simp only [Bool.false_eq_true, if_false, slotAt_withRequest wf, and_self, if_true]
      rfl

/-- Two bytes that count requests agree if the requests are a multiple of 256 apart. -/
theorem ofNat_pred_eq_iff {j k : Nat} (some_sent : 0 < k) :
    UInt8.ofNat (k - 1) = UInt8.ofNat j ↔ (j + 1) % 256 = k % 256 := by
  rw [← UInt8.toNat_inj, UInt8.toNat_ofNat', UInt8.toNat_ofNat']
  omega

/-- How a response is answered that has the number of the request `j`, counted from zero, of a slot
that has seen `k` requests. It is the last one that is compared, so what counts is how far `j` is
from it. -/
theorem Recalls.answered {l : Ledger} {past : List LedgerEvent} (recalls : l.Recalls past)
    (numbers : ∀ (j : Nat) (r : SentRequest),
      (sentOn past handle command)[j]? = some r → r.transaction = UInt8.ofNat j)
    {j : Nat} {r : SentRequest} (found : (sentOn past handle command)[j]? = some r)
    (now : Instant) :
    let k := (sentOn past handle command).length
    let answered := l.complete handle command r.transaction now
    (PendingOn past handle command → (j + 1) % 256 = k % 256 →
        ∃ latency, answered.1 = .matched latency) ∧
      (PendingOn past handle command → (j + 1) % 256 ≠ k % 256 →
        answered = (.mismatch (UInt8.ofNat (k - 1)), l)) ∧
      (¬ PendingOn past handle command → answered = (.notPending, l)) := by
  intro k answered
  have by_slot := l.complete_eq ⟨handle, command, r.transaction⟩ now
  have own := numbers j r found
  refine ⟨fun pending same => ?_, fun pending differ => ?_, fun idle => ?_⟩
  · obtain ⟨number, sent⟩ := recalls.transaction_eq numbers pending
    have awaited : l.awaits ⟨handle, command, r.transaction⟩ = true :=
      awaits_of_slotAt.mpr ⟨(recalls.pending_iff handle command).mpr pending,
        (number.trans ((ofNat_pred_eq_iff sent).mpr same)).trans own.symm⟩
    exact ⟨_, congrArg Prod.fst (complete_of_awaits awaited now)⟩
  · obtain ⟨number, sent⟩ := recalls.transaction_eq numbers pending
    have unknown : l.awaits ⟨handle, command, r.transaction⟩ = false := by
      refine Bool.eq_false_iff.mpr fun awaited => differ ?_
      exact (ofNat_pred_eq_iff sent).mp
        ((number.symm.trans (awaits_of_slotAt.mp awaited).2).trans own)
    simp only [unknown, (recalls.pending_iff handle command).mpr pending, number] at by_slot
    exact by_slot
  · have idle : (l.slotAt handle command).outgoing.pending = false :=
      Bool.eq_false_iff.mpr fun pending => idle ((recalls.pending_iff handle command).mp pending)
    have unknown : l.awaits ⟨handle, command, r.transaction⟩ = false := by
      rw [awaits, Slot.awaits, idle, Bool.false_and]
    simp only [unknown, idle] at by_slot
    exact by_slot

/-- A request that has ended is not the one that is outstanding, if none was begun on its slot
since. -/
theorem not_pendingOn_of_ended {before since : List LedgerEvent} {first : LedgerEvent}
    (ended : ∃ e ∈ since, e.Ends handle command) (last : sentOn since handle command = []) :
    ¬ PendingOn (before ++ first :: since) handle command := by
  rintro ⟨r, since', ⟨before', first', split, begins, unended⟩, own⟩
  obtain ⟨e, mem, ends⟩ := ended
  rw [own.1, own.2] at unended
  -- What is outstanding was begun before `since`, which then is part of what did not end it.
  suffices part : ∀ e ∈ since, e ∈ since' from unended e (part e mem) ends
  rcases List.append_eq_append_iff.mp split with ⟨more, -, rest⟩ | ⟨more, -, rest⟩
  · cases more with
    | nil => exact fun e mem => (List.cons.inj rest).2 ▸ mem
    | cons head more =>
        obtain ⟨-, rfl⟩ := List.cons.inj rest
        have sent : r ∈ sentOn (more ++ first' :: since') handle command := by
          refine List.mem_filterMap.mpr ⟨first', by simp, ?_⟩
          exact LedgerEvent.begunOn?_eq_some_iff.mpr ⟨begins, own⟩
        exact absurd (last ▸ sent) List.not_mem_nil
  · cases more with
    | nil => exact fun e mem => (List.cons.inj rest).2 ▸ mem
    | cons head more =>
        obtain ⟨-, rfl⟩ := List.cons.inj rest
        exact fun e mem => List.mem_append_right _ (List.mem_cons_of_mem _ mem)

end Ledger

/-- The requests of a slot that is never forgotten are numbered from zero by a byte that comes round
after 256 of them, whatever ends them and whatever happens elsewhere. A response under the number of
one of them is taken for the answer to the last one exactly if that is outstanding and the two are a
multiple of 256 requests apart; otherwise it is told the number of the one that is outstanding, or
that there is none, and nothing changes. So a response to a request that has ended is not taken for
an answer before 256 later ones were begun.

A slot is forgotten when its endpoint is removed or all slots are cleared, which is what `kept`
rules out for this handle. Removing other endpoints is allowed. -/
theorem numbers_come_round (operations : List LedgerOperation) (handle : Handle)
    (command : Command) (kept : ∀ operation ∈ operations, ¬ operation.Forgets handle) :
    let l := Ledger.empty.run operations
    let past := Ledger.empty.record operations
    let sent := sentOn past handle command
    let k := sent.length
    (∀ (j : Nat) (r : SentRequest), sent[j]? = some r → r.transaction.toNat = j % 256) ∧
      (PendingOn past handle command ↔ l.isPending handle command = true) ∧
      (∀ (j : Nat) (r : SentRequest), sent[j]? = some r → ∀ now : Instant,
        let answered := l.perform (.complete handle command r.transaction now)
        ((∃ latency, answered.1 = .correlated (.matched latency)) ↔
            PendingOn past handle command ∧ (j + 1) % 256 = k % 256) ∧
          (answered.1 = .correlated (.mismatch (UInt8.ofNat (k - 1))) ↔
            PendingOn past handle command ∧ (j + 1) % 256 ≠ k % 256) ∧
          (answered.1 = .correlated .notPending ↔ ¬ PendingOn past handle command) ∧
          ((∀ latency, answered.1 ≠ .correlated (.matched latency)) → answered.2 = l)) ∧
      ∀ (before since : List LedgerEvent) (first : LedgerEvent) (r : SentRequest),
        past = before ++ first :: since → first.begun? = some r →
        r.handle = handle → r.command = command → (∃ e ∈ since, e.Ends handle command) →
          ∀ now latency,
            (l.perform (.complete handle command r.transaction now)).1 =
                .correlated (.matched latency) →
              256 ≤ (sentOn since handle command).length := by
  intro l past sent k
  obtain ⟨-, numbers⟩ := Ledger.numbered_record command kept
  have recalls := Ledger.recalls_record operations
  refine ⟨fun j r found => ?_, ?_, fun j r found now => ?_, ?_⟩
  · rw [numbers j r found]
    exact UInt8.toNat_ofNat'
  · rw [Ledger.isPending_eq]
    exact (recalls.pending_iff handle command).symm
  · intro answered
    obtain ⟨matches_, differs, idle⟩ := recalls.answered numbers found now
    by_cases pending : PendingOn past handle command
    · by_cases same : (j + 1) % 256 = k % 256
      · obtain ⟨latency, matched⟩ := matches_ pending same
        have answer : answered.1 = .correlated (.matched latency) :=
          congrArg LedgerAnswer.correlated matched
        simp [answer, pending, same]
      · have answer : answered = (.correlated (.mismatch (UInt8.ofNat (k - 1))), l) :=
          congrArg (Prod.map LedgerAnswer.correlated id) (differs pending same)
        simp [answer, pending, same]
    · have answer : answered = (.correlated .notPending, l) :=
        congrArg (Prod.map LedgerAnswer.correlated id) (idle pending)
      simp [answer, pending]
  -- A match leaves two possibilities: the request is the last one, which has ended, or 256 came
  -- after.
  · rintro before since first r split begins rfl rfl ended now latency matched
    have sent_eq : sent =
        sentOn before r.handle r.command ++ r :: sentOn since r.handle r.command := by
      rw [← sentOn_cons_of_begun begins, ← sentOn_append, ← split]
    have found : sent[(sentOn before r.handle r.command).length]? = some r := by
      rw [sent_eq, List.getElem?_append_right (Nat.le_refl _), Nat.sub_self]
      rfl
    obtain ⟨-, differs, idle⟩ := recalls.answered numbers found now
    have matched : (l.complete r.handle r.command r.transaction now).1 = .matched latency :=
      LedgerAnswer.correlated.inj matched
    have pending : PendingOn past r.handle r.command := by
      by_contra nothing
      rw [idle nothing] at matched
      cases matched
    have same : ((sentOn before r.handle r.command).length + 1) % 256 = k % 256 := by
      by_contra differ
      rw [differs pending differ] at matched
      cases matched
    have count : k = (sentOn before r.handle r.command).length + 1 +
        (sentOn since r.handle r.command).length := by
      simp only [k, sent_eq, List.length_append, List.length_cons]
      omega
    by_contra few
    have last : sentOn since r.handle r.command = [] := List.length_eq_zero_iff.mp (by omega)
    exact Ledger.not_pendingOn_of_ended ended last (split ▸ pending)

/-- A run in which a slot sees 256 requests, each of which is taken back after another one was
refused. -/
def LedgerOperation.wholeRound : List LedgerOperation :=
  (List.range 256).flatMap fun j =>
    [.begin 16 0 none j, .begin 16 0 none j, .abort 16 0 (.ofNat j)]

/-- With one more request, the number of the first is again that of the one that is outstanding;
that of the second is not yet. -/
theorem numbers_come_round_again :
    let operations := LedgerOperation.wholeRound ++ [.begin 16 0 none 256]
    let l := Ledger.empty.run operations
    let sent := sentOn (Ledger.empty.record operations) 16 0
    (∀ operation ∈ operations, ¬ operation.Forgets 16) ∧ sent.length = 257 ∧
      (∃ first second : SentRequest, sent[0]? = some first ∧ sent[1]? = some second ∧
        (∃ latency, (l.perform (.complete 16 0 first.transaction 300)).1 =
          .correlated (.matched latency)) ∧
        (l.perform (.complete 16 0 second.transaction 300)).1 = .correlated (.mismatch 0)) := by
  intro operations l sent
  have kept : ∀ operation ∈ operations, ¬ operation.Forgets 16 := by
    simp only [operations, LedgerOperation.wholeRound, LedgerOperation.Forgets, List.mem_append,
      List.mem_flatMap, List.mem_cons, List.not_mem_nil, or_false]
    rintro operation (⟨_, _, rfl | rfl | rfl⟩ | rfl) <;> simp
  have same := (Ledger.represents_empty.run operations).1
  have sent_eq : sent = sentOn (List.zipWith LedgerEvent.mk operations
      (Accounts.answers .empty operations)) 16 0 := by
    rw [← same, ← Ledger.record_eq]
  have count : sent.length = 257 := by
    rw [sent_eq]
    decide +kernel
  have pending : l.isPending 16 0 = true := by
    have wf := Ledger.wellFormed_run Ledger.wellFormed_empty LedgerOperation.wholeRound
    have last := Ledger.isPending_after_begin wf 16 0 none 256
    rwa [← Ledger.run_concat] at last
  obtain ⟨-, pending_iff, responses, -⟩ := numbers_come_round operations 16 0 kept
  have outstanding := pending_iff.mpr pending
  obtain ⟨first, found⟩ : ∃ r, sent[0]? = some r :=
    ⟨_, List.getElem?_eq_getElem (by omega)⟩
  obtain ⟨second, found'⟩ : ∃ r, sent[1]? = some r :=
    ⟨_, List.getElem?_eq_getElem (by omega)⟩
  refine ⟨kept, count, first, second, found, found', ?_, ?_⟩
  · exact (responses 0 first found 300).1.mpr ⟨outstanding, by rw [count]⟩
  · have told := (responses 1 second found' 300).2.1.mpr ⟨outstanding, by rw [count]; decide⟩
    rwa [count] at told

end HubRelay
