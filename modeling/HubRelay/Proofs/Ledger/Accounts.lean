import HubRelay.Exchange.Ledger
import Mathlib.Data.List.Nodup

/-!
What a ledger is to be taken for: a finite map.

`Accounts` gives every pair of handle and command that is in use what is known of its requests, in
the order in which the pairs came into use. There is no arena and no index; an operation is one
look-up and at most one change.
-/

namespace HubRelay

/-! ### Maps in the order of entry -/

/-- A finite map whose entries stand in the order in which their keys were entered. -/
structure Roll (κ ν : Type) where
  entries : List (κ × ν)
  distinct : (entries.map Prod.fst).Nodup

namespace Roll

variable {κ ν : Type}

def empty : Roll κ ν := ⟨[], List.nodup_nil⟩

def mapValues (r : Roll κ ν) (f : ν → ν) : Roll κ ν where
  entries := r.entries.map fun entry => (entry.1, f entry.2)
  distinct := by
    rw [List.map_map]
    exact r.distinct

def without (r : Roll κ ν) (drop : κ → Bool) : Roll κ ν where
  entries := r.entries.filter fun entry => !drop entry.1
  distinct := r.distinct.sublist (List.filter_sublist.map Prod.fst)

variable [DecidableEq κ]

def find? (r : Roll κ ν) (key : κ) : Option ν :=
  (r.entries.find? fun entry => entry.1 = key).map Prod.snd

/-- The entries with this value for the key: in the place that it has, or at the end. -/
def enterEntry (key : κ) (value : ν) : List (κ × ν) → List (κ × ν)
  | [] => [(key, value)]
  | entry :: rest =>
      if entry.1 = key then (key, value) :: rest else entry :: enterEntry key value rest

/-- A new key is entered at the end. -/
theorem enterEntry_of_absent {key : κ} (value : ν) {entries : List (κ × ν)}
    (absent : key ∉ entries.map Prod.fst) :
    enterEntry key value entries = entries ++ [(key, value)] := by
  induction entries with
  | nil => rfl
  | cons entry rest ih =>
      obtain ⟨other, absent⟩ := not_or.mp (mt List.mem_cons.mpr absent)
      rw [enterEntry, if_neg (Ne.symm other), ih absent, List.cons_append]

/-- A key that is entered for the first time comes last; one that is known keeps its place. -/
theorem keys_enterEntry (key : κ) (value : ν) (entries : List (κ × ν)) :
    (enterEntry key value entries).map Prod.fst =
      entries.map Prod.fst ++ if key ∈ entries.map Prod.fst then [] else [key] := by
  induction entries with
  | nil => rfl
  | cons entry rest ih =>
      rw [enterEntry, List.map_cons]
      by_cases here : entry.1 = key
      · rw [if_pos here, if_pos (List.mem_cons.mpr (.inl here.symm)), List.append_nil, here,
          List.map_cons]
      · rw [if_neg here, List.map_cons, ih, List.cons_append]
        simp only [List.mem_cons, Ne.symm here, false_or]

def enter (r : Roll κ ν) (key : κ) (value : ν) : Roll κ ν where
  entries := enterEntry key value r.entries
  distinct := by
    rw [keys_enterEntry]
    split
    · rw [List.append_nil]
      exact r.distinct
    · next new =>
      exact List.nodup_append.mpr ⟨r.distinct, List.nodup_singleton key, fun k mem k' mem' same =>
        new (List.mem_singleton.mp mem' ▸ same ▸ mem)⟩

theorem find?_eq_some_iff {r : Roll κ ν} {key : κ} {value : ν} :
    r.find? key = some value ↔ (key, value) ∈ r.entries := by
  unfold find?
  constructor
  · intro found
    obtain ⟨entry, first, rfl⟩ := Option.map_eq_some_iff.mp found
    have own := List.find?_some first
    rw [← of_decide_eq_true own]
    exact List.mem_of_find?_eq_some first
  · intro mem
    cases found : r.entries.find? fun entry => entry.1 = key with
    | none =>
        have absent := List.find?_eq_none.mp found _ mem
        exact absurd (decide_eq_true rfl) absent
    | some entry =>
        have own := List.find?_some found
        have same := List.inj_on_of_nodup_map r.distinct (List.mem_of_find?_eq_some found) mem
          (of_decide_eq_true own)
        rw [same]
        rfl

/-- What was entered last under a key is found there. -/
theorem find?_enter (r : Roll κ ν) (key k : κ) (value : ν) :
    (r.enter key value).find? k = if key = k then some value else r.find? k := by
  unfold find? enter
  simp only
  induction r.entries with
  | nil =>
      by_cases here : key = k
      · simp [enterEntry, here]
      · simp [enterEntry, here]
  | cons entry rest ih =>
      rw [enterEntry]
      by_cases own : entry.1 = key
      · rw [if_pos own]
        by_cases here : key = k
        · simp [here]
        · have other : ¬ entry.1 = k := own ▸ here
          simp [here, other]
      · rw [if_neg own, List.find?_cons, List.find?_cons]
        by_cases there : entry.1 = k
        · have other : ¬ key = k := fun same => own (there.trans same.symm)
          simp [there, other]
        · simp only [there, decide_false]
          exact ih

theorem find?_mapValues (r : Roll κ ν) (f : ν → ν) (key : κ) :
    (r.mapValues f).find? key = (r.find? key).map f := by
  unfold find? mapValues
  rw [List.find?_map, Option.map_map, Option.map_map]
  rfl

/-- Entering twice under a key is entering the second value. -/
theorem enter_enter (r : Roll κ ν) (key : κ) (first second : ν) :
    (r.enter key first).enter key second = r.enter key second := by
  have same (entries : List (κ × ν)) :
      enterEntry key second (enterEntry key first entries) = enterEntry key second entries := by
    induction entries with
    | nil => simp [enterEntry]
    | cons entry rest ih =>
        by_cases here : entry.1 = key
        · simp [enterEntry, here]
        · simp [enterEntry, here, ih]
  unfold enter
  simp only [same]

end Roll

/-! ### What can be asked of a ledger -/

/-- The operations of a ledger, look-ups included. -/
inductive LedgerOperation where
  | begin (handle : Handle) (command : Command) (timeout : Option Span) (now : Instant)
  | abort (handle : Handle) (command : Command) (transaction : TransactionId)
  | expire (handle : Handle) (command : Command) (transaction : TransactionId)
  | complete (handle : Handle) (command : Command) (transaction : TransactionId) (now : Instant)
  | takeLapsed (now : Instant)
  | openIncoming (handle : Handle) (command : Command) (transaction : TransactionId)
      (now : Instant)
  | closeIncoming (handle : Handle) (command : Command) (transaction : TransactionId)
      (now : Instant)
  | clear
  | removeEndpoint (handle : Handle)
  | nextDeadline
  | isPending (handle : Handle) (command : Command)
  | outgoing (handle : Handle) (command : Command)
  | incoming (handle : Handle) (command : Command)
  | pendingCount

/-- The operations on requests that this side sent. -/
def LedgerOperation.Sends : LedgerOperation → Prop
  | .begin _ _ _ _ | .abort _ _ _ | .expire _ _ _ | .complete _ _ _ _ | .takeLapsed _ => True
  | _ => False

/-- The operations on requests that this side received. -/
def LedgerOperation.Receives : LedgerOperation → Prop
  | .openIncoming _ _ _ _ | .closeIncoming _ _ _ _ => True
  | _ => False

/-- What an operation answers. -/
inductive LedgerAnswer where
  | begun (transaction : TransactionId)
  | busy (transaction : TransactionId)
  | flag (value : Bool)
  | lapsed (request : Option Lapsed)
  | correlated (correlation : Correlation)
  | allLapsed (requests : List Lapsed)
  | latency (span : Option Span)
  | deadline (instant : Option Instant)
  | outgoing (request : Option Outgoing)
  | incoming (request : Option Incoming)
  | count (number : Nat)
  | nothing
  deriving DecidableEq, Repr

namespace Ledger

def perform (l : Ledger) : LedgerOperation → LedgerAnswer × Ledger
  | .begin handle command timeout now =>
      match l.begin handle command timeout now with
      | .error transaction => (.busy transaction, l)
      | .ok (transaction, later) => (.begun transaction, later)
  | .abort handle command transaction =>
      match l.abort handle command transaction with
      | none => (.flag false, l)
      | some later => (.flag true, later)
  | .expire handle command transaction =>
      match l.expire handle command transaction with
      | none => (.lapsed none, l)
      | some (request, later) => (.lapsed (some request), later)
  | .complete handle command transaction now =>
      ((l.complete handle command transaction now).map .correlated id)
  | .takeLapsed now => (l.takeLapsed now).map .allLapsed id
  | .openIncoming handle command transaction now =>
      (.nothing, l.openIncoming handle command transaction now)
  | .closeIncoming handle command transaction now =>
      match l.closeIncoming handle command transaction now with
      | none => (.latency none, l)
      | some (span, later) => (.latency (some span), later)
  | .clear => (.nothing, empty)
  | .removeEndpoint handle => (.nothing, l.removeEndpoint handle)
  | .nextDeadline => (.deadline l.nextDeadline, l)
  | .isPending handle command => (.flag (l.isPending handle command), l)
  | .outgoing handle command => (.outgoing (l.outgoing? handle command), l)
  | .incoming handle command => (.incoming (l.incoming? handle command), l)
  | .pendingCount => (.count l.pendingCount, l)

def run (l : Ledger) (operations : List LedgerOperation) : Ledger :=
  operations.foldl (fun l operation => (l.perform operation).2) l

def answers (l : Ledger) : List LedgerOperation → List LedgerAnswer
  | [] => []
  | operation :: rest => (l.perform operation).1 :: (l.perform operation).2.answers rest

end Ledger

/-! ### The map -/

/-- What is known of the requests of a pair: the number of the next one to be sent, the last one
sent and the last one received. -/
structure Account where
  nextTransaction : TransactionId := 0
  outgoing : Outgoing := {}
  incoming : Incoming := {}
  deriving DecidableEq, Repr

namespace Account

def awaits (a : Account) (transaction : TransactionId) : Bool :=
  a.outgoing.pending && a.outgoing.transaction == transaction

/-- Whether the received request with this number is unanswered. -/
def owes (a : Account) (transaction : TransactionId) : Bool :=
  a.incoming.unanswered && a.incoming.transaction == transaction

/-- Whether a request is pending whose deadline has come. -/
def isDue (a : Account) (now : Instant) : Bool :=
  a.outgoing.pending && a.outgoing.deadline.any (· ≤ now)

def started (a : Account) (timeout : Option Span) (now : Instant) : Account where
  nextTransaction := a.nextTransaction + 1
  outgoing :=
    { transaction := a.nextTransaction, sentAt := some now, deadline := timeout.bind now.after?
      pending := true }
  incoming := a.incoming

def ended (a : Account) : Account :=
  { a with outgoing := { a.outgoing with pending := false, deadline := none } }

def opened (a : Account) (transaction : TransactionId) (now : Instant) : Account :=
  { a with incoming := { transaction, receivedAt := some now, unanswered := true } }

/-- The account when the received request was answered. -/
def closed (a : Account) : Account :=
  { a with incoming := { a.incoming with unanswered := false } }

end Account

/-- The accounts of the pairs in use, in the order in which they came into use. -/
abbrev Accounts := Roll (Handle × Command) Account

namespace Accounts

/-- The account of a pair; a pair that is not in use has one as good as new. -/
def account (a : Accounts) (handle : Handle) (command : Command) : Account :=
  (a.find? (handle, command)).getD {}

def perform (a : Accounts) : LedgerOperation → LedgerAnswer × Accounts
  | .begin handle command timeout now =>
      let account := a.account handle command
      if account.outgoing.pending then (.busy account.outgoing.transaction, a)
      else (.begun account.nextTransaction,
        a.enter (handle, command) (account.started timeout now))
  | .abort handle command transaction =>
      let account := a.account handle command
      if account.awaits transaction then (.flag true, a.enter (handle, command) account.ended)
      else (.flag false, a)
  | .expire handle command transaction =>
      let account := a.account handle command
      if account.awaits transaction then
        (.lapsed (some { handle, command, transaction, sentAt := account.outgoing.sentAt }),
          a.enter (handle, command) account.ended)
      else (.lapsed none, a)
  | .complete handle command transaction now =>
      let account := a.account handle command
      if account.awaits transaction then
        (.correlated (.matched (elapsedSince account.outgoing.sentAt now)),
          a.enter (handle, command) account.ended)
      else if account.outgoing.pending then
        (.correlated (.mismatch account.outgoing.transaction), a)
      else (.correlated .notPending, a)
  | .takeLapsed now =>
      (.allLapsed ((a.entries.filter fun entry => entry.2.isDue now).map fun entry =>
          { handle := entry.1.1, command := entry.1.2
            transaction := entry.2.outgoing.transaction, sentAt := entry.2.outgoing.sentAt }),
        a.mapValues fun account => if account.isDue now then account.ended else account)
  | .openIncoming handle command transaction now =>
      (.nothing,
        a.enter (handle, command) ((a.account handle command).opened transaction now))
  | .closeIncoming handle command transaction now =>
      let account := a.account handle command
      if account.owes transaction then
        (.latency (some (elapsedSince account.incoming.receivedAt now)),
          a.enter (handle, command) account.closed)
      else (.latency none, a)
  | .clear => (.nothing, .empty)
  | .removeEndpoint handle => (.nothing, a.without fun key => key.1 == handle)
  | .nextDeadline =>
      (.deadline ((a.entries.filter fun entry => entry.2.outgoing.pending).filterMap
        fun entry => entry.2.outgoing.deadline).min?, a)
  | .isPending handle command => (.flag (a.account handle command).outgoing.pending, a)
  | .outgoing handle command =>
      (.outgoing ((a.find? (handle, command)).map Account.outgoing), a)
  | .incoming handle command =>
      (.incoming ((a.find? (handle, command)).map Account.incoming), a)
  | .pendingCount => (.count (a.entries.countP fun entry => entry.2.outgoing.pending), a)

def run (a : Accounts) (operations : List LedgerOperation) : Accounts :=
  operations.foldl (fun a operation => (a.perform operation).2) a

def answers (a : Accounts) : List LedgerOperation → List LedgerAnswer
  | [] => []
  | operation :: rest =>
      (a.perform operation).1 :: answers (a.perform operation).2 rest

/-! ### What an operation leaves alone -/

variable {a later : Accounts} {β : Type} {p : Account → β}

/-- What `p` reads of the accounts stays, and of a pair that comes into use it is as good as new. -/
def Alike (p : Account → β) (a later : Accounts) : Prop :=
  ∀ key, (later.find? key).map p = (a.find? key).map p ∨
    a.find? key = none ∧ (later.find? key).map p = some (p {})

theorem Alike.refl (a : Accounts) : Alike p a a := fun _ => .inl rfl

/-- An entry that agrees with what stood there makes no difference. -/
theorem alike_enter {handle : Handle} {command : Command} {value : Account}
    (same : p value = p (a.account handle command)) :
    Alike p a (a.enter (handle, command) value) := by
  intro key
  rw [Roll.find?_enter]
  split
  · next here =>
    subst here
    unfold account at same
    cases found : a.find? (handle, command) with
    | none =>
        rw [found] at same
        exact .inr ⟨rfl, congrArg some same⟩
    | some account =>
        rw [found] at same
        exact .inl (congrArg some same)
  · exact .inl rfl

theorem alike_mapValues {f : Account → Account} (same : ∀ account, p (f account) = p account) :
    Alike p a (a.mapValues f) := by
  intro key
  rw [Roll.find?_mapValues, Option.map_map]
  exact .inl (Option.map_congr fun account _ => same account)

/-- What is done about requests sent leaves those received alone. -/
theorem alike_of_sends (a : Accounts) {operation : LedgerOperation} (sends : operation.Sends) :
    Alike Account.incoming a (a.perform operation).2 := by
  cases operation with
  | begin handle command timeout now =>
      simp only [perform]
      split
      · exact .refl a
      · exact alike_enter rfl
  | abort | expire =>
      simp only [perform]
      split
      · exact alike_enter rfl
      · exact .refl a
  | complete handle command transaction now =>
      simp only [perform]
      split
      · exact alike_enter rfl
      · split
        · exact .refl a
        · exact .refl a
  | takeLapsed now =>
      refine alike_mapValues fun account => ?_
      split <;> rfl
  | _ => exact sends.elim

/-- What is done about requests received leaves those sent alone. -/
theorem alike_of_receives (a : Accounts) {operation : LedgerOperation}
    (receives : operation.Receives) :
    Alike (fun account => (account.nextTransaction, account.outgoing)) a
      (a.perform operation).2 := by
  cases operation with
  | openIncoming handle command transaction now => exact alike_enter rfl
  | closeIncoming handle command transaction now =>
      simp only [perform]
      split
      · exact alike_enter rfl
      · exact .refl a
  | _ => exact receives.elim

end Accounts

end HubRelay
