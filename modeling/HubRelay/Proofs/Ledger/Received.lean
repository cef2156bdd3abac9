import HubRelay.Proofs.Ledger.Pending

/-!
The received requests of a ledger, and which of them still wait for their answers.

`owes` asks for the request received last on a slot. Requests sent do not touch it; of what is done
about requests received, only the one under the same key can settle it, and only another one on the
same slot can take its place.
-/

namespace HubRelay

namespace Ledger

variable {l later : Ledger}

/-- Nothing that concerns requests received differs between the two ledgers. -/
def ReceivesAlike (l later : Ledger) : Prop :=
  ∀ handle command, (later.slotAt handle command).incoming = (l.slotAt handle command).incoming

theorem ReceivesAlike.refl (l : Ledger) : l.ReceivesAlike l := fun _ _ => rfl

/-- The same answers are owed while the receiving side of every slot stays as it is. -/
theorem ReceivesAlike.owes_eq (alike : l.ReceivesAlike later) (key : RequestKey) :
    later.owes key = l.owes key := by
  simp [owes, Slot.owes, alike key.handle key.command]

/-- What is sent on a slot does not concern what was received on it. -/
theorem receivesAlike_withRequest (wf : l.WellFormed) (handle : Handle) (command : Command)
    (timeout : Option Span) (now : Instant) :
    l.ReceivesAlike (l.withRequest handle command timeout now) := by
  intro h c
  rw [slotAt_withRequest wf]
  split <;> rfl

theorem receivesAlike_withoutRequest (wf : l.WellFormed) (handle : Handle) (command : Command) :
    l.ReceivesAlike (l.withoutRequest handle command) := by
  intro h c
  rw [slotAt_withoutRequest wf]
  split <;> rfl

theorem receivesAlike_takeLapsed (l : Ledger) (now : Instant) :
    l.ReceivesAlike (l.takeLapsed now).2 := by
  intro h c
  rw [slotAt_takeLapsed]
  split <;> rfl

/-- On its slot only the request received last is owed an answer. -/
theorem owes_openIncoming (wf : l.WellFormed) (handle : Handle) (command : Command)
    (transaction : TransactionId) (now : Instant) (key : RequestKey) :
    (l.openIncoming handle command transaction now).owes key =
      if handle = key.handle ∧ command = key.command then transaction == key.transaction
      else l.owes key := by
  unfold owes
  rw [slotAt_openIncoming wf]
  split
  · simp [Slot.owes, Slot.receive]
  · rfl

/-- A request that is closed is owed none. -/
theorem owes_closed (wf : l.WellFormed) (key other : RequestKey) :
    (l.closed key).owes other = if key = other then false else l.owes other := by
  by_cases owed : l.owes key = true
  · by_cases here : key.handle = other.handle ∧ key.command = other.command
    · -- The slot owes an answer under the number of `key`, and under no other one.
      have number : (l.slotAt other.handle other.command).incoming.transaction =
          key.transaction := by
        rw [owes, here.1, here.2] at owed
        exact beq_iff_eq.mp (Bool.and_eq_true_iff.mp owed).2
      have settled : (l.closed key).owes other = false := by
        rw [owes, slotAt_closed wf, if_pos ⟨here.1, here.2, owed⟩]
        rfl
      rw [settled]
      by_cases same : key = other
      · rw [if_pos same]
      · have apart : key.transaction ≠ other.transaction := fun alike =>
          same (by cases key; cases other; simp_all)
        rw [if_neg same, owes, Slot.owes, number]
        simp [apart]
    · have elsewhere : ¬ (key.handle = other.handle ∧ key.command = other.command ∧
          l.owes key = true) := fun all => here ⟨all.1, all.2.1⟩
      have apart : key ≠ other := by
        rintro rfl
        exact here ⟨rfl, rfl⟩
      rw [owes, slotAt_closed wf, if_neg elsewhere, if_neg apart, owes]
  · rw [Bool.not_eq_true] at owed
    rw [closed_of_not_owes owed]
    split
    · rename_i same
      rw [← same, owed]
    · rfl

/-- An endpoint that was removed owes nothing. -/
theorem owes_removeEndpoint (wf : l.WellFormed) (handle : Handle) (key : RequestKey) :
    (l.removeEndpoint handle).owes key =
      if handle = key.handle then false else l.owes key := by
  unfold owes
  rw [slotAt_removeEndpoint wf]
  split <;> rfl

end Ledger

end HubRelay
