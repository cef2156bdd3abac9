import HubRelay.Exchange.Ledger
import Std.Data.HashMap.Lemmas

/-!
The arena of slots and its index agree, and what each operation of a ledger does to `slot?`.

`Ledger.WellFormed` says that the index finds every slot at its own place and nothing else, so no
two slots stand for one pair. Every operation keeps it. Under it an operation is known by what it
does to `slot?`: later modules use these equations and never look at arena or index again.
-/

namespace HubRelay

namespace Ledger

/-- An entry of the index points at the slot of its pair, and every slot is found that way. Both
directions are needed: the first makes look-ups right, and the second scans, which go through the
arena. -/
def WellFormed (l : Ledger) : Prop :=
  ∀ handle command place, l.index[(handle, command)]? = some place ↔
    ∃ s : Slot, l.slots[place]? = some s ∧ s.handle = handle ∧ s.command = command

/-! ### Looking up -/

section LookUp

variable {l : Ledger}

/-- In a well-formed ledger a pair finds the one slot that bears it. -/
theorem slot?_eq_some_iff (wf : l.WellFormed) {handle : Handle} {command : Command} {s : Slot} :
    l.slot? handle command = some s ↔
      s ∈ l.slots ∧ s.handle = handle ∧ s.command = command := by
  simp only [slot?, Option.bind_eq_some_iff]
  constructor
  · rintro ⟨place, indexed, found⟩
    obtain ⟨s', found', rfl, rfl⟩ := (wf _ _ _).mp indexed
    rw [found] at found'
    obtain rfl : s = s' := Option.some.inj found'
    exact ⟨Array.mem_of_getElem? found, rfl, rfl⟩
  · rintro ⟨mem, rfl, rfl⟩
    obtain ⟨place, found⟩ := Array.getElem?_of_mem mem
    exact ⟨place, (wf _ _ _).mpr ⟨s, found, rfl, rfl⟩, found⟩

theorem slot?_of_mem (wf : l.WellFormed) {s : Slot} (mem : s ∈ l.slots) :
    l.slot? s.handle s.command = some s :=
  (slot?_eq_some_iff wf).mpr ⟨mem, rfl, rfl⟩

/-- Two slots that stand for one pair are the same slot. -/
theorem eq_of_mem (wf : l.WellFormed) {s s' : Slot} (mem : s ∈ l.slots) (mem' : s' ∈ l.slots)
    (handle : s.handle = s'.handle) (command : s.command = s'.command) : s = s' := by
  have found := slot?_of_mem wf mem
  rw [handle, command, slot?_of_mem wf mem'] at found
  exact (Option.some.inj found).symm

end LookUp

/-! ### Making and changing slots -/

theorem wellFormed_empty : WellFormed empty := by
  intro handle command place
  simp [empty]

theorem slot?_empty (handle : Handle) (command : Command) : empty.slot? handle command = none := by
  simp [empty, slot?]

/-- A slot that is put into use takes the next free place, which no other pair points to. -/
theorem wellFormed_allocate {l : Ledger} (wf : l.WellFormed) (handle : Handle)
    (command : Command) : (l.allocate handle command).WellFormed := by
  unfold allocate
  cases indexed : l.index[(handle, command)]? with
  | some place => exact wf
  | none =>
      intro h c place
      simp only [Std.HashMap.getElem?_insert, Array.getElem?_push]
      by_cases here : (handle, command) = (h, c)
      · obtain ⟨rfl, rfl⟩ := Prod.mk.inj here
        simp only [beq_self_eq_true, if_true]
        constructor
        · rintro ⟨⟩
          exact ⟨{ handle, command }, by simp, rfl, rfl⟩
        · rintro ⟨s, found, rfl, rfl⟩
          split at found
          · rename_i last
            rw [last]
          · have := (wf _ _ _).mpr ⟨s, found, rfl, rfl⟩
            rw [indexed] at this
            cases this
      · simp only [beq_eq_false_iff_ne.mpr here, Bool.false_eq_true, if_false]
        rw [wf]
        constructor
        · rintro ⟨s, found, pair⟩
          have below := (Array.getElem?_eq_some_iff.mp found).1
          exact ⟨s, by rw [if_neg (Nat.ne_of_lt below)]; exact found, pair⟩
        · rintro ⟨s, found, rfl, rfl⟩
          split at found
          · obtain rfl := Option.some.inj found
            exact absurd rfl here
          · exact ⟨s, found, rfl, rfl⟩

/-- Putting a slot into use leaves it as it is if it was in use already. -/
theorem slot?_allocate {l : Ledger} (wf : l.WellFormed) (handle h : Handle)
    (command c : Command) :
    (l.allocate handle command).slot? h c =
      if handle = h ∧ command = c then some ((l.slot? h c).getD { handle, command })
      else l.slot? h c := by
  unfold allocate
  cases indexed : l.index[(handle, command)]? with
  | some place =>
      by_cases here : handle = h ∧ command = c
      · obtain ⟨rfl, rfl⟩ := here
        obtain ⟨s, found, -⟩ := (wf _ _ _).mp indexed
        simp [slot?, indexed, found]
      · rw [if_neg here]
  | none =>
      by_cases here : handle = h ∧ command = c
      · obtain ⟨rfl, rfl⟩ := here
        simp [slot?, indexed]
      · have differ : ((handle, command) == (h, c)) = false := by simpa using here
        simp only [slot?, Std.HashMap.getElem?_insert, differ, Bool.false_eq_true, if_false,
          if_neg here]
        cases elsewhere : l.index[(h, c)]? with
        | none => rfl
        | some place =>
            obtain ⟨s, found, -⟩ := (wf _ _ _).mp elsewhere
            have below := (Array.getElem?_eq_some_iff.mp found).1
            simp [Array.getElem?_push, Nat.ne_of_lt below]

/-- A change of a slot that leaves it in its place. -/
def Keeps (f : Slot → Slot) : Prop := ∀ s, (f s).handle = s.handle ∧ (f s).command = s.command

theorem keeps_begin (timeout : Option Span) (now : Instant) : Keeps (·.begin timeout now) :=
  fun _ => ⟨rfl, rfl⟩

theorem keeps_finish : Keeps Slot.finish := fun _ => ⟨rfl, rfl⟩

theorem keeps_receive (transaction : TransactionId) (now : Instant) :
    Keeps (·.receive transaction now) := fun _ => ⟨rfl, rfl⟩

theorem keeps_answer : Keeps Slot.answer := fun _ => ⟨rfl, rfl⟩

/-- Changing a slot keeps the index right as long as the slot keeps its pair. -/
theorem wellFormed_modify {l : Ledger} (wf : l.WellFormed) (handle : Handle) (command : Command)
    {f : Slot → Slot} (keeps : Keeps f) : (l.modify handle command f).WellFormed := by
  unfold modify
  cases indexed : l.index[(handle, command)]? with
  | none => exact wf
  | some place =>
      intro h c p
      rw [wf]
      simp only [Array.getElem?_modify]
      constructor
      · rintro ⟨s, found, rfl, rfl⟩
        split
        · exact ⟨f s, by simp [found], keeps s⟩
        · exact ⟨s, found, rfl, rfl⟩
      · rintro ⟨s, found, rfl, rfl⟩
        split at found
        · obtain ⟨old, was, rfl⟩ := Option.map_eq_some_iff.mp found
          exact ⟨old, was, (keeps old).1.symm, (keeps old).2.symm⟩
        · exact ⟨s, found, rfl, rfl⟩

/-- A change to the slot of one pair is seen under that pair only. -/
theorem slot?_modify {l : Ledger} (wf : l.WellFormed) (handle h : Handle) (command c : Command)
    (f : Slot → Slot) :
    (l.modify handle command f).slot? h c =
      if handle = h ∧ command = c then (l.slot? h c).map f else l.slot? h c := by
  unfold modify
  cases indexed : l.index[(handle, command)]? with
  | none =>
      by_cases here : handle = h ∧ command = c
      · obtain ⟨rfl, rfl⟩ := here
        simp [slot?, indexed]
      · rw [if_neg here]
  | some place =>
      by_cases here : handle = h ∧ command = c
      · obtain ⟨rfl, rfl⟩ := here
        simp [slot?, indexed, Array.getElem?_modify]
      · simp only [slot?, if_neg here]
        cases elsewhere : l.index[(h, c)]? with
        | none => rfl
        | some other =>
            have apart : place ≠ other := by
              rintro rfl
              obtain ⟨s, found, rfl, rfl⟩ := (wf _ _ _).mp indexed
              obtain ⟨s', found', rfl, rfl⟩ := (wf _ _ _).mp elsewhere
              rw [found] at found'
              obtain rfl := Option.some.inj found'
              exact here ⟨rfl, rfl⟩
            simp [Array.getElem?_modify, apart]

/-! ### Forgetting slots -/

/-- The step that `ofSlots` takes for every place. -/
private def enter (slots : Array Slot) (index : Std.HashMap (Handle × Command) Nat)
    (place : Nat) : Std.HashMap (Handle × Command) Nat :=
  match slots[place]? with
  | some s => index.insert (s.handle, s.command) place
  | none => index

/-- The index built from the first `n` places finds exactly the slots that stand there. The
induction is on `n`; that no two slots bear the same pair is used when the last place is entered. -/
private theorem enter_range {slots : Array Slot}
    (apart : ∀ (i j : Nat) (s s' : Slot), slots[i]? = some s → slots[j]? = some s' →
      s.handle = s'.handle → s.command = s'.command → i = j) (n : Nat) (handle : Handle)
    (command : Command) (place : Nat) :
    ((List.range n).foldl (enter slots) {})[(handle, command)]? = some place ↔
      place < n ∧ ∃ s : Slot, slots[place]? = some s ∧ s.handle = handle ∧ s.command = command := by
  induction n with
  | zero => simp
  | succ n ih =>
      rw [List.range_succ, List.foldl_append, List.foldl_cons, List.foldl_nil, enter]
      cases last : slots[n]? with
      | none =>
          rw [ih]
          constructor
          · rintro ⟨below, found⟩
            exact ⟨Nat.lt_succ_of_lt below, found⟩
          · rintro ⟨below, s, found, pair⟩
            have : place ≠ n := by
              rintro rfl
              rw [last] at found
              cases found
            exact ⟨by omega, s, found, pair⟩
      | some s =>
          rw [Std.HashMap.getElem?_insert]
          by_cases here : (s.handle, s.command) = (handle, command)
          · obtain ⟨rfl, rfl⟩ := Prod.mk.inj here
            simp only [beq_self_eq_true, if_true, Option.some.injEq]
            constructor
            · rintro rfl
              exact ⟨Nat.lt_succ_self _, s, last, rfl, rfl⟩
            · rintro ⟨-, s', found, handle, command⟩
              exact apart _ _ _ _ last found handle.symm command.symm
          · simp only [beq_eq_false_iff_ne.mpr here, Bool.false_eq_true, if_false]
            rw [ih]
            constructor
            · rintro ⟨below, found⟩
              exact ⟨Nat.lt_succ_of_lt below, found⟩
            · rintro ⟨below, s', found, rfl, rfl⟩
              have : place ≠ n := by
                rintro rfl
                rw [last] at found
                obtain rfl := Option.some.inj found
                exact here rfl
              exact ⟨by omega, s', found, rfl, rfl⟩

/-- An index that is built anew is right if no two slots bear the same pair. -/
theorem wellFormed_ofSlots {slots : Array Slot}
    (apart : ∀ (i j : Nat) (s s' : Slot), slots[i]? = some s → slots[j]? = some s' →
      s.handle = s'.handle → s.command = s'.command → i = j) : (ofSlots slots).WellFormed := by
  intro handle command place
  have indexed := enter_range apart slots.size handle command place
  refine Iff.trans indexed ⟨fun h => h.2, fun found => ⟨?_, found⟩⟩
  obtain ⟨s, found, -⟩ := found
  exact (Array.getElem?_eq_some_iff.mp found).1

/-- The slots that a filter leaves still stand for different pairs. -/
theorem apart_filter {l : Ledger} (wf : l.WellFormed) (keep : Slot → Bool) (i j : Nat)
    (s s' : Slot) (at_i : (l.slots.filter keep)[i]? = some s)
    (at_j : (l.slots.filter keep)[j]? = some s') (handle : s.handle = s'.handle)
    (command : s.command = s'.command) : i = j := by
  have distinct : (l.slots.filter keep).toList.Pairwise
      fun a b => ¬ (a.handle = b.handle ∧ a.command = b.command) := by
    rw [Array.toList_filter]
    refine List.Pairwise.filter _ (List.pairwise_iff_getElem.mpr ?_)
    intro m n hm hn less ⟨sameHandle, sameCommand⟩
    have at_m : l.slots[m]? = some l.slots.toList[m] := by
      rw [← Array.getElem?_toList, List.getElem?_eq_getElem hm]
    have at_n : l.slots[n]? = some l.slots.toList[n] := by
      rw [← Array.getElem?_toList, List.getElem?_eq_getElem hn]
    have first := (wf _ _ _).mpr ⟨_, at_m, rfl, rfl⟩
    rw [sameHandle, sameCommand, (wf _ _ _).mpr ⟨_, at_n, rfl, rfl⟩] at first
    have := Option.some.inj first
    omega
  rw [← Array.getElem?_toList] at at_i at_j
  obtain ⟨hi, rfl⟩ := List.getElem?_eq_some_iff.mp at_i
  obtain ⟨hj, rfl⟩ := List.getElem?_eq_some_iff.mp at_j
  have pairwise := List.pairwise_iff_getElem.mp distinct
  rcases Nat.lt_trichotomy i j with less | same | more
  · exact absurd ⟨handle, command⟩ (pairwise i j hi hj less)
  · exact same
  · exact absurd ⟨handle.symm, command.symm⟩ (pairwise j i hj hi more)

theorem wellFormed_removeEndpoint {l : Ledger} (wf : l.WellFormed) (handle : Handle) :
    (l.removeEndpoint handle).WellFormed :=
  wellFormed_ofSlots (apart_filter wf _)

/-- An endpoint that is removed takes all its slots along, and those of others are still found
although they have moved. After this lemma nothing has to be known about places any more. -/
theorem slot?_removeEndpoint {l : Ledger} (wf : l.WellFormed) (handle h : Handle)
    (command : Command) :
    (l.removeEndpoint handle).slot? h command =
      if handle = h then none else l.slot? h command := by
  have wf' := wellFormed_removeEndpoint wf handle
  have mem (s : Slot) : s ∈ (l.removeEndpoint handle).slots ↔ s ∈ l.slots ∧ s.handle ≠ handle := by
    simp [removeEndpoint, ofSlots]
  ext s
  rw [slot?_eq_some_iff wf', mem]
  by_cases here : handle = h
  · subst here
    simp only [if_true, reduceCtorEq, iff_false]
    rintro ⟨⟨-, gone⟩, same, -⟩
    exact gone same
  · rw [if_neg here, slot?_eq_some_iff wf]
    constructor
    · rintro ⟨⟨mem, -⟩, pair⟩
      exact ⟨mem, pair⟩
    · rintro ⟨mem, rfl, rfl⟩
      exact ⟨⟨mem, fun same => here same.symm⟩, rfl, rfl⟩

/-! ### Ending every request that is due -/

/-- A scan changes slots in place and lets the index be. -/
theorem wellFormed_takeLapsed {l : Ledger} (wf : l.WellFormed) (now : Instant) :
    (l.takeLapsed now).2.WellFormed := by
  intro h c place
  rw [takeLapsed, wf]
  simp only [Array.getElem?_map, Option.map_eq_some_iff]
  constructor
  · rintro ⟨s, found, rfl, rfl⟩
    refine ⟨_, ⟨s, found, rfl⟩, ?_⟩
    split
    · exact keeps_finish s
    · exact ⟨rfl, rfl⟩
  · rintro ⟨_, ⟨s, found, rfl⟩, rfl, rfl⟩
    refine ⟨s, found, ?_⟩
    split
    · exact ⟨(keeps_finish s).1.symm, (keeps_finish s).2.symm⟩
    · exact ⟨rfl, rfl⟩

theorem slot?_takeLapsed (l : Ledger) (now : Instant) (h : Handle) (c : Command) :
    (l.takeLapsed now).2.slot? h c =
      (l.slot? h c).map fun s => if s.isDue now then s.finish else s := by
  unfold slot?
  rw [Option.map_bind]
  refine congrArg _ (funext fun place => ?_)
  exact Array.getElem?_map

end Ledger

end HubRelay
