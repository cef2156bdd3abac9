import HubRelay.Exchange.Operation
import Mathlib.Data.List.Nodup

/-!
Which handles a directory gives out.

However often endpoints are registered and unregistered, every entry stands at its own handle, the
handles stay within the predefined and the negotiated ones, and no two entries share an identifier
(`Directory.Kept`). What a registration answers is told by two relations with a rule for every
answer, `Directory.Registers` for a handle that the directory chooses and `Directory.RegistersAt`
for one that is given by name. The sums and differences of bytes behind both are checked in
`registerInBytes` and `registerAtInBytes`: none of them overflows.
-/

namespace HubRelay

namespace Directory

variable {d d' : Directory} {descriptor : Descriptor} {endpoint : Endpoint} {handle h : Handle}
  {uuid : Uuid} {r : Registration}

/-! ### Single calls -/

/-- Placing an endpoint changes what its handle finds and nothing else. -/
theorem find?_place (d : Directory) (handle h : Handle) (descriptor : Descriptor)
    (endpoint : Endpoint) :
    (d.place handle descriptor endpoint).find? h =
      if handle = h then some ⟨handle, d.issued, descriptor, endpoint⟩ else d.find? h :=
  Table.find?_insert d.table handle h _

/-- Whoever registers gets a handle that nobody holds. -/
theorem free_of_register (registered : d.register descriptor endpoint = .ok (handle, d')) :
    d.find? handle = none ∧ d' = d.place handle descriptor endpoint := by
  unfold register at registered
  split at registered
  · cases registered
  · split at registered
    · cases registered
    · rename_i free found
      obtain ⟨rfl, rfl⟩ := Prod.mk.inj (Except.ok.inj registered)
      have unused := List.find?_some found
      refine ⟨?_, rfl⟩
      show d.table.find? free = none
      simpa [Table.contains] using unused

/-- Unregistering an endpoint leaves the others registered. -/
theorem find?_of_unregister (gone : d.unregister handle = some (r, d')) (other : handle ≠ h) :
    d'.find? h = d.find? h := by
  unfold unregister at gone
  obtain ⟨_, -, same⟩ := Option.map_eq_some_iff.mp gone
  obtain ⟨-, rfl⟩ := Prod.mk.inj same
  exact (Table.find?_erase d.table handle h).trans (if_neg other)

theorem contains_eq_false_iff : d.table.contains handle = false ↔ d.find? handle = none := by
  rw [Table.contains, Option.isSome_eq_false_iff, Option.isNone_iff_eq_none]
  rfl

theorem contains_eq_true_iff : d.table.contains handle = true ↔ d.find? handle ≠ none := by
  rw [ne_eq, ← contains_eq_false_iff, Bool.not_eq_false]

/-! ### Who is there, and which handles there are -/

/-- A live registration has this identifier. -/
def Lists (d : Directory) (uuid : Uuid) : Prop :=
  ∃ handle r, d.find? handle = some r ∧ r.descriptor.uuid = uuid

/-- One of the handles that `register` chooses from. -/
def Negotiable (d : Directory) (handle : Handle) : Prop :=
  16 ≤ handle.toNat ∧ handle.toNat < 16 + d.capacity

theorem holds_eq_true_iff : d.holds uuid = true ↔ d.Lists uuid := by
  simp only [holds, entries, Table.values, List.any_map, List.any_eq_true, Function.comp_apply,
    beq_iff_eq, Lists, find?, Table.find?_eq_some_iff, Prod.exists]

/-- The identifiers as they stand in the list of entries. -/
theorem lists_iff_mem : d.Lists uuid ↔ uuid ∈ d.entries.map fun r => r.descriptor.uuid := by
  simp only [← holds_eq_true_iff, holds, List.any_eq_true, beq_iff_eq, List.mem_map]

theorem isAssignable_iff :
    d.isAssignable handle = true ↔ 0 < handle.toNat ∧ handle.toNat < 16 + d.capacity := by
  have zero : Header.noHandle.toNat = 0 := rfl
  have first : firstNegotiated = 16 := rfl
  rw [isAssignable, Bool.and_eq_true, bne_iff_ne, ne_eq, ← UInt8.toNat_inj, zero, Bool.or_eq_true,
    decide_eq_true_iff, decide_eq_true_iff, first]
  omega

/-- Every negotiated handle is a byte. -/
theorem toNat_negotiated (room : d.capacity ≤ mostNegotiated) :
    ∀ offset < d.capacity, Ranked.rank (UInt8.ofNat (firstNegotiated + offset)) = 16 + offset := by
  intro offset below
  have most : mostNegotiated = 240 := rfl
  show (UInt8.ofNat (16 + offset)).toNat = 16 + offset
  rw [UInt8.toNat_ofNat', Nat.mod_eq_of_lt (by omega)]

/-! ### What a registration answers -/

/-- What becomes of an endpoint that leaves the choice of its handle. The rules say in which order
the reasons for a refusal are looked at, and that the handle given is the lowest free one. -/
inductive Registers (d : Directory) (descriptor : Descriptor) (endpoint : Endpoint) :
    Except ExchangeError (Handle × Directory) → Prop where
  | known : d.Lists descriptor.uuid →
      Registers d descriptor endpoint (.error (.duplicateUuid descriptor.uuid))
  | full : ¬ d.Lists descriptor.uuid → (∀ handle, d.Negotiable handle → d.find? handle ≠ none) →
      Registers d descriptor endpoint (.error (.directoryFull d.capacity))
  | placed {handle : Handle} : ¬ d.Lists descriptor.uuid → d.Negotiable handle →
      d.find? handle = none →
      (∀ lower, d.Negotiable lower → lower.toNat < handle.toNat → d.find? lower ≠ none) →
      Registers d descriptor endpoint (.ok (handle, d.place handle descriptor endpoint))

/-- What becomes of an endpoint that asks for a handle by name. A handle may be asked for if it is
predefined or negotiable within the capacity. -/
inductive RegistersAt (d : Directory) (handle : Handle) (descriptor : Descriptor)
    (endpoint : Endpoint) : Except ExchangeError (Handle × Directory) → Prop where
  | unassignable : handle.toNat = 0 ∨ 16 + d.capacity ≤ handle.toNat →
      RegistersAt d handle descriptor endpoint (.error (.unassignable handle))
  | taken : 0 < handle.toNat → handle.toNat < 16 + d.capacity → d.find? handle ≠ none →
      RegistersAt d handle descriptor endpoint (.error (.handleInUse handle))
  | known : 0 < handle.toNat → handle.toNat < 16 + d.capacity → d.find? handle = none →
      d.Lists descriptor.uuid →
      RegistersAt d handle descriptor endpoint (.error (.duplicateUuid descriptor.uuid))
  | placed : 0 < handle.toNat → handle.toNat < 16 + d.capacity → d.find? handle = none →
      ¬ d.Lists descriptor.uuid →
      RegistersAt d handle descriptor endpoint
        (.ok (handle, d.place handle descriptor endpoint))

/-- Registration under a free handle does what its specification says. -/
theorem registers_register (room : d.capacity ≤ mostNegotiated) (descriptor : Descriptor)
    (endpoint : Endpoint) :
    d.Registers descriptor endpoint (d.register descriptor endpoint) := by
  have numbered := toNat_negotiated room
  unfold register
  by_cases listed : d.holds descriptor.uuid = true
  · rw [if_pos listed]
    exact .known (holds_eq_true_iff.mp listed)
  · rw [if_neg listed]
    rw [holds_eq_true_iff] at listed
    cases found : d.negotiated.find? fun handle => !d.table.contains handle with
    | none =>
        refine .full listed fun handle inside => ?_
        have taken := (Ranked.find?_successive_eq_none numbered).mp found handle inside.1 inside.2
        rwa [Bool.not_eq_false', contains_eq_true_iff] at taken
    | some handle =>
        obtain ⟨inside, free, least⟩ := (Ranked.find?_successive_eq_some numbered).mp found
        rw [Bool.not_eq_true', contains_eq_false_iff] at free
        refine .placed listed inside free fun lower negotiable before => ?_
        have taken := least lower negotiable.1 before
        rwa [Bool.not_eq_false', contains_eq_true_iff] at taken

/-- The specification leaves no choice. So the equivalence below says both what a registration may
answer and what it must. -/
theorem Registers.unique {answer other : Except ExchangeError (Handle × Directory)}
    (one : d.Registers descriptor endpoint answer) (two : d.Registers descriptor endpoint other) :
    answer = other := by
  cases one with
  | known listed =>
      cases two with
      | known => rfl
      | full fresh | placed fresh => exact absurd listed fresh
  | full fresh taken =>
      cases two with
      | known listed => exact absurd listed fresh
      | full => rfl
      | placed _ inside free => exact absurd free (taken _ inside)
  | @placed handle fresh inside free least =>
      cases two with
      | known listed => exact absurd listed fresh
      | full _ taken => exact absurd free (taken _ inside)
      | @placed handle' _ inside' free' least' =>
          rcases Nat.lt_trichotomy handle.toNat handle'.toNat with before | same | after
          · exact absurd free (least' handle inside before)
          · rw [UInt8.toNat_inj.mp same]
          · exact absurd free' (least handle' inside' after)

/-- So registration gives an answer exactly if its specification does. -/
theorem register_eq_iff (room : d.capacity ≤ mostNegotiated)
    {answer : Except ExchangeError (Handle × Directory)} :
    d.register descriptor endpoint = answer ↔ d.Registers descriptor endpoint answer := by
  constructor
  · rintro rfl
    exact registers_register room descriptor endpoint
  · intro registers
    exact (registers_register room descriptor endpoint).unique registers

/-- Registration under a wished handle does what its specification says. -/
theorem registersAt_registerAt (d : Directory) (handle : Handle) (descriptor : Descriptor)
    (endpoint : Endpoint) :
    d.RegistersAt handle descriptor endpoint (d.registerAt handle descriptor endpoint) := by
  unfold registerAt
  by_cases assignable : d.isAssignable handle = true
  · rw [assignable, Bool.not_true, if_neg Bool.false_ne_true]
    obtain ⟨positive, below⟩ := isAssignable_iff.mp assignable
    by_cases taken : d.table.contains handle = true
    · rw [if_pos taken]
      exact .taken positive below (contains_eq_true_iff.mp taken)
    · rw [if_neg taken]
      rw [Bool.not_eq_true, contains_eq_false_iff] at taken
      by_cases listed : d.holds descriptor.uuid = true
      · rw [if_pos listed]
        exact .known positive below taken (holds_eq_true_iff.mp listed)
      · rw [if_neg listed]
        exact .placed positive below taken (mt holds_eq_true_iff.mpr listed)
  · rw [Bool.not_eq_true] at assignable
    rw [assignable, Bool.not_false, if_pos rfl]
    apply RegistersAt.unassignable
    have outside := mt isAssignable_iff.mpr (Bool.eq_false_iff.mp assignable)
    omega

theorem RegistersAt.unique {answer other : Except ExchangeError (Handle × Directory)}
    (one : d.RegistersAt handle descriptor endpoint answer)
    (two : d.RegistersAt handle descriptor endpoint other) : answer = other := by
  cases one <;> cases two <;> first | rfl | contradiction | omega

/-- It gives an answer exactly if its specification does. -/
theorem registerAt_eq_iff {answer : Except ExchangeError (Handle × Directory)} :
    d.registerAt handle descriptor endpoint = answer ↔
      d.RegistersAt handle descriptor endpoint answer := by
  constructor
  · rintro rfl
    exact registersAt_registerAt d handle descriptor endpoint
  · intro registers
    exact (registersAt_registerAt d handle descriptor endpoint).unique registers

/-- An endpoint gets no handle that is held. -/
theorem free_of_registerAt {wish : Handle}
    (registered : d.registerAt wish descriptor endpoint = .ok (handle, d')) :
    d.find? handle = none ∧ d' = d.place handle descriptor endpoint := by
  cases registerAt_eq_iff.mp registered with
  | placed _ _ free => exact ⟨free, rfl⟩

/-! ### Runs -/

/-- A call that changes the directory. -/
inductive Call
  | register (descriptor : Descriptor) (endpoint : Endpoint)
  | registerAt (handle : Handle) (descriptor : Descriptor) (endpoint : Endpoint)
  | unregister (handle : Handle)

/-- The operation of an exchange that makes the call. -/
def Call.operation : Call → Operation
  | .register descriptor endpoint => .register descriptor endpoint
  | .registerAt handle descriptor endpoint => .registerAt handle descriptor endpoint
  | .unregister handle => .unregister handle

/-- The call has failed with this outcome. -/
inductive Failure : Outcome → Prop where
  | refused (error : ExchangeError) : Failure (.registered (.error error))
  | absent : Failure (.unregistered false)

def after (d : Directory) : Call → Directory
  | .register descriptor endpoint =>
      match d.register descriptor endpoint with
      | .ok (_, d') => d'
      | .error _ => d
  | .registerAt handle descriptor endpoint =>
      match d.registerAt handle descriptor endpoint with
      | .ok (_, d') => d'
      | .error _ => d
  | .unregister handle =>
      match d.unregister handle with
      | some (_, d') => d'
      | none => d

def run (d : Directory) (calls : List Call) : Directory := calls.foldl after d

/-- Every entry stands at its own handle, which may be given out, and no two entries share an
identifier. Identifiers that are absent may be shared. -/
structure Kept (d : Directory) : Prop where
  room : d.capacity ≤ mostNegotiated
  keyed : ∀ handle r, d.find? handle = some r → r.handle = handle
  inside : ∀ handle r, d.find? handle = some r →
    0 < handle.toNat ∧ handle.toNat < 16 + d.capacity
  apart : (d.entries.map fun r => r.descriptor.uuid).Nodup

theorem kept_ofCapacity (capacity : Nat) : (ofCapacity capacity).Kept where
  room := Nat.min_le_right capacity mostNegotiated
  keyed := by
    intro handle r found
    cases found
  inside := by
    intro handle r found
    cases found
  apart := List.nodup_nil

/-- An endpoint under a free handle within the bounds keeps the directory in order. -/
theorem Kept.place (kept : d.Kept) (positive : 0 < handle.toNat)
    (below : handle.toNat < 16 + d.capacity) (free : d.find? handle = none)
    (fresh : ¬ d.Lists descriptor.uuid) : (d.place handle descriptor endpoint).Kept where
  room := kept.room
  keyed := by
    intro h r found
    rw [find?_place] at found
    split at found
    · rename_i same
      cases found
      exact same
    · exact kept.keyed h r found
  inside := by
    intro h r found
    rw [find?_place] at found
    split at found
    · rename_i same
      rw [← same]
      exact ⟨positive, below⟩
    · exact kept.inside h r found
  apart := by
    have perm := (Table.perm_insert free ⟨handle, d.issued, descriptor, endpoint⟩).map
      fun entry => entry.2.descriptor.uuid
    have new : descriptor.uuid ∉ d.table.entries.map fun entry => entry.2.descriptor.uuid := by
      rw [lists_iff_mem, entries, Table.values, List.map_map] at fresh
      exact fresh
    have old := kept.apart
    rw [entries, Table.values, List.map_map] at old ⊢
    exact perm.nodup_iff.mpr (List.nodup_cons.mpr ⟨new, old⟩)

/-- So does one that goes. -/
theorem Kept.erase (kept : d.Kept) (handle : Handle) :
    Kept { d with table := d.table.erase handle } := by
  have stays {h : Handle} {r : Registration} (found : (d.table.erase handle).find? h = some r) :
      d.find? h = some r := by
    rw [Table.find?_erase] at found
    split at found
    · cases found
    · exact found
  refine ⟨kept.room, fun h r found => kept.keyed h r (stays found),
    fun h r found => kept.inside h r (stays found), ?_⟩
  have fewer : (d.table.erase handle).entries.Sublist d.table.entries := List.filter_sublist
  exact kept.apart.sublist ((fewer.map Prod.snd).map _)

/-- All that a call can do to a directory. -/
inductive Changes (d : Directory) : Directory → Prop where
  | none : Changes d d
  | placed {handle : Handle} {descriptor : Descriptor} {endpoint : Endpoint} :
      0 < handle.toNat → handle.toNat < 16 + d.capacity → d.find? handle = none →
      ¬ d.Lists descriptor.uuid → Changes d (d.place handle descriptor endpoint)
  | erased (handle : Handle) : Changes d { d with table := d.table.erase handle }

/-- A call places one endpoint, removes one or changes nothing. -/
theorem changes_after (room : d.capacity ≤ mostNegotiated) (call : Call) :
    d.Changes (d.after call) := by
  cases call with
  | register descriptor endpoint =>
      simp only [Directory.after]
      generalize answered : d.register descriptor endpoint = answer
      cases (register_eq_iff room).mp answered with
      | known | full => exact .none
      | placed fresh inside free =>
          obtain ⟨above, below⟩ := inside
          exact .placed (by omega) below free fresh
  | registerAt handle descriptor endpoint =>
      simp only [Directory.after]
      generalize answered : d.registerAt handle descriptor endpoint = answer
      cases registerAt_eq_iff.mp answered with
      | unassignable | taken | known => exact .none
      | placed positive below free fresh => exact .placed positive below free fresh
  | unregister handle =>
      simp only [Directory.after, unregister]
      cases d.find? handle with
      | none => exact .none
      | some r => exact .erased handle

theorem Changes.kept (changes : d.Changes d') (kept : d.Kept) : d'.Kept := by
  cases changes with
  | none => exact kept
  | placed positive below free fresh => exact kept.place positive below free fresh
  | erased handle => exact kept.erase handle

theorem Changes.capacity (changes : d.Changes d') : d'.capacity = d.capacity := by
  cases changes <;> rfl

/-- A directory stays in order in every run, and its capacity does not change. -/
theorem Kept.run (kept : d.Kept) (calls : List Call) :
    (d.run calls).Kept ∧ (d.run calls).capacity = d.capacity := by
  induction calls generalizing d with
  | nil => exact ⟨kept, rfl⟩
  | cons call rest ih =>
      have changes := changes_after kept.room call
      obtain ⟨kept', same⟩ := ih (changes.kept kept)
      exact ⟨kept', same.trans changes.capacity⟩

/-- An exchange makes the calls on its directory, and one that fails changes nothing at all. -/
theorem start_call (x : Exchange) (call : Call) (now : Instant) :
    (x.start call.operation now).1.directory = x.directory.after call ∧
      ∀ outcome, (x.start call.operation now).2 = .finished outcome → Failure outcome →
        (x.start call.operation now).1 = x := by
  cases call with
  | register descriptor endpoint =>
      simp only [Call.operation, Exchange.start, Exchange.register, Exchange.finish, after]
      cases x.directory.register descriptor endpoint with
      | error error => exact ⟨rfl, fun _ _ _ => rfl⟩
      | ok placed =>
          refine ⟨rfl, ?_⟩
          rintro outcome ends failed
          cases ends
          cases failed
  | registerAt handle descriptor endpoint =>
      simp only [Call.operation, Exchange.start, Exchange.registerAt, Exchange.finish, after]
      cases x.directory.registerAt handle descriptor endpoint with
      | error error => exact ⟨rfl, fun _ _ _ => rfl⟩
      | ok placed =>
          refine ⟨rfl, ?_⟩
          rintro outcome ends failed
          cases ends
          cases failed
  | unregister handle =>
      simp only [Call.operation, Exchange.start, Exchange.unregister, Exchange.finish, after]
      cases x.directory.unregister handle with
      | none => exact ⟨rfl, fun _ _ _ => rfl⟩
      | some gone =>
          refine ⟨rfl, ?_⟩
          rintro outcome ends failed
          cases ends
          cases failed

/-! ### The arithmetic of handles -/

def byteSum? (a b : UInt8) : Option UInt8 :=
  if a.toNat + b.toNat < UInt8.size then some (a + b) else none

def byteDifference? (a b : UInt8) : Option UInt8 := if b ≤ a then some (a - b) else none

/-- A new directory, its size computed in bytes from the highest handle. -/
def ofCapacityInBytes (capacity : Nat) : Option Directory :=
  (byteDifference? 255 16).map fun top => { capacity := min capacity (top.toNat + 1) }

/-- The first free handle at one of the offsets, computed in bytes. The offsets are tried from the
lowest on, and the sum that makes a handle of one is checked. -/
def searchInBytes (d : Directory) : List Nat → Option (Option Handle)
  | [] => some none
  | offset :: rest => do
      let handle ← byteSum? 16 (UInt8.ofNat offset)
      if d.table.contains handle then d.searchInBytes rest else return some handle

/-- Whether a registration may hold the handle, computed in bytes. -/
def isAssignableInBytes (d : Directory) (handle : Handle) : Option Bool :=
  if handle = Header.noHandle then some false
  else if handle < 16 then some true
  else (byteDifference? handle 16).map fun offset => offset.toNat < d.capacity

/-- Registers at the lowest free negotiated handle, computed in bytes. It fails where a byte would
overflow, and `registerInBytes_eq` says that this never happens. -/
def registerInBytes (d : Directory) (descriptor : Descriptor) (endpoint : Endpoint) :
    Option (Except ExchangeError (Handle × Directory)) :=
  if d.holds descriptor.uuid then some (.error (.duplicateUuid descriptor.uuid))
  else
    (d.searchInBytes (List.range d.capacity)).map fun found =>
      match found with
      | none => .error (.directoryFull d.capacity)
      | some handle => .ok (handle, d.place handle descriptor endpoint)

/-- Registers at a handle given by name, computed in bytes. -/
def registerAtInBytes (d : Directory) (handle : Handle) (descriptor : Descriptor)
    (endpoint : Endpoint) : Option (Except ExchangeError (Handle × Directory)) := do
  let assignable ← d.isAssignableInBytes handle
  if !assignable then return .error (.unassignable handle)
  else if d.table.contains handle then return .error (.handleInUse handle)
  else if d.holds descriptor.uuid then return .error (.duplicateUuid descriptor.uuid)
  else return .ok (handle, d.place handle descriptor endpoint)

/-- Reckoning in bytes, a directory of any capacity can be set up. -/
theorem ofCapacityInBytes_eq (capacity : Nat) :
    ofCapacityInBytes capacity = some (ofCapacity capacity) := rfl

/-- The handles that are dealt out fit into a byte. -/
theorem byteSum?_offset {offset : Nat} (below : offset < mostNegotiated) :
    byteSum? 16 (UInt8.ofNat offset) = some (UInt8.ofNat (firstNegotiated + offset)) := by
  have most : mostNegotiated = 240 := rfl
  have small : (UInt8.ofNat offset).toNat = offset := by
    rw [UInt8.toNat_ofNat', Nat.mod_eq_of_lt (by omega)]
  have fits : (16 : UInt8).toNat + (UInt8.ofNat offset).toNat < UInt8.size := by
    rw [small]
    show 16 + offset < 256
    omega
  rw [byteSum?, if_pos fits, firstNegotiated, UInt8.ofNat_add]
  rfl

/-- The search for a free handle does not overflow a byte as long as its offsets are small enough.
-/
theorem searchInBytes_eq {offsets : List Nat}
    (below : ∀ offset ∈ offsets, offset < mostNegotiated) :
    d.searchInBytes offsets =
      some ((offsets.map fun offset => UInt8.ofNat (firstNegotiated + offset)).find?
        fun handle => !d.table.contains handle) := by
  induction offsets with
  | nil => rfl
  | cons offset rest ih =>
      have later := ih fun other mem => below other (List.mem_cons_of_mem _ mem)
      rw [searchInBytes, byteSum?_offset (below offset List.mem_cons_self), List.map_cons]
      simp only [Option.bind_eq_bind, Option.bind_some]
      cases taken : d.table.contains (UInt8.ofNat (firstNegotiated + offset)) with
      | true =>
          rw [if_pos rfl, later, List.find?_cons_of_neg]
          rw [taken, Bool.not_true]
          exact Bool.false_ne_true
      | false =>
          rw [if_neg Bool.false_ne_true, List.find?_cons_of_pos]
          · rfl
          · rw [taken, Bool.not_false]

/-- The bound of a wished handle is reckoned without overflow. -/
theorem isAssignableInBytes_eq (d : Directory) (handle : Handle) :
    d.isAssignableInBytes handle = some (d.isAssignable handle) := by
  unfold isAssignableInBytes isAssignable
  by_cases none : handle = Header.noHandle
  · rw [if_pos none, none]
    rfl
  · rw [if_neg none, bne_iff_ne.mpr none, Bool.true_and]
    have bound : handle < 16 ↔ handle.toNat < firstNegotiated := UInt8.lt_iff_toNat_lt
    by_cases predefined : handle < 16
    · rw [if_pos predefined, decide_eq_true (bound.mp predefined), Bool.true_or]
    · have least : 16 ≤ handle := UInt8.not_lt.mp predefined
      rw [if_neg predefined, byteDifference?, if_pos least, Option.map_some,
        decide_eq_false (mt bound.mpr predefined), Bool.false_or, UInt8.toNat_sub_of_le _ _ least]
      rfl

/-- Reckoning in bytes makes no difference to registration within the greatest capacity. -/
theorem registerInBytes_eq (room : d.capacity ≤ mostNegotiated) (descriptor : Descriptor)
    (endpoint : Endpoint) :
    d.registerInBytes descriptor endpoint = some (d.register descriptor endpoint) := by
  have below : ∀ offset ∈ List.range d.capacity, offset < mostNegotiated := fun offset mem =>
    Nat.lt_of_lt_of_le (List.mem_range.mp mem) room
  unfold registerInBytes register
  rw [searchInBytes_eq below]
  split
  · rfl
  · rfl

/-- Nor does it to registration under a wished handle, whatever the capacity. -/
theorem registerAtInBytes_eq (d : Directory) (handle : Handle) (descriptor : Descriptor)
    (endpoint : Endpoint) :
    d.registerAtInBytes handle descriptor endpoint =
      some (d.registerAt handle descriptor endpoint) := by
  unfold registerAtInBytes registerAt
  rw [isAssignableInBytes_eq, Option.bind_eq_bind, Option.bind_some]
  split
  · rfl
  · split
    · rfl
    · split <;> rfl

/-! ### At all times -/

/-- What holds of a directory with room for so many negotiated handles. The fields say when each
kind of registration succeeds, what it gives, and when and how it fails, next to what holds of the
entries themselves. -/
structure Orderly (d : Directory) (room : Nat) : Prop where
  capacity : d.capacity = room
  /-- Every entry stands at its own handle, which is a predefined or a negotiated one. -/
  keyed : ∀ handle r, d.find? handle = some r →
    r.handle = handle ∧
      (1 ≤ handle.toNat ∧ handle.toNat ≤ 15 ∨ 16 ≤ handle.toNat ∧ handle.toNat < 16 + room)
  apart : (d.entries.map fun r => r.descriptor.uuid).Nodup
  /-- Whoever leaves the choice gets the least free negotiated handle, unless the identifier is
  there or all negotiated handles are taken. -/
  register : ∀ descriptor endpoint answer,
    d.register descriptor endpoint = answer ↔ d.Registers descriptor endpoint answer
  registerAt : ∀ handle descriptor endpoint answer,
    d.registerAt handle descriptor endpoint = answer ↔
      d.RegistersAt handle descriptor endpoint answer
  /-- Whoever leaves is the only one that does. -/
  unregister : ∀ handle other, (d.after (.unregister handle)).find? other =
    if handle = other then none else d.find? other
  /-- The calls of an exchange with this directory that fail change nothing. -/
  calls : ∀ x : Exchange, x.directory = d → ∀ call now,
    (x.start call.operation now).1.directory = d.after call ∧
      ∀ outcome, (x.start call.operation now).2 = .finished outcome → Failure outcome →
        (x.start call.operation now).1 = x
  /-- Handles are computed without overflow. -/
  bytes : ∀ descriptor endpoint,
    d.registerInBytes descriptor endpoint = some (d.register descriptor endpoint) ∧
      ∀ handle, d.registerAtInBytes handle descriptor endpoint =
        some (d.registerAt handle descriptor endpoint)

/-- After an endpoint has gone, its handle finds nothing. -/
theorem find?_after_unregister (d : Directory) (handle other : Handle) :
    (d.after (.unregister handle)).find? other =
      if handle = other then none else d.find? other := by
  simp only [after, unregister]
  cases found : d.find? handle with
  | none =>
      by_cases same : handle = other
      · rw [if_pos same, ← same]
        exact found
      · rw [if_neg same]
        rfl
  | some r => exact Table.find?_erase d.table handle other

end Directory

/-- A directory is orderly after any calls, whatever its size. Sizes beyond 240 make no difference,
as there are no more negotiated handles; that is the minimum in the statement. The first clause is
about the bytes with which a new directory is set up. -/
theorem directories_stay_orderly (capacity : Nat) (calls : List Directory.Call) :
    Directory.ofCapacityInBytes capacity = some (Directory.ofCapacity capacity) ∧
      ((Directory.ofCapacity capacity).run calls).Orderly (min capacity 240) := by
  refine ⟨Directory.ofCapacityInBytes_eq capacity, ?_⟩
  obtain ⟨kept, size⟩ := (Directory.kept_ofCapacity capacity).run calls
  generalize (Directory.ofCapacity capacity).run calls = d at kept size
  have size : d.capacity = min capacity 240 := size
  exact
    { capacity := size
      keyed := by
        intro handle r found
        have inside := kept.inside handle r found
        refine ⟨kept.keyed handle r found, ?_⟩
        omega
      apart := kept.apart
      register := fun _ _ _ => Directory.register_eq_iff kept.room
      registerAt := fun _ _ _ _ => Directory.registerAt_eq_iff
      unregister := Directory.find?_after_unregister d
      calls := by
        rintro x rfl call now
        exact Directory.start_call x call now
      bytes := fun descriptor endpoint =>
        ⟨Directory.registerInBytes_eq kept.room descriptor endpoint, fun handle =>
          Directory.registerAtInBytes_eq d handle descriptor endpoint⟩ }

/-- A freed handle is given out again, and an identifier that is there is refused. -/
example :
    let who (n : Nat) : Descriptor :=
      { role := .client, uuid := Uuid.ofNat n, version := ⟨1, 0, 0⟩, commands := 1 }
    ((Directory.ofCapacity 2).run [.register (who 1) .echo, .register (who 2) .echo, .unregister 16,
      .registerAt 1 (who 4) .echo, .register (who 4) .probe, .register (who 5) .probe]).entries.map
        (fun r => (r.handle, r.serial)) = [(1, 2), (16, 3), (17, 1)] := by
  decide

end HubRelay
