import HubRelay.Host.Keeper
import HubRelay.Proofs.Roster.RoundTrip

/-!
What a keeper of a roster's file still knows when the file is opened again.

Adding a client only looks at its identifier, while reading also leaves out numbers that no client
may have and numbers that stood there before. What comes through is `Roster.Foremost`
(`find?_ofContents`): the file holds all that was added, and the first client that it lists under a
number keeps that number. The invariant of a keeper is that its file reads back that far; it reads
back whole exactly as long as the roster is valid.
-/

namespace HubRelay

open Ranked (rank)

namespace Roster

variable {pairs kept : List (Uuid × ClientId)} {r : Roster} {uuid other : Uuid} {id : ClientId}

/-! ### What is kept of a roster that was written down -/

/-- The client is the first of those that are listed under its number, which clients may have. -/
structure Foremost (pairs : List (Uuid × ClientId)) (uuid : Uuid) (id : ClientId) : Prop where
  mem : (uuid, id) ∈ pairs
  assignable : id.isAssignable = true
  least : ∀ other, (other, id) ∈ pairs → rank uuid ≤ rank other

/-- Behind clients of lower rank another one is the first under its number if none of them has it;
the others stay what they are. -/
theorem foremost_concat_iff {last : Uuid × ClientId}
    (above : ∀ pair ∈ pairs, rank pair.1 < rank last.1) :
    Foremost (pairs ++ [last]) uuid id ↔
      Foremost pairs uuid id ∨
        (uuid, id) = last ∧ id.isAssignable = true ∧ id ∉ pairs.map Prod.snd := by
  constructor
  · rintro ⟨mem, assignable, least⟩
    have least_front (other) (mem : (other, id) ∈ pairs) := least other (List.mem_append_left _ mem)
    rcases List.mem_append.mp mem with mem | mem
    · exact .inl ⟨mem, assignable, least_front⟩
    · obtain rfl := List.mem_singleton.mp mem
      refine .inr ⟨rfl, assignable, fun held => ?_⟩
      obtain ⟨⟨other, _⟩, before, rfl⟩ := List.mem_map.mp held
      exact absurd (above _ before) (Nat.not_lt.mpr (least_front other before))
  · rintro (⟨mem, assignable, least⟩ | ⟨rfl, assignable, free⟩)
    · refine ⟨List.mem_append_left _ mem, assignable, fun other later => ?_⟩
      rcases List.mem_append.mp later with later | later
      · exact least other later
      · rw [← List.mem_singleton.mp later] at above
        exact Nat.le_of_lt (above _ mem)
    · refine ⟨List.mem_append_right _ List.mem_cons_self, assignable, fun other later => ?_⟩
      rcases List.mem_append.mp later with later | later
      · exact absurd (List.mem_map_of_mem later) free
      · obtain ⟨same, -⟩ := Prod.mk.inj (List.mem_singleton.mp later)
        exact Nat.le_of_eq (congrArg rank same.symm)

/-- What is kept of the records of some pairs: the foremost. -/
structure Sifted (pairs kept : List (Uuid × ClientId)) : Prop where
  keeps : Kept (pairs.map recordOf) kept
  mem_iff : ∀ uuid id, (uuid, id) ∈ kept ↔ Foremost pairs uuid id
  held_iff : ∀ id, id ∈ kept.map Prod.snd ↔ id.isAssignable = true ∧ id ∈ pairs.map Prod.snd

/-- A record is kept behind clients of lower rank if none of them has its number. -/
theorem Sifted.keeps_iff (sifted : Sifted pairs kept) {last : Uuid × ClientId}
    (above : ∀ pair ∈ pairs, rank pair.1 < rank last.1) :
    Keeps kept (recordOf last) uuid ↔
      uuid = last.1 ∧ last.2.isAssignable = true ∧ last.2 ∉ pairs.map Prod.snd := by
  have fresh : last.1 ∉ kept.map Prod.fst := by
    intro held
    obtain ⟨⟨uuid, id⟩, mem, rfl⟩ := List.mem_map.mp held
    exact Nat.lt_irrefl _ (above (last.1, id) ((sifted.mem_iff _ _).mp mem).mem)
  have free : last.2.isAssignable = true →
      (last.2 ∉ kept.map Prod.snd ↔ last.2 ∉ pairs.map Prod.snd) :=
    fun assignable => not_congr ((sifted.held_iff _).trans (and_iff_right assignable))
  constructor
  · rintro ⟨spelled, lowest, highest, -, unheld⟩
    have assignable := ClientId.isAssignable_iff.mpr ⟨lowest, highest⟩
    have read := Uuid.ofText?_eq_some_iff.mpr spelled
    rw [recordOf, Uuid.ofText?_simple] at read
    exact ⟨(Option.some.inj read).symm, assignable, (free assignable).mp unheld⟩
  · rintro ⟨rfl, assignable, unheld⟩
    obtain ⟨lowest, highest⟩ := ClientId.isAssignable_iff.mp assignable
    exact ⟨Uuid.ofText?_eq_some_iff.mp (Uuid.ofText?_simple last.1), lowest, highest, fresh,
      (free assignable).mpr unheld⟩

/-- A last client of higher rank is kept or left out after all the others have been sifted, and
changes nothing about them. -/
theorem Sifted.concat (sifted : Sifted pairs kept) {last : Uuid × ClientId}
    (above : ∀ pair ∈ pairs, rank pair.1 < rank last.1) :
    ∃ kept, Sifted (pairs ++ [last]) kept := by
  have split : (pairs ++ [last]).map recordOf = pairs.map recordOf ++ [recordOf last] :=
    List.map_append
  by_cases free : last.2.isAssignable = true ∧ last.2 ∉ pairs.map Prod.snd
  · refine ⟨kept ++ [last], ?_, fun uuid id => ?_, fun id => ?_⟩
    · rw [split]
      exact sifted.keeps.keep ((sifted.keeps_iff above).mpr ⟨rfl, free⟩)
    · rw [foremost_concat_iff above, List.mem_append, sifted.mem_iff, List.mem_singleton]
      refine or_congr_right (iff_self_and.mpr ?_)
      rintro rfl
      exact free
    · rw [List.map_append, List.map_append, List.mem_append, List.mem_append, sifted.held_iff,
        and_or_left]
      refine or_congr_right (iff_and_self.mpr fun held => ?_)
      rw [List.mem_singleton.mp held]
      exact free.1
  · refine ⟨kept, ?_, fun uuid id => ?_, fun id => ?_⟩
    · rw [split]
      exact sifted.keeps.skip fun uuid keeps => free ((sifted.keeps_iff above).mp keeps).2
    · rw [foremost_concat_iff above, sifted.mem_iff]
      refine (or_iff_left ?_).symm
      rintro ⟨rfl, kept⟩
      exact free kept
    · rw [List.map_append, List.mem_append, sifted.held_iff, and_or_left]
      refine (or_iff_left_of_imp ?_).symm
      rintro ⟨assignable, held⟩
      obtain rfl : id = last.2 := List.mem_singleton.mp held
      exact ⟨assignable, by_contra fun unheld => free ⟨assignable, unheld⟩⟩

/-- Every list of records in ascending order can be sifted. -/
theorem exists_sifted (ascending : Ascending pairs) : ∃ kept, Sifted pairs kept := by
  induction pairs using List.reverseRecOn with
  | nil =>
      exact ⟨[], .none, fun _ _ => ⟨fun mem => (List.not_mem_nil mem).elim, Foremost.mem⟩, by simp⟩
  | append_singleton pairs last ih =>
      obtain ⟨front, -, above⟩ := List.pairwise_append.mp ascending
      obtain ⟨kept, sifted⟩ := ih front
      exact sifted.concat fun pair mem => above pair mem last List.mem_cons_self

/-- The clients that keep their numbers when a roster is written down and read. -/
theorem find?_ofContents :
    (ofContents (some r.contents)).find? uuid = some id ↔ Foremost r.pairs uuid id := by
  obtain ⟨kept, sifted⟩ := exists_sifted r.table.ascending
  rw [contents, ofContents_toByteArray, String.toList_ofList, ofText,
    records?_eq_some_iff.mpr (lists_text r), find?_eq_some_iff]
  exact sifted.keeps.perm.mem_iff.trans (sifted.mem_iff uuid id)

/-- A client of a roster is the first under its number if clients may have the number and no client
of lower rank has it. Rosters are written in the order of their identifiers, so this is the order in
which they are read. -/
theorem foremost_iff :
    Foremost r.pairs uuid id ↔
      r.find? uuid = some id ∧ (1 ≤ id.toNat ∧ id.toNat ≤ 0x1fe) ∧
        ∀ other, r.find? other = some id → rank uuid ≤ rank other := by
  simp only [find?_eq_some_iff, ← ClientId.isAssignable_iff]
  exact ⟨fun foremost => ⟨foremost.mem, foremost.assignable, foremost.least⟩,
    fun ⟨mem, assignable, least⟩ => ⟨mem, assignable, least⟩⟩

/-- Of a valid roster all clients are the foremost. -/
theorem Valid.foremost_iff (valid : r.Valid) :
    Foremost r.pairs uuid id ↔ r.find? uuid = some id := by
  rw [find?_eq_some_iff]
  refine ⟨Foremost.mem, fun mem => ⟨mem, valid.assignable _ mem, fun other mem' => ?_⟩⟩
  have known := find?_eq_some_iff.mpr mem
  exact Nat.le_of_eq (congrArg rank (valid.eq_of_find? known (find?_eq_some_iff.mpr mem')))

/-- Rosters in which every client is found alike are equal. -/
theorem eq_of_find? {s : Roster} (same : ∀ uuid, r.find? uuid = s.find? uuid) : r = s := by
  have nodup (r : Roster) : r.pairs.Nodup := List.Nodup.of_map Prod.fst r.table.nodup_keys
  refine eq_of_perm ((List.perm_ext_iff_of_nodup (nodup r) (nodup s)).mpr ?_)
  rintro ⟨uuid, id⟩
  rw [← find?_eq_some_iff, same, find?_eq_some_iff]

/-- A new client leaves the roster valid exactly if clients may have its number and no client has
it. Nobody checks this when the client is added. -/
theorem valid_enter_iff (fresh : r.find? uuid = none) :
    (r.enter uuid id).Valid ↔ r.Valid ∧ id.isAssignable = true ∧ r.holdsId id = false := by
  refine ⟨fun valid => ?_, fun ⟨valid, assignable, free⟩ => valid.enter fresh assignable free⟩
  have perm := perm_enter fresh id
  have distinct := ((perm.map Prod.snd).nodup_iff).mp valid.distinct
  obtain ⟨free, distinct⟩ := List.nodup_cons.mp distinct
  have assignable (pair) (mem : pair ∈ (uuid, id) :: r.pairs) : pair.2.isAssignable = true :=
    valid.assignable pair (perm.mem_iff.mpr mem)
  exact ⟨⟨fun pair mem => assignable pair (List.mem_cons_of_mem _ mem), distinct⟩,
    assignable _ List.mem_cons_self, holdsId_eq_false_iff.mpr free⟩

end Roster

namespace Keeper

variable {k : Keeper} {i : Insertion} {uuid : Uuid} {id : ClientId}

/-! ### Adding a client -/

/-- The keeper with the client in its roster and in its file. -/
def entered (k : Keeper) (i : Insertion) : Keeper :=
  let roster := k.roster.enter i.uuid i.id
  { k with roster, disk := k.disk.write k.path roster.contents }

/-- What adding a client can come to: it is new and is written down, it has a number already, or it
is new and cannot be written down. -/
inductive Adds (k : Keeper) (i : Insertion) : Except HostError Keeper → Prop
  | added :
      k.roster.find? i.uuid = none → k.isWritable = true → i.broken = false →
      Adds k i (.ok (k.entered i))
  | known {id : ClientId} :
      k.roster.find? i.uuid = some id → Adds k i (.error (.uuidConflict i.uuid id))
  | unwritten :
      k.roster.find? i.uuid = none → ¬ (k.isWritable = true ∧ i.broken = false) →
      Adds k i (.error (.notPersisted k.path))

/-- An insertion adds the entry or refuses it, for a reason that is known. -/
theorem adds (k : Keeper) (i : Insertion) : k.Adds i (k.insert i) := by
  unfold insert Roster.insert
  split
  · next id found => exact .known found
  · next fresh =>
    by_cases works : k.isWritable = true ∧ i.broken = false
    · rw [works.1, works.2]
      exact .added fresh works.1 works.2
    · have refused : (k.isWritable && !i.broken) = false := by simpa using works
      rw [refused]
      exact .unwritten fresh works

/-- A client that is added is in the roster afterwards. -/
theorem after_eq_of_ok {l : Keeper} (added : k.insert i = .ok l) : k.after i = l := by
  rw [after, added]

/-- A failure changes nothing. -/
theorem after_eq_of_error {error : HostError} (refused : k.insert i = .error error) :
    k.after i = k := by
  rw [after, refused]

/-- Afterwards all is as before, or a client that was new is in the roster and in the file. -/
theorem after_cases {P : Keeper → Prop} (same : P k)
    (added : k.roster.find? i.uuid = none → k.isWritable = true → P (k.entered i)) :
    P (k.after i) := by
  have adds := k.adds i
  generalize result : k.insert i = outcome at adds
  cases adds with
  | added fresh writable =>
      rw [after_eq_of_ok result]
      exact added fresh writable
  | known | unwritten => rwa [after_eq_of_error result]

/-- The client is found under its number, and the others are found as before. -/
theorem find?_entered (k : Keeper) (i : Insertion) (uuid : Uuid) :
    (k.entered i).roster.find? uuid = if i.uuid = uuid then some i.id else k.roster.find? uuid :=
  Roster.find?_enter k.roster i.uuid uuid i.id

/-- A client that is known keeps its number when another one is added. -/
theorem find?_after (known : k.roster.find? uuid = some id) (i : Insertion) :
    (k.after i).roster.find? uuid = some id := by
  refine after_cases (P := fun l => l.roster.find? uuid = some id) known fun fresh _ => ?_
  have apart : i.uuid ≠ uuid := by
    intro same
    rw [same, known] at fresh
    cases fresh
  rw [find?_entered, if_neg apart, known]

/-- Nor does it by any number of them. -/
theorem find?_run (known : k.roster.find? uuid = some id) (later : List Insertion) :
    (k.run later).roster.find? uuid = some id := by
  induction later generalizing k with
  | nil => exact known
  | cons i rest ih => exact ih (find?_after known i)

theorem run_append (k : Keeper) (past later : List Insertion) :
    k.run (past ++ later) = (k.run past).run later :=
  List.foldl_append

/-- The last client is added to the roster that the earlier ones have left. -/
theorem run_concat (k : Keeper) (past : List Insertion) (i : Insertion) :
    k.run (past ++ [i]) = (k.run past).after i :=
  run_append k past [i]

/-- A keeper stays with its file. -/
theorem path_run (k : Keeper) (insertions : List Insertion) : (k.run insertions).path = k.path := by
  induction insertions generalizing k with
  | nil => rfl
  | cons i rest ih =>
      exact (ih (k.after i)).trans (after_cases (P := fun l => l.path = k.path) rfl fun _ _ => rfl)

/-! ### The file of a keeper -/

/-- The file reads back as far as the roster has clients that are the foremost. -/
def Kept (k : Keeper) : Prop :=
  ∀ uuid id, k.reloaded.roster.find? uuid = some id ↔ Roster.Foremost k.roster.pairs uuid id

/-- What has just been read from a file is valid, so all of it would be read again. -/
theorem Kept.load (disk : Disk) (path : String) : (load disk path).Kept :=
  fun _ _ => (Roster.valid_ofContents _).foremost_iff.symm

/-- A client that is added has been written down, so the file has the roster with it. This is where
a client of the roster may be lost: one of higher rank that has the same number. -/
theorem Kept.entered (writable : k.isWritable = true) (i : Insertion) : (k.entered i).Kept := by
  have written := Disk.read?_write (Disk.isWritable_of_isReplaceable writable)
    (k.roster.enter i.uuid i.id).contents
  have read : (k.entered i).reloaded.roster = .ofContents (some (k.entered i).roster.contents) :=
    congrArg Roster.ofContents written
  intro uuid id
  rw [read]
  exact Roster.find?_ofContents

/-- The file is left alone when a client is refused. -/
theorem Kept.after (kept : k.Kept) (i : Insertion) : (k.after i).Kept :=
  after_cases kept fun _ writable => .entered writable i

/-- So a file has the foremost clients of the roster after every run. -/
theorem Kept.run (kept : k.Kept) (insertions : List Insertion) : (k.run insertions).Kept := by
  induction insertions generalizing k with
  | nil => exact kept
  | cons i rest ih => exact ih (kept.after i)

/-- The file reads back whole if and only if the roster is valid. -/
theorem Kept.reloaded_eq_iff (kept : k.Kept) : k.reloaded = k ↔ k.roster.Valid := by
  constructor
  · intro same
    rw [← same]
    exact Roster.valid_ofContents _
  · intro valid
    have same (uuid) : k.reloaded.roster.find? uuid = k.roster.find? uuid :=
      Option.ext fun id => (kept uuid id).trans valid.foremost_iff
    have rosters : k.reloaded.roster = k.roster := Roster.eq_of_find? same
    exact congrArg (fun r => { k with roster := r }) rosters

/-! ### Clients that fit -/

/-- The number is one that clients may have, and no client of the roster has it. -/
def Fits (k : Keeper) (id : ClientId) : Prop :=
  (1 ≤ id.toNat ∧ id.toNat ≤ 0x1fe) ∧ ∀ other, k.roster.find? other ≠ some id

/-- Whenever a client was added, it fitted. -/
def AllFit (k : Keeper) (insertions : List Insertion) : Prop :=
  ∀ front i, front ++ [i] <+: insertions →
    ∀ l, (k.run front).insert i = .ok l → (k.run front).Fits i.id

/-- A number fits if clients may have it and nobody does. -/
theorem fits_iff : k.Fits id ↔ id.isAssignable = true ∧ k.roster.holdsId id = false := by
  rw [Fits, ClientId.isAssignable_iff, Roster.holdsId_eq_false_iff]
  simp [Roster.find?_eq_some_iff]

/-- A roster is valid afterwards if it was valid before and the number fitted, in case that the
client was added. -/
theorem valid_after_iff :
    (k.after i).roster.Valid ↔ k.roster.Valid ∧ ∀ l, k.insert i = .ok l → k.Fits i.id := by
  have adds := k.adds i
  generalize result : k.insert i = outcome at adds
  cases adds with
  | added fresh =>
      rw [after_eq_of_ok result, entered, Roster.valid_enter_iff fresh, ← fits_iff]
      simp
  | known | unwritten =>
      rw [after_eq_of_error result]
      simp

/-- The roster stays valid exactly if each number fitted at the moment when its client was added.
The converse holds since no client leaves the roster again. -/
theorem valid_run_iff (valid : k.roster.Valid) (insertions : List Insertion) :
    (k.run insertions).roster.Valid ↔ k.AllFit insertions := by
  induction insertions using List.reverseRecOn with
  | nil => simpa [AllFit, run] using valid
  | append_singleton front i ih =>
      rw [run_concat, valid_after_iff, ih]
      simp only [AllFit, List.prefix_concat_iff]
      constructor
      · rintro ⟨fits, last⟩ front' i' (same | before)
        · obtain ⟨rfl, rfl⟩ := List.append_singleton_inj.mp same
          exact last
        · exact fits front' i' before
      · exact fun fits =>
          ⟨fun front' i' before => fits front' i' (.inr before), fits front i (.inl rfl)⟩

end Keeper

/-- Whatever a file holds and whichever clients are added, opening the file again finds exactly the
clients whose number clients may have and that come first among those of the roster with this
number. That is the whole roster if and only if every client that was added fitted: its number was
one that clients may have, and no client had it. A client that was added stays in the roster under
its number. A failure leaves all as it was: the client has a number already, or it could not be
written and is neither in the roster nor in the file.

Adding looks at the identifier alone, and reading looks at the number as well. The two agree as long
as numbers come from `Switchboard.allocate`, which gives out free ones only. -/
theorem additions_last (disk : Disk) (path : String) :
    let k := (Keeper.load disk path).run
    (∀ past uuid id, (k past).reloaded.roster.find? uuid = some id ↔
      (k past).roster.find? uuid = some id ∧ (1 ≤ id.toNat ∧ id.toNat ≤ 0x1fe) ∧
        ∀ other, (k past).roster.find? other = some id → uuid.bits.toNat ≤ other.bits.toNat) ∧
      (∀ past, (k past).reloaded = k past ↔ ∀ front i, front ++ [i] <+: past →
        ∀ l, (k front).insert i = .ok l → (1 ≤ i.id.toNat ∧ i.id.toNat ≤ 0x1fe) ∧
          ∀ other, (k front).roster.find? other ≠ some i.id) ∧
      ∀ past i,
        (∀ l, (k past).insert i = .ok l →
          l = k (past ++ [i]) ∧ (k past).roster.find? i.uuid = none ∧
            l.roster.pairs.Perm ((i.uuid, i.id) :: (k past).roster.pairs) ∧
            ∀ later, (k (past ++ i :: later)).roster.find? i.uuid = some i.id) ∧
          ∀ e, (k past).insert i = .error e →
            k (past ++ [i]) = k past ∧
              ((∃ id, e = .uuidConflict i.uuid id ∧ (k past).roster.find? i.uuid = some id) ∨
                e = .notPersisted path ∧ ¬ ((k past).isWritable = true ∧ i.broken = false) ∧
                  (k past).roster.find? i.uuid = none ∧
                  (k past).reloaded.roster.find? i.uuid = none) := by
  intro k
  have loaded : (Keeper.load disk path).roster.Valid := Roster.valid_ofContents _
  have kept (past) : (k past).Kept := (Keeper.Kept.load disk path).run past
  refine ⟨fun past uuid id => ?_, fun past => ?_,
    fun past i => ⟨fun l added => ?_, fun e refused => ?_⟩⟩
  · exact (kept past uuid id).trans Roster.foremost_iff
  · exact (kept past).reloaded_eq_iff.trans (Keeper.valid_run_iff loaded past)
  · have adds := (k past).adds i
    rw [added] at adds
    have same : (k past).after i = l := Keeper.after_eq_of_ok added
    cases adds with
    | added fresh =>
        refine ⟨?_, fresh, Roster.perm_enter fresh i.id, fun later => ?_⟩
        · rw [← same]
          exact (Keeper.run_concat _ past i).symm
        · have moved : k (past ++ i :: later) = ((k past).after i).run later :=
            Keeper.run_append _ past (i :: later)
          rw [moved, same]
          exact Keeper.find?_run ((Keeper.find?_entered _ _ _).trans (if_pos rfl)) later
  · have adds := (k past).adds i
    rw [refused] at adds
    refine ⟨(Keeper.run_concat _ past i).trans (Keeper.after_eq_of_error refused), ?_⟩
    cases adds with
    | known found => exact .inl ⟨_, rfl, found⟩
    | unwritten fresh broken =>
        refine .inr ⟨congrArg _ (Keeper.path_run _ past), broken, fresh, ?_⟩
        -- The file has nothing that the roster has not, and the client is not in the roster.
        rw [Option.eq_none_iff_forall_ne_some]
        intro id found
        have known := Roster.find?_eq_some_iff.mpr ((kept past i.uuid id).mp found).mem
        rw [fresh] at known
        cases known

/-- A client is added, which fits. Another one cannot be written, and is added at last under the
number of the first. -/
theorem additions_last_retrying :
    let k := (Keeper.load {} "clients.json").run
    let first : Insertion := ⟨.ofNat 1, 2, false⟩
    let failing : Insertion := ⟨.ofNat 2, 2, true⟩
    let second : Insertion := ⟨.ofNat 2, 2, false⟩
    (k [first]).reloaded = k [first] ∧ k [first, failing] = k [first] ∧
      (k [first]).reloaded.roster.find? (.ofNat 2) = none ∧
      (∀ later, (k ([first, failing] ++ second :: later)).roster.find? (.ofNat 2) = some 2) ∧
      (k [first, failing, second]).reloaded ≠ k [first, failing, second] := by
  intro k first failing second
  obtain ⟨-, whole, calls⟩ := additions_last {} "clients.json"
  have fresh : (k [first]).roster.find? failing.uuid = none := by decide +kernel
  have refused : (k [first]).insert failing = .error (.notPersisted (k [first]).path) := by
    rw [Keeper.insert, Roster.insert, fresh, Bool.not_true, Bool.and_false]
    rfl
  obtain ⟨same, unwritten⟩ := (calls [first] failing).2 _ refused
  obtain ⟨id, conflict, -⟩ | ⟨-, -, -, absent⟩ := unwritten
  · cases conflict
  obtain ⟨l, added⟩ : ∃ l, (k [first, failing]).insert second = .ok l := by
    have accepted : ((k [first, failing]).insert second).isOk = true := by decide +kernel
    cases result : (k [first, failing]).insert second with
    | ok l => exact ⟨l, rfl⟩
    | error => rw [result] at accepted; cases accepted
  obtain ⟨-, -, -, lasting⟩ := (calls [first, failing] second).1 _ added
  refine ⟨(whole [first]).mpr fun front i before l _ => ?_, same, absent, lasting, fun same => ?_⟩
  · have split : [first] = [] ++ [first] := rfl
    rw [split, List.prefix_concat_iff] at before
    rcases before with same | before
    · obtain ⟨rfl, rfl⟩ := List.append_singleton_inj.mp same
      exact ⟨⟨by decide, by decide⟩, nofun⟩
    · simp at before
  · have known : (k [first, failing]).roster.find? (.ofNat 1) = some 2 := by decide +kernel
    exact ((whole _).mp same [first, failing] second (List.prefix_refl _) _ added).2 _ known

/-- Two clients are added under one number. The first is in the file until the second, which has the
lower identifier, is added; then it is in the roster only. -/
theorem twins_lose_numbers :
    let k := (Keeper.load {} "clients.json").run
    let first : Insertion := ⟨.ofNat 2, 5, false⟩
    let second : Insertion := ⟨.ofNat 1, 5, false⟩
    ((k []).insert first).isOk = true ∧ ((k [first]).insert second).isOk = true ∧
      (k [first]).reloaded.roster.find? (.ofNat 2) = some 5 ∧
      (k [first, second]).roster.find? (.ofNat 2) = some 5 ∧
      (k [first, second]).reloaded.roster.find? (.ofNat 2) = none := by
  intro k first second
  have kept (past) : (k past).Kept := (Keeper.Kept.load {} "clients.json").run past
  have alone : (k [first]).roster.pairs = [(.ofNat 2, 5)] := by decide +kernel
  have both : (k [first, second]).roster.pairs = [(.ofNat 1, 5), (.ofNat 2, 5)] := by decide +kernel
  refine ⟨by decide +kernel, by decide +kernel, ?_, by decide +kernel, ?_⟩
  · rw [kept, alone]
    refine ⟨List.mem_cons_self, by decide, fun other mem => ?_⟩
    obtain ⟨same, -⟩ := Prod.mk.inj (List.mem_singleton.mp mem)
    exact Nat.le_of_eq (congrArg rank same.symm)
  · rw [Option.eq_none_iff_forall_ne_some]
    intro id found
    have foremost := (kept _ _ _).mp found
    rw [both] at foremost
    obtain ⟨mem, -, least⟩ := foremost
    have number : ∀ pair ∈ [(Uuid.ofNat 1, (5 : ClientId)), (.ofNat 2, 5)], pair.2 = 5 := by decide
    obtain rfl : id = 5 := number _ mem
    exact absurd (least (.ofNat 1) List.mem_cons_self) (by decide)

end HubRelay
