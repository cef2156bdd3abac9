import HubRelay.Proofs.Roster.RoundTrip
import HubRelay.Proofs.Switchboard.Clients

/-!
Clients keep their numbers for good.

The invariant of an office is that its file reads back as its roster: a number is given out only
when it has been written down, and a valid roster that is written down reads back. So opening an
office again changes nothing that the roster says, and since no operation takes a number away, what
was given out once stays given out.

A station with its disk is such an office: what it writes is there whole, or the disk is as before.
-/

namespace HubRelay

namespace Switchboard

variable {s t : Switchboard} {pid : Pid} {callback : Callback} {uuid : Uuid} {id : ClientId}
  {around : Surroundings}

/-! ### Numbers stay -/

theorem Change.find?_eq (change : s.Change t) (known : s.roster.find? uuid = some id) :
    t.roster.find? uuid = some id := by
  cases change with
  | edited edit => rw [edit.roster_eq, known]
  | returned => exact known
  | @entered pid callback other id' fresh allocated =>
      have apart : other ≠ uuid := by
        rintro rfl
        rw [fresh] at known
        cases known
      show (s.roster.enter other id').find? uuid = some id
      rw [Roster.find?_enter, if_neg apart, known]

theorem find?_run (known : s.roster.find? uuid = some id) (operations : List HostOperation) :
    (s.run operations).roster.find? uuid = some id :=
  run_induction (P := fun t => t.roster.find? uuid = some id) known
    (fun known change => change.find?_eq known) operations

/-- A client that registered has the number that it was told. -/
theorem find?_of_register (given : (s.register pid callback uuid around).1 = .ok id) :
    (s.register pid callback uuid around).2.1.roster.find? uuid = some id := by
  generalize result : s.register pid callback uuid around = outcome at given
  have registered := s.registers pid callback uuid around
  rw [result] at registered
  cases registered with
  | refused => cases given
  | returned known =>
      obtain rfl := Except.ok.inj given
      exact known
  | @entered id' calls fresh =>
      obtain rfl := Except.ok.inj given
      show (s.roster.enter uuid id').find? uuid = some id'
      rw [Roster.find?_enter, if_pos rfl]

end Switchboard

/-! ### The file of an office -/

namespace Office

variable {o : Office} {uuid : Uuid} {id : ClientId}

/-- The file reads back as the roster, which is valid. An office writes the roster before it hands
out a new number, and changes nothing when it cannot write; this is why the file is never behind. -/
structure Kept (o : Office) : Prop where
  valid : o.board.roster.Valid
  loaded : Roster.ofContents o.file = o.board.roster

theorem board_after (o : Office) (operation : HostOperation) :
    (o.after (.operation operation)).board = o.board.after operation := by
  cases operation <;> rfl

theorem kept_ofFile (settings : HostSettings) (file : Option ByteArray) :
    (ofFile settings file).Kept :=
  ⟨Roster.valid_ofContents file, rfl⟩

theorem Kept.register (kept : o.Kept) (pid : Pid) (callback : Callback) (uuid : Uuid)
    (around : Surroundings) :
    (o.after (.operation (.register pid callback uuid around))).Kept := by
  simp only [after]
  generalize result : o.board.register pid callback uuid around = outcome
  have registered := o.board.registers pid callback uuid around
  rw [result] at registered
  cases registered with
  | refused => exact kept
  | returned => exact ⟨kept.valid, kept.loaded⟩
  | entered fresh allocated =>
      obtain ⟨assignable, free⟩ := Switchboard.isAssignable_of_allocate allocated
      have valid := kept.valid.enter fresh assignable free
      exact ⟨valid, Roster.ofContents_contents valid⟩

theorem Kept.after (kept : o.Kept) (event : OfficeEvent) : (o.after event).Kept := by
  unfold Office.after
  split
  · exact kept.register _ _ _ _
  · next operation other =>
    have same := (o.board.edit_after other).roster_eq
    exact ⟨same ▸ kept.valid, same ▸ kept.loaded⟩
  · exact kept_ofFile _ _

theorem Kept.run (kept : o.Kept) (events : List OfficeEvent) : (o.run events).Kept := by
  induction events generalizing o with
  | nil => exact kept
  | cons event rest ih => exact ih (kept.after event)

theorem Kept.find?_after (kept : o.Kept) (known : o.board.roster.find? uuid = some id)
    (event : OfficeEvent) : (o.after event).board.roster.find? uuid = some id := by
  cases event with
  | operation operation =>
      rw [board_after]
      exact (o.board.change_after operation).find?_eq known
  | reopen settings =>
      show (Roster.ofContents o.file).find? uuid = some id
      rw [kept.loaded, known]

theorem Kept.find?_run (kept : o.Kept) (known : o.board.roster.find? uuid = some id)
    (events : List OfficeEvent) : (o.run events).board.roster.find? uuid = some id := by
  induction events generalizing o with
  | nil => exact known
  | cons event rest ih => exact ih (kept.after event) (kept.find?_after known event)

end Office

/-! ### Stations are offices -/

namespace Station

/-- The switchboard of a station and the contents of its roster's file. -/
def office (s : Station) : Office :=
  { board := s.board, file := s.disk.read? s.board.settings.path }

theorem office_reopen (s : Station) : s.reopen.office = s.office.after (.reopen s.board.settings) :=
  rfl

theorem office_register (s : Station) (pid : Pid) (callback : Callback) (uuid : Uuid)
    (linkable : Bool) :
    (s.register pid callback uuid linkable).2.1.office = s.office.after (.operation
      (.register pid callback uuid ⟨linkable, s.disk.isReplaceable s.board.settings.path⟩)) := by
  simp only [register, office, Office.after, follow]
  generalize result : s.board.register pid callback uuid _ = outcome
  have registered := s.board.registers pid callback uuid
    ⟨linkable, s.disk.isReplaceable s.board.settings.path⟩
  rw [result] at registered
  cases registered with
  | refused => rfl
  | returned => rfl
  | entered fresh allocated replaceable =>
      have read := Disk.read?_write (Disk.isWritable_of_isReplaceable replaceable)
      exact congrArg (Office.mk _) (read _)

theorem office_death (s : Station) (pid : Pid) :
    (s.death pid).1.office = s.office.after (.operation (.death pid)) := by
  have settings : (s.board.death pid).1.settings = s.board.settings :=
    (Switchboard.Change.edited (s.board.edit_death pid)).settings_eq
  show Office.mk _ (s.disk.read? (s.board.death pid).1.settings.path) = _
  rw [settings]
  rfl

end Station

/-- At every moment the file of an office reads back as its roster. Once a client has been told its
number, the roster has it under that number and nobody else, through everything that happens and
every time that the office is opened again: whoever is told that number is that client, and that
client is told no other.

The office may be opened again under other settings, with less room or another identifier for the
system's own client. Neither takes a number away. -/
theorem identities_last (settings : HostSettings) (file : Option ByteArray) :
    let office := (Office.ofFile settings file).run
    (∀ events, Roster.ofContents (office events).file = (office events).board.roster) ∧
      ∀ past pid callback uuid around id,
        ((office past).board.register pid callback uuid around).1 = .ok id →
        ∀ later, let o := office (past ++ .operation (.register pid callback uuid around) :: later)
          o.board.roster.find? uuid = some id ∧
            (∀ other, o.board.roster.find? other = some id → other = uuid) ∧
            ∀ pid' callback' other around' id',
              (o.board.register pid' callback' other around').1 = .ok id' →
                (id' = id ↔ other = uuid) := by
  intro office
  have kept (events) : (office events).Kept := (Office.kept_ofFile settings file).run events
  refine ⟨fun events => (kept events).loaded, ?_⟩
  intro past pid callback uuid around id given later o
  have known : o.board.roster.find? uuid = some id := by
    have registered := Switchboard.find?_of_register given
    have moved : o = ((office past).after
        (.operation (.register pid callback uuid around))).run later := Office.run_append _ past _
    rw [moved]
    refine ((kept past).after _).find?_run ?_ later
    rw [Office.board_after]
    exact registered
  refine ⟨known, fun other same => (kept _).valid.eq_of_find? same known, ?_⟩
  intro pid' callback' other around' id' given'
  -- Both numbers are compared in the roster after the second registration.
  have known' := (o.board.change_register pid' callback' other around').find?_eq known
  have registered := Switchboard.find?_of_register given'
  constructor
  · rintro rfl
    exact ((kept _).register pid' callback' other around').valid.eq_of_find? registered known'
  · rintro rfl
    exact Option.some.inj (registered.symm.trans known')

/-- A client is told its number; the next one cannot be written down. The office is opened again for
one client only, which is also the system's now. -/
theorem identities_last_reopening :
    let registered : OfficeEvent := .operation (.register 7 ⟨0⟩ (.ofNat 1) ⟨true, true⟩)
    let refused : OfficeEvent := .operation (.register 8 ⟨1⟩ (.ofNat 2) ⟨true, false⟩)
    let opened : OfficeEvent := .reopen { systemUuid := .ofNat 1, maxClients := 1 }
    let o := (Office.ofFile {} none).run [registered, refused, opened]
    o.board.roster.find? (.ofNat 1) = some 2 ∧
      ∀ pid callback uuid around, (o.board.register pid callback uuid around).1 = .ok 2 →
        uuid = .ofNat 1 := by
  intro registered refused opened o
  obtain ⟨-, lasting⟩ := identities_last {} none
  obtain ⟨known, -, told⟩ :=
    lasting [] 7 ⟨0⟩ (.ofNat 1) ⟨true, true⟩ 2 (by decide +kernel) [refused, opened]
  exact ⟨known, fun pid callback uuid around given =>
    (told pid callback uuid around 2 given).mp rfl⟩

end HubRelay
