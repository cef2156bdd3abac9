import HubRelay.Link.Event
import Mathlib.Data.List.Basic
import Mathlib.Data.List.Count
import Mathlib.Data.List.Induction
import Mathlib.Data.List.Infix

/-!
What a link between two ends tells its listeners about itself.

Either end may take the link down, bring it up or reset it, and listeners come and go at both. A
change of the link is told as it is: a link-up is told by a link that is up, and whoever listens all
the time was told last how the link stands. A reset is told without a look at the link, as a loss
and a link-up, whatever the link is. So the two hold exactly as long as no reset finds the link
down. Frames come from the other end of a link that is up, in every run.
-/

namespace HubRelay

/-- What the two ends of a link can do. -/
inductive LinkOperation (η : Type) where
  | attach (side : Side) (listener : η)
  | detach (side : Side)
  | send (side : Side) (frame : Bytes)
  | setUp (side : Side) (up : Bool)
  | reset (side : Side)
  deriving DecidableEq

/-- Whether a report is about the link and not a frame that came over it. -/
def LinkEvent.isOfLink : LinkEvent → Bool
  | .frame _ => false
  | .reset | .established => true

/-- The report that the link is up, or that it is not. -/
def LinkEvent.ofState (up : Bool) : LinkEvent := if up then .established else .reset

namespace JoinedLink

variable {η : Type}

/-- The link after an operation, and who is told what. The link changes before anyone is told, so it
stands like this while they are. -/
def perform (link : JoinedLink η) : LinkOperation η → JoinedLink η × List (η × LinkEvent)
  | .attach side listener => (link.setListener side (some listener), [])
  | .detach side => (link.setListener side none, [])
  | .send side frame => (link, (link.receiver? side).toList.map (·, .frame frame))
  | .setUp _ up => link.setUp up
  | .reset _ => (link, link.resetEvents)

def after (link : JoinedLink η) (operation : LinkOperation η) : JoinedLink η :=
  (link.perform operation).1

/-- Who is told what by an operation, in this order. -/
def told (link : JoinedLink η) (operation : LinkOperation η) : List (η × LinkEvent) :=
  (link.perform operation).2

def run (link : JoinedLink η) (operations : List (LinkOperation η)) : JoinedLink η :=
  operations.foldl after link

/-- Who is told what in a run, in this order. -/
def toldIn (link : JoinedLink η) : List (LinkOperation η) → List (η × LinkEvent)
  | [] => []
  | operation :: rest => link.told operation ++ (link.after operation).toldIn rest

/-- What a listener is told about the link. -/
def heard [DecidableEq η] (listener : η) (told : List (η × LinkEvent)) : List LinkEvent :=
  (told.filter fun report => report.1 = listener && report.2.isOfLink).map Prod.snd

/-! ### What is to hold of a run -/

/-- Who is told that the link is up is told so by a link that is up, and that stays up until it is
taken down. -/
def EstablishesWhenUp (link : JoinedLink η) (operations : List (LinkOperation η)) : Prop :=
  ∀ past operation between later, operations = past ++ operation :: (between ++ later) →
    ∀ listener, (listener, .established) ∈ (link.run past).told operation →
      (∀ side, .setUp side false ∉ between) →
        (link.run (past ++ operation :: between)).up = true

/-- The listener stands at the end all through a run. -/
def Attends (link : JoinedLink η) (side : Side) (listener : η)
    (operations : List (LinkOperation η)) : Prop :=
  ∀ part, part <+: operations → (link.run part).listener side = some listener

instance [DecidableEq η] (link : JoinedLink η) (side : Side) (listener : η)
    (operations : List (LinkOperation η)) : Decidable (link.Attends side listener operations) :=
  decidable_of_iff
    (∀ part ∈ operations.inits, (link.run part).listener side = some listener)
    (by simp only [Attends, List.mem_inits])

/-- Whenever the listener has been told anything about the link, it was told last that the link is
up exactly if it is. A listener that has just come has been told nothing yet. -/
def Informs [DecidableEq η] (link : JoinedLink η) (listener : η)
    (operations : List (LinkOperation η)) : Prop :=
  ∀ part, part <+: operations → heard listener (link.toldIn part) ≠ [] →
    ((heard listener (link.toldIn part)).getLast? = some .established ↔
      (link.run part).up = true)

/-- Whenever a reset is told to anyone, it finds the link up. A reset that nobody listens to does no
harm. -/
def ResetsFindUp (link : JoinedLink η) (operations : List (LinkOperation η)) : Prop :=
  ∀ past side later, operations = past ++ .reset side :: later →
    (link.run past).listeners ≠ [] → (link.run past).up = true

variable {link : JoinedLink η} {operation : LinkOperation η}
  {operations between : List (LinkOperation η)} {side : Side} {listener : η} {event : LinkEvent}

/-! ### Runs and their parts -/

theorem run_append (link : JoinedLink η) (front back : List (LinkOperation η)) :
    link.run (front ++ back) = (link.run front).run back :=
  List.foldl_append

theorem toldIn_append (link : JoinedLink η) (front back : List (LinkOperation η)) :
    link.toldIn (front ++ back) = link.toldIn front ++ (link.run front).toldIn back := by
  induction front generalizing link with
  | nil => rfl
  | cons operation rest ih =>
      rw [List.cons_append, toldIn, toldIn, ih, List.append_assoc]
      rfl

theorem run_concat (link : JoinedLink η) (part : List (LinkOperation η))
    (operation : LinkOperation η) :
    link.run (part ++ [operation]) = (link.run part).after operation :=
  run_append link part [operation]

theorem toldIn_concat (link : JoinedLink η) (part : List (LinkOperation η))
    (operation : LinkOperation η) :
    link.toldIn (part ++ [operation]) = link.toldIn part ++ (link.run part).told operation := by
  rw [toldIn_append, toldIn, toldIn, List.append_nil]

theorem Attends.mem_listeners (attends : link.Attends side listener operations)
    {part : List (LinkOperation η)} (prefix_of : part <+: operations) :
    listener ∈ (link.run part).listeners := by
  have stands := attends part prefix_of
  cases side with
  | left => exact List.mem_append_left _ (Option.mem_toList.mpr stands)
  | right => exact List.mem_append_right _ (Option.mem_toList.mpr stands)

/-! ### The state of the link -/

/-- Only taking it down makes a link that is up one that is not. -/
theorem up_after (up : link.up = true) (keeps : ∀ side, operation ≠ .setUp side false) :
    (link.after operation).up = true := by
  cases operation with
  | attach side listener => cases side <;> exact up
  | detach side => cases side <;> exact up
  | send | reset => exact up
  | setUp side state =>
      cases state with
      | false => exact absurd rfl (keeps side)
      | true => simp [after, perform, setUp, up]

theorem up_run (up : link.up = true) (keeps : ∀ side, .setUp side false ∉ operations) :
    (link.run operations).up = true := by
  induction operations generalizing link with
  | nil => exact up
  | cons operation rest ih =>
      refine ih (up_after up fun side same => keeps side ?_) fun side mem => keeps side ?_
      · exact same ▸ List.mem_cons_self
      · exact List.mem_cons_of_mem _ mem

/-- A link-up is told by a change of the link or by a reset. -/
theorem cases_of_established (told : (listener, .established) ∈ link.told operation) :
    (link.after operation).up = true ∨
      ∃ side, operation = .reset side ∧ link.listeners ≠ [] ∧ (link.after operation) = link := by
  cases operation with
  | attach | detach => cases told
  | send side frame => simp [JoinedLink.told, perform] at told
  | setUp side up =>
      left
      simp only [JoinedLink.told, after, perform, setUp] at told ⊢
      split at told
      · cases told
      · obtain ⟨_, -, same⟩ := List.mem_map.mp told
        cases up with
        | true => simp_all
        | false => simp at same
  | reset side =>
      refine .inr ⟨side, rfl, ?_, rfl⟩
      intro nobody
      simp [JoinedLink.told, perform, resetEvents, nobody] at told

theorem establishesWhenUp_iff :
    link.EstablishesWhenUp operations ↔ link.ResetsFindUp operations := by
  constructor
  · rintro establishes past side later rfl someone
    obtain ⟨listener, stands⟩ := List.exists_mem_of_ne_nil _ someone
    have told : (listener, .established) ∈ (link.run past).told (.reset side) :=
      List.mem_append_right _ (List.mem_map_of_mem stands)
    have up := establishes past _ [] later rfl listener told (by simp)
    rwa [run_concat] at up
  · rintro finds past operation between later rfl listener told keeps
    rw [List.append_cons, run_append, run_concat]
    refine up_run ?_ keeps
    rcases cases_of_established told with up | ⟨side, rfl, someone, same⟩
    · exact up
    · rw [same]
      exact finds past side _ rfl someone

/-! ### What a listener hears -/

section Heard

variable [DecidableEq η]

theorem heard_append (listener : η) (first second : List (η × LinkEvent)) :
    heard listener (first ++ second) = heard listener first ++ heard listener second := by
  simp [heard]

/-- Told to everyone, a report is heard once for every end that the listener stands at. -/
theorem heard_map (of_link : event.isOfLink = true) (listeners : List η) :
    heard listener (listeners.map (·, event)) =
      List.replicate (listeners.count listener) event := by
  induction listeners with
  | nil => rfl
  | cons head rest ih =>
      by_cases own : head = listener
      · simp_all [heard, List.replicate_succ]
      · simp_all [heard]

theorem getLast?_heard_map (of_link : event.isOfLink = true)
    (stands : listener ∈ link.listeners) :
    (heard listener (link.listeners.map (·, event))).getLast? = some event := by
  rw [heard_map of_link, List.getLast?_replicate, if_neg]
  exact Nat.pos_iff_ne_zero.mp (List.count_pos_iff.mpr stands)

theorem getLast?_heard_reset (stands : listener ∈ link.listeners) (side : Side) :
    (heard listener (link.told (.reset side))).getLast? = some .established := by
  have last : (heard listener (link.listeners.map (·, LinkEvent.established))).getLast? =
      some .established := getLast?_heard_map rfl stands
  rw [told, perform, resetEvents, heard_append, List.getLast?_append, last]
  rfl

/-- What an operation tells a listener about the link: nothing, while the link stays as it is, or at
last how it stands, unless it is a reset. -/
theorem heard_told (stands : listener ∈ link.listeners) (operation : LinkOperation η) :
    heard listener (link.told operation) = [] ∧ (link.after operation).up = link.up ∨
      (heard listener (link.told operation)).getLast? =
        some (.ofState (link.after operation).up) ∨
      ∃ side, operation = .reset side := by
  cases operation with
  | attach side | detach side => cases side <;> exact .inl ⟨rfl, rfl⟩
  | send side frame =>
      refine .inl ⟨?_, rfl⟩
      simp [heard, told, perform, LinkEvent.isOfLink]
  | setUp side up =>
      simp only [told, after, perform, setUp]
      split
      · exact .inl ⟨rfl, rfl⟩
      · have of_link : (LinkEvent.ofState up).isOfLink = true := by cases up <;> rfl
        exact .inr (.inl (getLast?_heard_map of_link stands))
  | reset side => exact .inr (.inr ⟨side, rfl⟩)

/-- While resets find the link up, a listener that was told anything was told last how it stands. -/
theorem getLast?_heard (attends : link.Attends side listener operations)
    (finds : link.ResetsFindUp operations) :
    heard listener (link.toldIn operations) = [] ∨
      (heard listener (link.toldIn operations)).getLast? =
        some (.ofState (link.run operations).up) := by
  induction operations using List.reverseRecOn with
  | nil => exact .inl rfl
  | append_singleton part operation ih =>
      have known := ih
        (fun early prefix_of => attends early (prefix_of.trans (List.prefix_append _ _)))
        fun past side later split => finds past side (later ++ [operation]) (by simp [split])
      have stands := attends.mem_listeners (List.prefix_append part [operation])
      rw [toldIn_concat, run_concat, heard_append]
      rcases heard_told stands operation with ⟨quiet, same⟩ | last | ⟨side, rfl⟩
      · rwa [quiet, List.append_nil, same]
      · exact .inr (by rw [List.getLast?_append, last]; rfl)
      · have up := finds part side [] rfl (List.ne_nil_of_mem stands)
        have last := getLast?_heard_reset stands side
        refine .inr ?_
        rw [List.getLast?_append, last, LinkEvent.ofState]
        exact congrArg some (if_pos up).symm

/-- Whoever listens all the time is told the truth exactly as long as resets find the link up. The
converse is why nothing weaker would do: a reset that finds the link down is a lie to whoever hears
it. -/
theorem informs_iff (attends : link.Attends side listener operations) :
    link.Informs listener operations ↔ link.ResetsFindUp operations := by
  constructor
  · rintro informs past reset_side later rfl -
    have stands := attends.mem_listeners (List.prefix_append past _)
    have last : (heard listener (link.toldIn (past ++ [.reset reset_side]))).getLast? =
        some .established := by
      rw [toldIn_concat, heard_append, List.getLast?_append, getLast?_heard_reset stands]
      rfl
    have part : past ++ [.reset reset_side] <+: past ++ .reset reset_side :: later :=
      ⟨later, by rw [List.append_assoc, List.singleton_append]⟩
    have up := (informs _ part (fun nothing => by simp [nothing] at last)).mp last
    rwa [run_concat] at up
  · intro finds part prefix_of told
    obtain ⟨rest, rfl⟩ := prefix_of
    have known := getLast?_heard
      (fun early prefix_of => attends early (prefix_of.trans (List.prefix_append _ _)))
      fun past side later split => finds past side (later ++ rest) (by simp [split])
    rcases known with nothing | last
    · exact absurd nothing told
    · rw [last, Option.some_inj]
      cases (link.run part).up <;> simp [LinkEvent.ofState]

end Heard

/-! ### Frames -/

/-- A frame comes from the other end of a link that is up. -/
theorem sent_of_frame {frame : Bytes} (told : (listener, .frame frame) ∈ link.told operation) :
    ∃ side : Side, operation = .send side.opposite frame ∧ link.listener side = some listener ∧
      link.up = true := by
  cases operation with
  | attach | detach => cases told
  | send side sent =>
      obtain ⟨l, receives, same⟩ := List.mem_map.mp told
      obtain ⟨rfl, rfl⟩ : l = listener ∧ sent = frame := by simpa using same
      have receives : link.receiver? side = some l := Option.mem_toList.mp receives
      rw [receiver?] at receives
      split at receives
      · next up =>
        refine ⟨side.opposite, ?_, receives, up⟩
        cases side <;> rfl
      · cases receives
  | setUp side up =>
      simp only [JoinedLink.told, perform, setUp] at told
      split at told
      · cases told
      · obtain ⟨_, -, same⟩ := List.mem_map.mp told
        cases up <;> simp at same
  | reset side => simp [JoinedLink.told, perform, resetEvents] at told

end JoinedLink

/-- In every run a link-up is told by a link that is up, and that stays up until it is taken down,
exactly if no reset that anyone is told of finds the link down. Through any part of the run in which
a listener stays at its end, it was told last that the link is up exactly if it is, whenever it was
told anything about the link, on the same condition. Every frame comes from the other end and over a
link that is up. -/
theorem links_announce_their_state {η : Type} [DecidableEq η]
    (operations : List (LinkOperation η)) :
    let link : JoinedLink η := {}
    (link.EstablishesWhenUp operations ↔ link.ResetsFindUp operations) ∧
      (∀ past since later, operations = past ++ since ++ later →
        ∀ side listener, (link.run past).Attends side listener since →
          ((link.run past).Informs listener since ↔ (link.run past).ResetsFindUp since)) ∧
      ∀ past operation later, operations = past ++ operation :: later →
        ∀ listener frame, (listener, .frame frame) ∈ (link.run past).told operation →
          ∃ side : Side, operation = .send side.opposite frame ∧
            (link.run past).listener side = some listener ∧ (link.run past).up = true :=
  ⟨JoinedLink.establishesWhenUp_iff, fun _ _ _ _ _ _ attends => JoinedLink.informs_iff attends,
    fun _ _ _ _ _ _ told => JoinedLink.sent_of_frame told⟩

/-- A run in which a link with a listener at each end goes down, comes up, carries a frame and is
reset. -/
def LinkOperation.flapping : List (LinkOperation Nat) :=
  [.attach .left 0, .attach .right 1, .setUp .left false, .setUp .right true, .send .left [7],
    .reset .right]

/-- The listener at the right end was told twice that the link is up, at last rightly so, and its
frame was sent at the left end. -/
theorem links_announce_their_state_flapping :
    let link : JoinedLink Nat := {}
    let stood := link.run (LinkOperation.flapping.take 2)
    let told := stood.toldIn (LinkOperation.flapping.drop 2)
    link.EstablishesWhenUp LinkOperation.flapping ∧
      stood.Attends .right 1 (LinkOperation.flapping.drop 2) ∧
      JoinedLink.heard 1 told = [.reset, .established, .reset, .established] ∧
      ((JoinedLink.heard 1 told).getLast? = some .established ↔
        (stood.run (LinkOperation.flapping.drop 2)).up = true) ∧
      (1, .frame [7]) ∈ told ∧
      ∃ side : Side, LinkOperation.send (η := Nat) .left [7] = .send side.opposite [7] ∧
        (link.run (LinkOperation.flapping.take 4)).listener side = some 1 := by
  intro link stood told
  obtain ⟨establishes, informs, frames⟩ := links_announce_their_state LinkOperation.flapping
  have finds : link.ResetsFindUp LinkOperation.flapping := by
    intro past side later split _
    simp only [LinkOperation.flapping, List.cons_eq_append_iff, List.cons.injEq, reduceCtorEq,
      false_and, and_false, LinkOperation.reset.injEq, List.nil_eq, List.append_eq_nil_iff,
      exists_const, or_false, ↓existsAndEq, true_and, false_or] at split
    obtain ⟨rfl, -, -⟩ := split
    rfl
  have finds_since : stood.ResetsFindUp (LinkOperation.flapping.drop 2) := by
    intro past side later split someone
    have whole : LinkOperation.flapping =
        LinkOperation.flapping.take 2 ++ past ++ .reset side :: later := by
      rw [List.append_assoc, ← split, List.take_append_drop]
    have up := finds _ side later whole
    rw [JoinedLink.run_append] at up
    exact up someone
  have attends : stood.Attends .right 1 (LinkOperation.flapping.drop 2) := by decide
  have informed := (informs (LinkOperation.flapping.take 2) (LinkOperation.flapping.drop 2) [] rfl
    .right 1 attends).mpr finds_since
  obtain ⟨side, sent, stands, -⟩ := frames (LinkOperation.flapping.take 4) (.send .left [7])
    [.reset .right] rfl 1 [7] (by decide)
  exact ⟨establishes.mpr finds, attends, by decide, informed _ (List.prefix_refl _) (by decide),
    by decide, side, sent, stands⟩

/-- The link is taken down while a listener stands at its left end, and is reset then. -/
def LinkOperation.resetWhileDown : List (LinkOperation Nat) :=
  [.attach .left 0, .setUp .left false, .reset .right]

/-- The reset tells of a link-up while the link is down, and the listener goes on taking it to be
up. Only the next change of the link puts it right. -/
theorem resets_announce_links_that_are_down :
    let link : JoinedLink Nat := {}
    ¬ link.EstablishesWhenUp LinkOperation.resetWhileDown ∧
      (link.run (LinkOperation.resetWhileDown.take 1)).Attends .left 0
        (LinkOperation.resetWhileDown.drop 1) ∧
      ¬ (link.run (LinkOperation.resetWhileDown.take 1)).Informs 0
        (LinkOperation.resetWhileDown.drop 1) := by
  refine ⟨fun establishes => ?_, by decide, fun informs => ?_⟩
  · have up := establishes (LinkOperation.resetWhileDown.take 2) (.reset .right) [] [] rfl 0
      (by decide) (by simp)
    cases up
  · have up := (informs _ (List.prefix_refl _) (by decide)).mp (by decide)
    cases up

end HubRelay
