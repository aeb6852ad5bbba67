import Scriptlet.Proofs.Evaluation.CallLimit
import Scriptlet.Proofs.Evaluation.Evolution
import Scriptlet.Proofs.Scope.Reachability

/-!
# Runs that differ by empty frames

One of two runs can have frames more than the other in which nothing is bound. Such a frame relays
every lookup and every assignment to the frame around it, so it cannot be noticed as long as nothing
is declared in it. A pairing tells which frames are partners and which ones are relays. It grows
while the runs go on, and evaluation keeps states paired.

A run alongside itself shows that functions capture only frames that there are.
-/

namespace Scriptlet

open Evaluation

theorem Function.Corresponds.mono {frames weaker : Nat → Nat → Prop} {function other : Function}
    (corresponds : function.Corresponds frames other)
    (weaken : ∀ frame other, frames frame other → weaker frame other) :
    function.Corresponds weaker other := by
  cases corresponds with
  | clock => exact .clock
  | declared declaration closures_match => exact .declared declaration (weaken _ _ closures_match)

theorem rel_mono {α β : Type} {relation weaker : α → β → Prop} {left : Option α}
    {right : Option β} (related : Option.Rel relation left right)
    (weaken : ∀ value other, relation value other → weaker value other) :
    Option.Rel weaker left right := by
  cases related with
  | none => exact .none
  | some values_related => exact .some (weaken _ _ values_related)

/-- What the functions of a state capture are frames. -/
def Scopes.Closed (scopes : Scopes) : Prop :=
  ∀ frame name value, scopes.bound frame name = some value →
    ∀ closure ∈ value.captured, closure < scopes.frames.size

/-- The frames of two runs that are partners, and the frames of the second run that are relays, each
with the frame around it. -/
structure Pairing where
  partners : Nat → Nat → Prop
  relays : Nat → Nat → Prop

namespace Pairing

/-- Frames that are partners, or would be without the relays around the second one. -/
inductive Frames (pairing : Pairing) (frame : Nat) : Nat → Prop where
  | partners {other : Nat} (partners : pairing.partners frame other) : Frames pairing frame other
  | relay {relay outer : Nat} (relays : pairing.relays relay outer)
      (outer_match : Frames pairing frame outer) : Frames pairing frame relay

/-- One object in both runs. The frames that it captures match. -/
structure Objects (pairing : Pairing) (left right : Callable) : Prop where
  identity_eq : left.identity = right.identity
  functions_match : left.function.Corresponds pairing.Frames right.function

/-- Values that correspond. -/
abbrev Values (pairing : Pairing) : Value → Value → Prop :=
  Value.Alike pairing.Objects

/-- Every frame of the first run has one partner, which binds the same names to corresponding values
and stands in a matching frame. Relays are further frames of the second run, which bind nothing. -/
structure Joins (pairing : Pairing) (left right : Scopes) : Prop where
  one_to_one : ∀ {frame other frame' other'}, pairing.partners frame other →
    pairing.partners frame' other' → (frame = frame' ↔ other = other')
  left_isFrame : ∀ {frame other}, pairing.partners frame other → frame < left.frames.size
  right_isFrame : ∀ {frame other}, pairing.partners frame other → other < right.frames.size
  exists_partner : ∀ frame < left.frames.size, ∃ other, pairing.partners frame other
  enclosing_match : ∀ {frame other}, pairing.partners frame other →
    Option.Rel pairing.Frames (left.enclosing frame) (right.enclosing other)
  bound_alike : ∀ {frame other}, pairing.partners frame other → ∀ name,
    Option.Rel pairing.Values (left.bound frame name) (right.bound other name)
  relay_isFrame : ∀ {relay outer}, pairing.relays relay outer → relay < right.frames.size
  relay_enclosing : ∀ {relay outer}, pairing.relays relay outer →
    right.enclosing relay = some outer
  relay_bound : ∀ {relay outer}, pairing.relays relay outer → ∀ name,
    right.bound relay name = none
  relay_alone : ∀ {relay outer}, pairing.relays relay outer → ∀ frame,
    ¬pairing.partners frame relay

/-- States of both runs whose frames are joined by the pairing, and which are equal otherwise. -/
structure States (pairing : Pairing) (left right : Interpreter) : Prop where
  scopes : pairing.Joins left.scopes right.scopes
  nextIdentity_eq : left.nextIdentity = right.nextIdentity
  callDepth_eq : left.callDepth = right.callDepth
  output_eq : left.output = right.output
  clock_eq : left.clock = right.clock

/-- A pairing to which nothing or something was added. -/
structure Before (pairing later : Pairing) : Prop where
  partners : ∀ {frame other}, pairing.partners frame other → later.partners frame other
  relays : ∀ {relay outer}, pairing.relays relay outer → later.relays relay outer

variable {pairing : Pairing}

theorem Frames.later {later : Pairing} {frame other : Nat}
    (frames_match : pairing.Frames frame other) (isLater : pairing.Before later) :
    later.Frames frame other := by
  induction frames_match with
  | partners partners => exact .partners (isLater.partners partners)
  | relay relays _ ih => exact .relay (isLater.relays relays) ih

theorem Objects.later {later : Pairing} {left right : Callable}
    (corresponding : pairing.Objects left right) (isLater : pairing.Before later) :
    later.Objects left right :=
  ⟨corresponding.identity_eq,
    corresponding.functions_match.mono fun _ _ frames_match => frames_match.later isLater⟩

theorem values_later {later : Pairing} {left right : Value} (alike : pairing.Values left right)
    (isLater : pairing.Before later) : later.Values left right :=
  alike.mono fun _ _ corresponding => corresponding.later isLater

/-- With two new frames that are partners. -/
def withPartners (pairing : Pairing) (frame other : Nat) : Pairing where
  partners left right := pairing.partners left right ∨ left = frame ∧ right = other
  relays := pairing.relays

theorem before_withPartners (pairing : Pairing) (frame other : Nat) :
    pairing.Before (pairing.withPartners frame other) :=
  ⟨.inl, id⟩

/-- With a new frame of the second run that is a relay. -/
def withRelay (pairing : Pairing) (frame around : Nat) : Pairing where
  partners := pairing.partners
  relays relay outer := pairing.relays relay outer ∨ relay = frame ∧ outer = around

theorem before_withRelay (pairing : Pairing) (frame around : Nat) :
    pairing.Before (pairing.withRelay frame around) :=
  ⟨id, .inl⟩

namespace Joins

variable {left right : Scopes}

theorem isFrame_of_match (joins : pairing.Joins left right) {frame other : Nat}
    (frames_match : pairing.Frames frame other) :
    frame < left.frames.size ∧ other < right.frames.size := by
  induction frames_match with
  | partners partners => exact ⟨joins.left_isFrame partners, joins.right_isFrame partners⟩
  | relay relays _ ih => exact ⟨ih.1, joins.relay_isFrame relays⟩

/-- A name is found in partners, or in neither run. -/
theorem locate (joins : pairing.Joins left right) (name : String) {frame other : Nat}
    (frames_match : pairing.Frames frame other) :
    LocatesAlike pairing.Objects pairing.partners (left.locate name frame)
      (right.locate name other) := by
  -- Each step goes outwards in the second run, and past a relay only there.
  induction other using Nat.strongRecOn generalizing frame with
  | ind other ih =>
      cases frames_match with
      | partners partners =>
          have alike := joins.bound_alike partners name
          have enclosing := joins.enclosing_match partners
          rw [Scopes.locate_eq, Scopes.locate_eq right]
          generalize left.bound frame name = found, right.bound other name = otherFound
            at alike ⊢
          cases alike with
          | some alike => exact .some ⟨partners, alike⟩
          | none =>
              generalize outer_eq : left.enclosing frame = outer,
                otherOuter_eq : right.enclosing other = otherOuter at enclosing
              cases enclosing with
              | none => exact .none
              | some outer_match =>
                  exact ih _ (Scopes.lt_of_enclosing otherOuter_eq) outer_match
      | @relay _ outer relays outer_match =>
          have enclosing_eq := joins.relay_enclosing relays
          rw [Scopes.locate_eq right, joins.relay_bound relays name, enclosing_eq]
          exact ih outer (Scopes.lt_of_enclosing enclosing_eq) outer_match

theorem define (joins : pairing.Joins left right) {frame other : Nat}
    (partners : pairing.partners frame other) (name : String) {value otherValue : Value}
    (alike : pairing.Values value otherValue) :
    pairing.Joins (left.define frame name value) (right.define other name otherValue) := by
  have leftRebound := Scopes.rebound_define (joins.left_isFrame partners) name value
  have rightRebound := Scopes.rebound_define (joins.right_isFrame partners) name otherValue
  refine { joins with
    left_isFrame := ?_, right_isFrame := ?_, exists_partner := ?_, enclosing_match := ?_,
    bound_alike := ?_, relay_isFrame := ?_, relay_enclosing := ?_, relay_bound := ?_ }
  · rw [leftRebound.size_eq]
    exact joins.left_isFrame
  · rw [rightRebound.size_eq]
    exact joins.right_isFrame
  · rw [leftRebound.size_eq]
    exact joins.exists_partner
  · rw [leftRebound.enclosing_eq, rightRebound.enclosing_eq]
    exact joins.enclosing_match
  · intro asked otherAsked asked_partners askedName
    simp only [leftRebound.bound_eq, rightRebound.bound_eq,
      joins.one_to_one asked_partners partners]
    split
    · exact .some alike
    · exact joins.bound_alike asked_partners askedName
  · rw [rightRebound.size_eq]
    exact joins.relay_isFrame
  · rw [rightRebound.enclosing_eq]
    exact joins.relay_enclosing
  · intro relay outer relays askedName
    have apart : relay ≠ other := by
      rintro rfl
      exact joins.relay_alone relays frame partners
    rw [rightRebound.bound_eq, if_neg fun same => apart same.1]
    exact joins.relay_bound relays askedName

theorem push (joins : pairing.Joins left right) {frame other : Nat}
    (frames_match : pairing.Frames frame other) :
    (pairing.withPartners left.frames.size right.frames.size).Joins (left.push (some frame))
      (right.push (some other)) := by
  have isLater := pairing.before_withPartners left.frames.size right.frames.size
  obtain ⟨isFrame, other_isFrame⟩ := joins.isFrame_of_match frames_match
  refine {
    one_to_one := ?_, left_isFrame := ?_, right_isFrame := ?_, exists_partner := ?_,
    enclosing_match := ?_, bound_alike := ?_, relay_isFrame := ?_, relay_enclosing := ?_,
    relay_bound := ?_, relay_alone := ?_ }
  · rintro asked otherAsked asked' otherAsked' (old | ⟨rfl, rfl⟩) (old' | ⟨rfl, rfl⟩)
    · exact joins.one_to_one old old'
    · have := joins.left_isFrame old
      have := joins.right_isFrame old
      omega
    · have := joins.left_isFrame old'
      have := joins.right_isFrame old'
      omega
    · simp
  · rintro asked otherAsked (old | ⟨rfl, rfl⟩)
    · exact Scopes.isFrame_push (joins.left_isFrame old) _
    · exact left.isFrame_push_new _
  · rintro asked otherAsked (old | ⟨rfl, rfl⟩)
    · exact Scopes.isFrame_push (joins.right_isFrame old) _
    · exact right.isFrame_push_new _
  · intro asked asked_isFrame
    rw [Scopes.size_push] at asked_isFrame
    rcases Nat.lt_succ_iff_lt_or_eq.mp asked_isFrame with old | rfl
    · obtain ⟨otherAsked, partners⟩ := joins.exists_partner asked old
      exact ⟨otherAsked, .inl partners⟩
    · exact ⟨right.frames.size, .inr ⟨rfl, rfl⟩⟩
  · rintro asked otherAsked (old | ⟨rfl, rfl⟩)
    · rw [Scopes.enclosing_push_of_lt (joins.left_isFrame old),
        Scopes.enclosing_push_of_lt (joins.right_isFrame old)]
      exact rel_mono (joins.enclosing_match old) fun _ _ outer_match => outer_match.later isLater
    · rw [Scopes.enclosing_push_new isFrame, Scopes.enclosing_push_new other_isFrame]
      exact .some (frames_match.later isLater)
  · rw [Scopes.bound_push, Scopes.bound_push]
    rintro asked otherAsked (old | ⟨rfl, rfl⟩) name
    · exact rel_mono (joins.bound_alike old name) fun _ _ alike => values_later alike isLater
    · rw [Scopes.bound_of_not_lt (Nat.lt_irrefl _), Scopes.bound_of_not_lt (Nat.lt_irrefl _)]
      exact .none
  · intro relay outer relays
    exact Scopes.isFrame_push (joins.relay_isFrame relays) _
  · intro relay outer relays
    rw [Scopes.enclosing_push_of_lt (joins.relay_isFrame relays)]
    exact joins.relay_enclosing relays
  · rw [Scopes.bound_push]
    exact joins.relay_bound
  · rintro relay outer relays asked (old | ⟨-, rfl⟩)
    · exact joins.relay_alone relays asked old
    · exact absurd (joins.relay_isFrame relays) (Nat.lt_irrefl _)

theorem pushRelay (joins : pairing.Joins left right) {other : Nat}
    (isFrame : other < right.frames.size) :
    (pairing.withRelay right.frames.size other).Joins left (right.push (some other)) := by
  have isLater := pairing.before_withRelay right.frames.size other
  refine {
    one_to_one := joins.one_to_one, left_isFrame := joins.left_isFrame,
    exists_partner := joins.exists_partner,
    right_isFrame := ?_, enclosing_match := ?_, bound_alike := ?_, relay_isFrame := ?_,
    relay_enclosing := ?_, relay_bound := ?_, relay_alone := ?_ }
  · intro asked otherAsked partners
    exact Scopes.isFrame_push (joins.right_isFrame partners) _
  · intro asked otherAsked partners
    rw [Scopes.enclosing_push_of_lt (joins.right_isFrame partners)]
    exact rel_mono (joins.enclosing_match partners) fun _ _ outer_match => outer_match.later isLater
  · rw [Scopes.bound_push]
    intro asked otherAsked partners name
    exact rel_mono (joins.bound_alike partners name) fun _ _ alike => values_later alike isLater
  · rintro relay outer (old | ⟨rfl, rfl⟩)
    · exact Scopes.isFrame_push (joins.relay_isFrame old) _
    · exact right.isFrame_push_new _
  · rintro relay outer (old | ⟨rfl, rfl⟩)
    · rw [Scopes.enclosing_push_of_lt (joins.relay_isFrame old)]
      exact joins.relay_enclosing old
    · exact Scopes.enclosing_push_new isFrame
  · rw [Scopes.bound_push]
    rintro relay outer (old | ⟨rfl, rfl⟩) name
    · exact joins.relay_bound old name
    · exact Scopes.bound_of_not_lt (Nat.lt_irrefl _) name
  · rintro relay outer (old | ⟨rfl, -⟩) asked partners
    · exact joins.relay_alone old asked partners
    · exact absurd (joins.right_isFrame partners) (Nat.lt_irrefl _)

end Joins

/-- Pairings that grow, with the states and frames that they match. -/
def evolution : Evolution Pairing where
  before := Before
  states := States
  objects := Objects
  frames := Frames
  partners := partners
  before_refl _ := ⟨id, id⟩
  before_trans first second :=
    ⟨fun partners => second.partners (first.partners partners),
      fun relays => second.relays (first.relays relays)⟩
  objects_later isLater _ _ corresponding := corresponding.later isLater
  frames_later isLater _ _ frames_match := frames_match.later isLater
  partners_later isLater _ _ := isLater.partners
  frames_of_partners := .partners

theorem isKept : evolution.IsKept where
  output_eq related := related.output_eq
  clock_eq related := related.clock_eq
  callDepth_eq related := related.callDepth_eq
  withOutput related output := { related with output_eq := rfl }
  withClock related clock := { related with clock_eq := rfl }
  withCallDepth related callDepth := { related with callDepth_eq := rfl }
  function_corresponds corresponding := corresponding.functions_match
  identity_iff corresponding corresponding' := by
    rw [corresponding.identity_eq, corresponding'.identity_eq]
  lookup frames_match name :=
    lockstep_lookup (fun _ _ related => related.scopes.locate name.lexeme frames_match) rfl
  assign frames_match name left right alike := by
    apply lockstep_assign (fun _ _ related => related.scopes.locate name.lexeme frames_match) rfl
      alike
    intro state otherState related owner otherOwner partners
    exact { related with scopes := related.scopes.define partners name.lexeme alike }
  define partners name left right alike := by
    apply lockstep_modify
    intro state otherState related
    exact { related with scopes := related.scopes.define partners name alike }
  newFrame {pairing frame other} frames_match now isNow state otherState related := by
    have joins := related.scopes.push (frames_match.later isNow)
    exact ⟨_, now.before_withPartners _ _, .ok (.inr ⟨rfl, rfl⟩) { related with scopes := joins }⟩
  newCallable {pairing frame other} frames_match declaration state otherState related := by
    refine .ok (.callable ⟨related.nextIdentity_eq, .declared declaration frames_match⟩) ?_
    exact { related with nextIdentity_eq := congrArg (· + 1) related.nextIdentity_eq }

/-- The second run can make a frame that the first one does not make. -/
theorem inStep_relay {frame other : Nat} (frames_match : pairing.Frames frame other) :
    evolution.InStep pairing (pure frame) (newFrame (some other)) Frames := by
  intro now isNow state otherState related
  have now_match := frames_match.later isNow
  have joins := related.scopes.pushRelay (related.scopes.isFrame_of_match now_match).2
  refine ⟨_, now.before_withRelay _ other, .ok ?_ { related with scopes := joins }⟩
  exact .relay (.inr ⟨rfl, rfl⟩) (now_match.later (now.before_withRelay _ other))

/-- Every frame is its own partner. -/
def self (scopes : Scopes) : Pairing where
  partners frame other := frame = other ∧ frame < scopes.frames.size
  relays _ _ := False

theorem joins_self {scopes : Scopes} (closed : scopes.Closed) :
    (self scopes).Joins scopes scopes where
  one_to_one := by
    rintro frame _ frame' _ ⟨rfl, -⟩ ⟨rfl, -⟩
    exact Iff.rfl
  left_isFrame partners := partners.2
  right_isFrame partners := partners.1 ▸ partners.2
  exists_partner frame isFrame := ⟨frame, rfl, isFrame⟩
  enclosing_match := by
    rintro frame _ ⟨rfl, isFrame⟩
    cases outer_eq : scopes.enclosing frame with
    | none => exact .none
    | some outer =>
        exact .some (.partners ⟨rfl, Nat.lt_trans (Scopes.lt_of_enclosing outer_eq) isFrame⟩)
  bound_alike := by
    rintro frame _ ⟨rfl, -⟩ name
    cases bound_eq : scopes.bound frame name with
    | none => exact .none
    | some value =>
        have captured := closed frame name value bound_eq
        refine .some ?_
        cases value with
        | nil | boolean | number | string => exact .plain trivial
        | callable object =>
            rcases object with ⟨identity, function⟩
            cases function with
            | clock => exact .callable ⟨rfl, .clock⟩
            | declared declaration closure =>
                have closure_isFrame := captured closure rfl
                exact .callable ⟨rfl, .declared declaration (.partners ⟨rfl, closure_isFrame⟩)⟩
  relay_isFrame := False.elim
  relay_enclosing := False.elim
  relay_bound := False.elim
  relay_alone := False.elim

theorem states_self {state : Interpreter} (closed : state.scopes.Closed) :
    (self state.scopes).States state state :=
  ⟨joins_self closed, rfl, rfl, rfl, rfl⟩

theorem Objects.isFrame {left right : Scopes} (joins : pairing.Joins left right)
    {object other : Callable} (corresponding : pairing.Objects object other) :
    ∀ closure ∈ object.captured, closure < left.frames.size := by
  rcases object with ⟨identity, function⟩
  rcases other with ⟨otherIdentity, otherFunction⟩
  obtain ⟨-, functions_match⟩ := corresponding
  cases functions_match with
  | clock => rintro closure ⟨⟩
  | declared _ closures_match =>
      rintro closure ⟨⟩
      exact (joins.isFrame_of_match closures_match).1

theorem Joins.closed {left right : Scopes} (joins : pairing.Joins left right) : left.Closed := by
  intro frame name value bound_eq
  have isFrame : frame < left.frames.size := by
    apply Decidable.byContradiction
    intro not_frame
    rw [Scopes.bound_of_not_lt not_frame] at bound_eq
    cases bound_eq
  obtain ⟨other, partners⟩ := joins.exists_partner frame isFrame
  have alike := joins.bound_alike partners name
  rw [bound_eq] at alike
  generalize right.bound other name = otherFound at alike
  cases alike with
  | some alike =>
      cases alike with
      | callable corresponding => exact corresponding.isFrame joins
      | plain isPlain =>
          cases value with
          | callable => cases isPlain
          | nil | boolean | number | string => rintro closure ⟨⟩

end Pairing

namespace Interpreter

open Pairing

/-- States in which functions capture only frames that there are, the global frame among them. -/
structure WellScoped (state : Interpreter) : Prop where
  closed : state.scopes.Closed
  globals_isFrame : globals < state.scopes.frames.size

theorem rebound_start (output : Output) (clock : Clock) :
    (Scopes.empty.push none).Rebound (start output clock).scopes globals "clock"
      (.callable ⟨0, .clock⟩) :=
  Scopes.rebound_define (by decide) "clock" _

theorem wellScoped_start (output : Output) (clock : Clock) :
    (start output clock).WellScoped where
  closed := by
    intro frame name value bound_eq
    rw [(rebound_start output clock).bound_eq] at bound_eq
    split at bound_eq
    · cases bound_eq
      rintro closure ⟨⟩
    · rw [Scopes.bound_push, Scopes.bound_of_not_lt (Nat.not_lt_zero _)] at bound_eq
      cases bound_eq
  globals_isFrame := by
    rw [(rebound_start output clock).size_eq]
    decide

/-- A run of a state alongside itself: what is executed leaves functions and frames in order. -/
theorem wellScoped_execute {state : Interpreter} (wellScoped : state.WellScoped) {frame : Nat}
    (isFrame : frame < state.scopes.frames.size) (fuel : Nat) (statement : Stmt) :
    (Outcome.state (execute fuel frame statement state)).WellScoped := by
  have partners : ∀ {frame}, frame < state.scopes.frames.size →
      (self state.scopes).partners frame frame := fun isFrame => ⟨rfl, isFrame⟩
  have inStep := (isKept.within fuel).execute (.partners (partners isFrame)) statement
    (.inl (partners isFrame))
  obtain ⟨later, isLater, outcomes⟩ :=
    inStep _ (evolution.before_refl _) state state (states_self wellScoped.closed)
  have globals_partners := isLater.partners (partners wellScoped.globals_isFrame)
  generalize execute fuel frame statement state = outcome at outcomes ⊢
  cases outcomes with
  | ok _ related | error _ related =>
      exact ⟨related.scopes.closed, related.scopes.left_isFrame globals_partners⟩

theorem wellScoped_interpret (fuel : Nat) (program : List Stmt) {state : Interpreter}
    (wellScoped : state.WellScoped) :
    (Outcome.state (interpret fuel program state)).WellScoped := by
  induction program generalizing state with
  | nil => exact wellScoped
  | cons statement others ih =>
      have executed := wellScoped_execute wellScoped wellScoped.globals_isFrame fuel statement
      cases ended : execute fuel globals statement state with
      | error stop after =>
          rw [ended] at executed
          rw [interpret, bind_of_error ended]
          exact executed
      | ok completion after =>
          rw [ended] at executed
          rw [interpret, bind_of_ok ended]
          cases completion with
          | normal => exact ih executed
          | breaking | continuing | returning => exact executed

theorem Used.wellScoped {state : Interpreter} (used : state.Used) : state.WellScoped := by
  induction used with
  | start output clock => exact wellScoped_start output clock
  | @finished before after fuel program _ run ih | @failed before after fuel program _ _ run ih =>
      have ended := wellScoped_interpret fuel program ih
      rw [run] at ended
      exact ended

end Interpreter

end Scriptlet
