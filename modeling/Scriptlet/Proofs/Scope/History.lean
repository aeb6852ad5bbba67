import Scriptlet.Proofs.Evaluation.Recorded
import Scriptlet.Proofs.Scope.Chain

/-!
# Histories of scope frames

What frames hold is determined by the operations done on them. Here this is read off the history of
operations alone: which frame encloses which, in which frames a name has been defined, which frame
owns a name, and what was last written to a name in a frame. An assignment counts as a write in the
frame that owned the name at that time, so the reading follows the history back.

The frames that a history leads to agree with it: links, names and values are those of the history.
-/

namespace Scriptlet

open Evaluation (Outcome)

namespace Scopes

/-- An operation on scope frames. Frames are known by numbers, in the order in which they are
made. -/
inductive Operation where
  | newFrame (enclosing : Option Nat)
  | define (frame : Nat) (name : String) (value : Value)
  | get (frame : Nat) (name : Name)
  | assign (frame : Nat) (name : Name) (value : Value)

/-- Does an operation. Only `get` and `assign` give a value. -/
def Operation.perform : Operation → Evaluation (Option Value)
  | .newFrame enclosing => do
      let _ ← Evaluation.newFrame enclosing
      pure none
  | .define frame name value => do
      Evaluation.define frame name value
      pure none
  | .get frame name => do pure (some (← Evaluation.lookup frame name))
  | .assign frame name value => do pure (some (← Evaluation.assign frame name value))

/-- Operations in the order in which they were done, the latest one first. -/
abbrev History := List Operation

namespace History

/-- The state after all operations of a history, also of those that failed. -/
def replay : History → Interpreter → Interpreter
  | [], state => state
  | operation :: earlier, state => Outcome.state (operation.perform (replay earlier state))

/-- The number of frames after a history. -/
def frameCount : History → Nat
  | [] => 0
  | .newFrame _ :: earlier => frameCount earlier + 1
  | .define .. :: earlier | .get .. :: earlier | .assign .. :: earlier => frameCount earlier

/-- The frame that a frame was made below. -/
def enclosing : History → Nat → Option Nat
  | [], _ => none
  | .newFrame outer :: earlier, frame =>
      if frame = frameCount earlier then outer else enclosing earlier frame
  | .define .. :: earlier, frame | .get .. :: earlier, frame | .assign .. :: earlier, frame =>
      enclosing earlier frame

/-- A name has been defined in a frame. -/
def Defined (history : History) (name : String) (frame : Nat) : Prop :=
  ∃ value, .define frame name value ∈ history

/-- The frame that a name belongs to as seen from a frame. -/
def IsOwner (history : History) (name : String) : Nat → Nat → Prop :=
  IsNearest history.enclosing (history.Defined name)

end History

/-- An operation after a history writes a value to a name in a frame. -/
def Operation.Writes (earlier : History) (name : String) (owner : Nat) (value : Value) :
    Operation → Prop
  | .define frame defined written => frame = owner ∧ defined = name ∧ written = value
  | .assign frame target written =>
      earlier.IsOwner name frame owner ∧ target.lexeme = name ∧ written = value
  | .newFrame _ | .get _ _ => False

namespace History

/-- The value last written to a name in a frame. -/
inductive LatestWrite (name : String) (frame : Nat) : History → Value → Prop where
  | written {operation : Operation} {earlier : History} {value : Value}
      (writes : operation.Writes earlier name frame value) :
      LatestWrite name frame (operation :: earlier) value
  | kept {operation : Operation} {earlier : History} {value : Value}
      (silent : ∀ other, ¬operation.Writes earlier name frame other)
      (latest : LatestWrite name frame earlier value) :
      LatestWrite name frame (operation :: earlier) value

end History

/-- The frames that an operation is about are among the first so many. -/
def Operation.Concerns (count : Nat) : Operation → Prop
  | .newFrame enclosing => ∀ outer ∈ enclosing, outer < count
  | .define frame _ _ | .get frame _ | .assign frame _ _ => frame < count

namespace History

/-- Each operation of a history is about frames made before it. -/
def Sound : History → Prop
  | [] => True
  | operation :: earlier => operation.Concerns (frameCount earlier) ∧ Sound earlier

variable {history : History}

/-- Enclosing frames are older, so that their links end. -/
theorem enclosing_lt (sound : history.Sound) {frame outer : Nat}
    (outer_eq : history.enclosing frame = some outer) : outer < frame := by
  induction history with
  | nil => cases outer_eq
  | cons operation earlier ih =>
      cases operation with
      | newFrame enclosing =>
          rw [History.enclosing] at outer_eq
          split at outer_eq
          · next same =>
              subst same
              exact sound.1 outer outer_eq
          · exact ih sound.2 outer_eq
      | define | get | assign => exact ih sound.2 outer_eq

theorem lt_of_enclosed (sound : history.Sound) {frame outer : Nat}
    (enclosed : Relation.TransGen (fun inner outer => history.enclosing inner = some outer)
      frame outer) : outer < frame := by
  induction enclosed with
  | single outer_eq => exact enclosing_lt sound outer_eq
  | tail _ outer_eq ih => exact Nat.lt_trans (enclosing_lt sound outer_eq) ih

theorem not_enclosed_by_self (sound : history.Sound) (frame : Nat) :
    ¬Relation.TransGen (fun inner outer => history.enclosing inner = some outer) frame frame :=
  fun enclosed => Nat.lt_irrefl frame (lt_of_enclosed sound enclosed)

theorem le_of_atOrAbove (sound : history.Sound) {frame outer : Nat}
    (above : AtOrAbove history.enclosing frame outer) : outer ≤ frame := by
  rcases Relation.reflTransGen_iff_eq_or_transGen.mp above with rfl | enclosed
  · exact Nat.le_refl outer
  · exact Nat.le_of_lt (lt_of_enclosed sound enclosed)

theorem owner_unique (sound : history.Sound) {name : String} {frame owner other : Nat}
    (isOwner : history.IsOwner name frame owner) (also : history.IsOwner name frame other) :
    owner = other :=
  Nat.le_antisymm (le_of_atOrAbove sound (also.nearest owner isOwner.above isOwner.holds))
    (le_of_atOrAbove sound (isOwner.nearest other also.above also.holds))

theorem latestWrite_cons_iff {operation : Operation} {name : String} {frame : Nat}
    {value : Value} :
    LatestWrite name frame (operation :: history) value ↔
      operation.Writes history name frame value ∨
        (∀ other, ¬operation.Writes history name frame other) ∧
          history.LatestWrite name frame value := by
  constructor
  · rintro (writes | ⟨silent, latest⟩)
    · exact .inl writes
    · exact .inr ⟨silent, latest⟩
  · rintro (writes | ⟨silent, latest⟩)
    · exact .written writes
    · exact .kept silent latest

theorem LatestWrite.unique {name : String} {frame : Nat} {value other : Value}
    (latest : history.LatestWrite name frame value)
    (also : history.LatestWrite name frame other) : value = other := by
  induction latest with
  | @written operation earlier value writes =>
      rcases latestWrite_cons_iff.mp also with also_writes | ⟨silent, -⟩
      · cases operation with
        | define | assign => exact writes.2.2.symm.trans also_writes.2.2
        | newFrame | get => exact writes.elim
      · exact absurd writes (silent value)
  | kept silent _ ih =>
      rcases latestWrite_cons_iff.mp also with also_writes | ⟨-, also_latest⟩
      · exact absurd also_writes (silent other)
      · exact ih also_latest

/-- Something has been written to a name in a frame exactly if the name was defined there. -/
theorem exists_latestWrite_iff {name : String} {frame : Nat} :
    (∃ value, history.LatestWrite name frame value) ↔ history.Defined name frame := by
  induction history with
  | nil =>
      constructor
      · rintro ⟨_, ⟨⟩⟩
      · rintro ⟨_, ⟨⟩⟩
  | cons operation earlier ih =>
      constructor
      · rintro ⟨value, writes | ⟨_, latest⟩⟩
        · cases operation with
          | define owner defined written =>
              obtain ⟨rfl, rfl, rfl⟩ := writes
              exact ⟨_, List.mem_cons_self⟩
          | assign source target written =>
              obtain ⟨defined, defined_mem⟩ := writes.1.holds
              exact ⟨defined, List.mem_cons_of_mem _ defined_mem⟩
          | newFrame | get => exact writes.elim
        · obtain ⟨defined, defined_mem⟩ := ih.mp ⟨value, latest⟩
          exact ⟨defined, List.mem_cons_of_mem _ defined_mem⟩
      · rintro ⟨value, defined_mem⟩
        by_cases writes : ∃ written, operation.Writes earlier name frame written
        · obtain ⟨written, writes⟩ := writes
          exact ⟨written, .written writes⟩
        · have silent : ∀ other, ¬operation.Writes earlier name frame other :=
            fun other other_writes => writes ⟨other, other_writes⟩
          rcases List.mem_cons.mp defined_mem with rfl | defined_earlier
          · exact absurd ⟨rfl, rfl, rfl⟩ (silent value)
          · obtain ⟨latest, latest_written⟩ := ih.mpr ⟨value, defined_earlier⟩
            exact ⟨latest, .kept silent latest_written⟩

end History

/-- Frames hold what a history says: they are as many, enclose each other and bind names as it
does. -/
structure Reflects (scopes : Scopes) (history : History) : Prop where
  size_eq : scopes.frames.size = history.frameCount
  enclosing_eq : scopes.enclosing = history.enclosing
  bound_iff : ∀ frame name value,
    scopes.bound frame name = some value ↔ history.LatestWrite name frame value

namespace Reflects

variable {scopes : Scopes} {history : History}

theorem binds_iff (reflects : scopes.Reflects history) {name : String} {frame : Nat} :
    scopes.Binds name frame ↔ history.Defined name frame := by
  rw [← History.exists_latestWrite_iff, Binds, Option.ne_none_iff_exists']
  simp only [reflects.bound_iff]

theorem isOwner_iff (reflects : scopes.Reflects history) {name : String} {frame owner : Nat} :
    IsNearest scopes.enclosing (scopes.Binds name) frame owner ↔
      history.IsOwner name frame owner := by
  have binds_eq : scopes.Binds name = history.Defined name :=
    funext fun _ => propext reflects.binds_iff
  rw [History.IsOwner, reflects.enclosing_eq, binds_eq]

/-- Without an owner a name has been defined in no frame of the chain. -/
theorem not_isOwner_of_unbound (reflects : scopes.Reflects history) {name : String} {frame : Nat}
    (unbound : ∀ other, AtOrAbove scopes.enclosing frame other → scopes.bound other name = none)
    (owner : Nat) : ¬history.IsOwner name frame owner := by
  rw [← reflects.isOwner_iff]
  intro isNearest
  exact isNearest.holds (unbound owner isNearest.above)

/-- An operation that writes nothing and makes no frame leaves the history as it stands. -/
theorem of_silent (reflects : scopes.Reflects history) {operation : Operation}
    (count_eq : History.frameCount (operation :: history) = history.frameCount)
    (enclosing_eq : History.enclosing (operation :: history) = history.enclosing)
    (silent : ∀ name frame value, ¬operation.Writes history name frame value) :
    scopes.Reflects (operation :: history) where
  size_eq := reflects.size_eq.trans count_eq.symm
  enclosing_eq := reflects.enclosing_eq.trans enclosing_eq.symm
  bound_iff frame name value := by
    rw [reflects.bound_iff, History.latestWrite_cons_iff]
    simp [silent]

/-- An operation that writes to one name in one frame rebinds that name there. -/
theorem of_rebound (reflects : scopes.Reflects history) {operation : Operation} {after : Scopes}
    {owner : Nat} {name : String} {value : Value} (rebound : scopes.Rebound after owner name value)
    (count_eq : History.frameCount (operation :: history) = history.frameCount)
    (enclosing_eq : History.enclosing (operation :: history) = history.enclosing)
    (writes_iff : ∀ asked frame written, operation.Writes history asked frame written ↔
      frame = owner ∧ asked = name ∧ written = value) :
    after.Reflects (operation :: history) where
  size_eq := rebound.size_eq.trans (reflects.size_eq.trans count_eq.symm)
  enclosing_eq := rebound.enclosing_eq.trans (reflects.enclosing_eq.trans enclosing_eq.symm)
  bound_iff frame asked written := by
    rw [rebound.bound_eq, History.latestWrite_cons_iff, ← reflects.bound_iff]
    simp only [writes_iff]
    by_cases same : frame = owner ∧ asked = name
    · obtain ⟨rfl, rfl⟩ := same
      simp [eq_comm]
    · have apart : ∀ other, ¬(frame = owner ∧ asked = name ∧ other = value) :=
        fun _ all => same ⟨all.1, all.2.1⟩
      simp [same, apart]

theorem of_push (reflects : scopes.Reflects history) {outer : Option Nat}
    (older : ∀ id ∈ outer, id < history.frameCount) :
    (scopes.push outer).Reflects (.newFrame outer :: history) where
  size_eq := by rw [size_push, reflects.size_eq, History.frameCount]
  enclosing_eq := by
    funext frame
    have kept : outer.filter (· < scopes.frames.size) = outer := by
      cases outer with
      | none => rfl
      | some id => simp [reflects.size_eq, older id rfl]
    rw [enclosing_push, kept, reflects.size_eq, reflects.enclosing_eq, History.enclosing]
  bound_iff frame name value := by
    rw [bound_push, reflects.bound_iff, History.latestWrite_cons_iff]
    simp [Operation.Writes]

/-- An operation does to the frames what it adds to the history. -/
theorem perform {state : Interpreter} (reflects : state.scopes.Reflects history)
    (sound : history.Sound) {operation : Operation}
    (concerns : operation.Concerns history.frameCount) :
    (Outcome.state (operation.perform state)).scopes.Reflects (operation :: history) := by
  cases operation with
  | newFrame outer => exact reflects.of_push concerns
  | define frame name value =>
      have isFrame : frame < state.scopes.frames.size := reflects.size_eq ▸ concerns
      refine reflects.of_rebound (rebound_define isFrame name value) rfl rfl ?_
      intro asked other written
      simp [Operation.Writes, eq_comm]
  | get frame name =>
      have unchanged : (Outcome.state ((Operation.get frame name).perform state)) = state := by
        rcases Evaluation.lookup_cases frame name state with ⟨_, value, -, -, found⟩ | ⟨-, failed⟩
        · rw [Operation.perform, Evaluation.bind_of_ok found]
          rfl
        · rw [Operation.perform, Evaluation.bind_of_error failed]
          rfl
      rw [unchanged]
      exact reflects.of_silent rfl rfl fun _ _ _ => id
  | assign frame name value =>
      rcases Evaluation.assign_cases frame name value state with
        ⟨owner, isNearest, assigned, rebound⟩ | ⟨unbound, failed⟩
      · -- The owner is that at the time of the assignment; later definitions may hide it.
        have isOwner := reflects.isOwner_iff.mp isNearest
        rw [Operation.perform, Evaluation.bind_of_ok assigned]
        refine reflects.of_rebound rebound rfl rfl ?_
        intro asked other written
        constructor
        · rintro ⟨also, rfl, rfl⟩
          exact ⟨History.owner_unique sound also isOwner, rfl, rfl⟩
        · rintro ⟨rfl, rfl, rfl⟩
          exact ⟨isOwner, rfl, rfl⟩
      · rw [Operation.perform, Evaluation.bind_of_error failed]
        refine reflects.of_silent rfl rfl ?_
        rintro asked other written ⟨isOwner, rfl, -⟩
        exact reflects.not_isOwner_of_unbound unbound other isOwner

end Reflects

theorem reflects_empty : empty.Reflects [] where
  size_eq := rfl
  enclosing_eq := by
    funext frame
    simp [enclosing, empty, History.enclosing]
  bound_iff frame name value := by
    constructor
    · intro found
      simp [bound, empty] at found
    · rintro ⟨⟩

namespace History

variable {history : History}

theorem reflects_replay (sound : history.Sound) {state : Interpreter}
    (fresh : state.scopes = empty) : (history.replay state).scopes.Reflects history := by
  induction history with
  | nil =>
      rw [replay, fresh]
      exact reflects_empty
  | cons operation earlier ih => exact (ih sound.2).perform sound.2 sound.1

theorem frameCount_le_append (later : History) :
    history.frameCount ≤ frameCount (later ++ history) := by
  induction later with
  | nil => exact Nat.le_refl _
  | cons operation later ih =>
      cases operation with
      | newFrame => exact Nat.le_succ_of_le ih
      | define | get | assign => exact ih

/-- What happens later does not move a frame. -/
theorem enclosing_append (later : History) {frame : Nat} (isFrame : frame < history.frameCount) :
    enclosing (later ++ history) frame = history.enclosing frame := by
  induction later with
  | nil => rfl
  | cons operation later ih =>
      cases operation with
      | newFrame outer =>
          have older : frame ≠ frameCount (later ++ history) :=
            Nat.ne_of_lt (Nat.lt_of_lt_of_le isFrame (frameCount_le_append later))
          rw [List.cons_append, enclosing, if_neg older, ih]
      | define | get | assign => exact ih

theorem defined_append_iff {later : History} {name : String} {frame : Nat} :
    Defined (later ++ history) name frame ↔
      history.Defined name frame ∨ later.Defined name frame := by
  simp only [Defined, List.mem_append, exists_or]
  exact Or.comm

end History

/-- After any operations the enclosing links form no cycle, and each lookup, assignment and
definition comes to its end: a lookup gives the latest write in the frame that owns the name, an
assignment rebinds the name there, and both fail at the name if it has been defined in no frame of
the chain. Later operations move no frame and remove no name, and only definitions add names. -/
theorem scopes_follow_history {history : History} (sound : history.Sound) {state : Interpreter}
    (fresh : state.scopes = empty) :
    (∀ frame, ¬Relation.TransGen
      (fun inner outer => (history.replay state).scopes.enclosing inner = some outer)
        frame frame) ∧
    (∀ (frame : Nat) (name : Name),
      (∃ owner value, history.IsOwner name.lexeme frame owner ∧
          history.LatestWrite name.lexeme owner value ∧
          Evaluation.lookup frame name (history.replay state)
            = .ok value (history.replay state)) ∨
        (∀ other, AtOrAbove history.enclosing frame other →
            ¬history.Defined name.lexeme other) ∧
          Evaluation.lookup frame name (history.replay state)
            = .error (.error (.undefinedVariable name)) (history.replay state)) ∧
    (∀ (frame : Nat) (name : Name) (value : Value),
      (∃ owner after, history.IsOwner name.lexeme frame owner ∧
          Evaluation.assign frame name value (history.replay state)
            = .ok value { history.replay state with scopes := after } ∧
          (history.replay state).scopes.Rebound after owner name.lexeme value) ∨
        (∀ other, AtOrAbove history.enclosing frame other →
            ¬history.Defined name.lexeme other) ∧
          Evaluation.assign frame name value (history.replay state)
            = .error (.error (.undefinedVariable name)) (history.replay state)) ∧
    (∀ frame < history.frameCount, ∀ (name : String) (value : Value), ∃ after,
      Evaluation.define frame name value (history.replay state)
          = .ok () { history.replay state with scopes := after } ∧
        (history.replay state).scopes.Rebound after frame name value) ∧
    (∀ later : History, History.Sound (later ++ history) →
      (∀ frame < history.frameCount,
        (History.replay (later ++ history) state).scopes.enclosing frame
          = (history.replay state).scopes.enclosing frame) ∧
      ∀ frame name, (History.replay (later ++ history) state).scopes.Binds name frame ↔
        (history.replay state).scopes.Binds name frame ∨ later.Defined name frame) := by
  have reflects := History.reflects_replay sound fresh
  have undefined_of_unbound {frame : Nat} {name : String}
      (unbound : ∀ other, AtOrAbove (history.replay state).scopes.enclosing frame other →
        (history.replay state).scopes.bound other name = none) :
      ∀ other, AtOrAbove history.enclosing frame other → ¬history.Defined name other := by
    intro other above defined
    exact reflects.binds_iff.mpr defined (unbound other (reflects.enclosing_eq ▸ above))
  refine ⟨?_, ?_, ?_, ?_, ?_⟩
  · rw [reflects.enclosing_eq]
    exact History.not_enclosed_by_self sound
  · intro frame name
    rcases Evaluation.lookup_cases frame name (history.replay state) with
      ⟨owner, value, isNearest, owner_bound, found⟩ | ⟨unbound, failed⟩
    · exact .inl ⟨owner, value, reflects.isOwner_iff.mp isNearest,
        (reflects.bound_iff owner name.lexeme value).mp owner_bound, found⟩
    · exact .inr ⟨undefined_of_unbound unbound, failed⟩
  · intro frame name value
    rcases Evaluation.assign_cases frame name value (history.replay state) with
      ⟨owner, isNearest, assigned, rebound⟩ | ⟨unbound, failed⟩
    · exact .inl ⟨owner, _, reflects.isOwner_iff.mp isNearest, assigned, rebound⟩
    · exact .inr ⟨undefined_of_unbound unbound, failed⟩
  · intro frame isFrame name value
    exact ⟨_, rfl, rebound_define (reflects.size_eq ▸ isFrame) name value⟩
  · intro later later_sound
    have later_reflects := History.reflects_replay later_sound fresh
    constructor
    · intro frame isFrame
      rw [later_reflects.enclosing_eq, reflects.enclosing_eq,
        History.enclosing_append later isFrame]
    · intro frame name
      rw [later_reflects.binds_iff, reflects.binds_iff, History.defined_append_iff]

/-- A name that an inner frame hides after it was assigned through that frame. -/
def hidden : Name := ⟨⟨.identifier, "a", none, 1⟩, rfl⟩

/-- One frame in another, which binds a name. -/
def nested : History :=
  [.newFrame (some 0), .define 0 "a" (.boolean false), .newFrame none]

/-- A name assigned from within the inner frame, and then bound there too. -/
def shadowing : History :=
  .define 1 "a" .nil :: .assign 1 hidden (.boolean true) :: nested

/-- A state without frames. -/
def frameless : Interpreter where
  scopes := empty
  nextIdentity := 0
  callDepth := 0
  output := .unlimited
  clock := .ofReadings fun _ => 0

/-- The assignment went to the outer frame, and the inner one has its own binding since. -/
theorem scopes_follow_history_shadowing :
    shadowing.Sound ∧ frameless.scopes = empty ∧
      Evaluation.lookup 1 hidden (shadowing.replay frameless)
        = .ok .nil (shadowing.replay frameless) ∧
      Evaluation.lookup 0 hidden (shadowing.replay frameless)
        = .ok (.boolean true) (shadowing.replay frameless) := by
  have sound : shadowing.Sound := by
    simp [shadowing, nested, History.Sound, Operation.Concerns, History.frameCount]
  have fresh : frameless.scopes = empty := rfl
  have lookups := (scopes_follow_history sound fresh).2.1
  have inner_owner : shadowing.IsOwner "a" 1 1 := isNearest_self ⟨.nil, List.mem_cons_self⟩
  have outer_owner : shadowing.IsOwner "a" 0 0 :=
    isNearest_self ⟨.boolean false, by simp [shadowing, nested]⟩
  have assigned_owner : nested.IsOwner "a" 1 0 := by
    have outer_eq : nested.enclosing 1 = some 0 := rfl
    refine IsNearest.of_enclosed outer_eq ?_ (isNearest_self ⟨.boolean false, by simp [nested]⟩)
    simp [History.Defined, nested]
  have inner_latest : shadowing.LatestWrite "a" 1 .nil := .written ⟨rfl, rfl, rfl⟩
  have outer_latest : shadowing.LatestWrite "a" 0 (.boolean true) := by
    refine .kept ?_ (.written ⟨assigned_owner, rfl, rfl⟩)
    rintro _ ⟨⟨⟩, -⟩
  refine ⟨sound, fresh, ?_, ?_⟩
  · rcases lookups 1 hidden with ⟨owner, value, isOwner, latest, found⟩ | ⟨undefined, -⟩
    · obtain rfl := History.owner_unique sound isOwner inner_owner
      rw [found, latest.unique inner_latest]
    · exact absurd inner_owner.holds (undefined 1 inner_owner.above)
  · rcases lookups 0 hidden with ⟨owner, value, isOwner, latest, found⟩ | ⟨undefined, -⟩
    · obtain rfl := History.owner_unique sound isOwner outer_owner
      rw [found, latest.unique outer_latest]
    · exact absurd outer_owner.holds (undefined 0 outer_owner.above)

end Scopes

end Scriptlet
