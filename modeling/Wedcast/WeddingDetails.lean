import Wedcast.Database
import Wedcast.Lib.Delayed

/-!
The password on the `WeddingDetails` screen.

One field of the state is both the owner's draft and the mirror of the password in the database:
the text handler and its timers write it, and so does every snapshot of the database, in edit mode
too. The snapshots of `chatInfo` say who may edit; the uploads, the members and the server time
play no part here.
-/

namespace Wedcast.WeddingDetails

open Runs Delayed

structure State where
  currentUser : User
  /-- The `castId` the screen was opened with. -/
  castId : Text
  feed : Option ChatInfo
  changingPassword : Bool
  /-- `state.password`, undefined or null as none, with the timers of its field. -/
  password : Cell (Option Text)
  /-- `feeds/feedNew/<castId>/password` -/
  stored : Option Text
  /-- The snapshots of `stored` not delivered yet, the oldest first. -/
  snapshots : List (Option Text)
  /-- History: the last text typed since edit mode was entered. -/
  typed : Option Text
  deriving DecidableEq

/-- The constructor and `componentDidMount`: the listener is first sent what is stored. -/
def mount (currentUser : User) (castId : Text) (stored : Option Text) : State where
  currentUser := currentUser
  castId := castId
  feed := none
  changingPassword := false
  password := ⟨none, []⟩
  stored := stored
  snapshots := [stored]
  typed := none

def sanitizePassword (text : Text) (s : State) : State :=
  { s with
    password := s.password.put (Option.map withSpace) (some (removeAll forbidden text))
      (some text)
    typed := some text }

/-- The value is stored at `feeds/feedNew/<castId>/password` and sent to every listener there. -/
def State.store (s : State) (value : Option Text) : State :=
  { s with stored := value, snapshots := s.snapshots ++ [value] }

def toggleChangeInput (s : State) : State :=
  if s.changingPassword then
    { s.store s.password.value with changingPassword := false, typed := none }
  else { s with changingPassword := true }

inductive Event where
  | changeText (text : Text)
  | timer
  | toggleChangeInput
  /-- The password is changed on another device. -/
  | remote (value : Option Text)
  /-- The next snapshot of the password is delivered. -/
  | snapshot
  /-- A snapshot of `chatInfo`, which holds its own castId. -/
  | feed (value : Option ChatInfo)
  deriving DecidableEq

/-- The button of `toggleChangeInput` is rendered. -/
def State.canEdit (s : State) : Bool := s.feed.any (·.owner = s.currentUser.uid)

/-- The text input is rendered. -/
def State.showsInput (s : State) : Bool := s.feed.isSome && s.changingPassword

def step (s : State) : Event → Option State
  | .changeText text => if s.showsInput then some (sanitizePassword text s) else none
  | .timer => s.password.fire.map fun password => { s with password }
  | .toggleChangeInput =>
    if s.canEdit then some (WeddingDetails.toggleChangeInput s) else none
  | .remote value => some (s.store value)
  | .snapshot =>
    match s.snapshots with
    | [] => none
    | value :: rest =>
      some { s with password := { s.password with value }, snapshots := rest }
  | .feed value =>
    if value.all (·.castId = s.castId) then some { s with feed := value } else none

/-- What a step does. -/
lemma step_cases {s s' : State} {e : Event} (h : step s e = some s') :
    match e with
    | .changeText text => s.changingPassword ∧ s' = sanitizePassword text s
    | .timer => ∃ password, s.password.fire = some password ∧ s' = { s with password }
    | .toggleChangeInput => s' = WeddingDetails.toggleChangeInput s
    | .remote value => s' = s.store value
    | .snapshot => ∃ value rest, s.snapshots = value :: rest ∧
        s' = { s with password := { s.password with value }, snapshots := rest }
    | .feed value => s' = { s with feed := value } := by
  cases e with
  | changeText text =>
    simp only [step] at h
    split_ifs at h with hg
    cases h
    exact ⟨(Bool.and_eq_true_iff.mp hg).2, rfl⟩
  | timer =>
    obtain ⟨password, hfire, rfl⟩ := Option.map_eq_some_iff.mp h
    exact ⟨password, hfire, rfl⟩
  | snapshot =>
    simp only [step] at h
    split at h
    · cases h
    · rename_i value rest heq
      cases h
      exact ⟨value, rest, heq, rfl⟩
  | remote value =>
    cases h
    rfl
  | toggleChangeInput | feed =>
    simp only [step] at h
    split_ifs at h
    cases h
    rfl

end Wedcast.WeddingDetails
