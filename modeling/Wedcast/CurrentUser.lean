import Wedcast.Lib.History

/-!
The user that `Profile` and `Menu` show.

`state.currentUser` has two sources: the navigation param of that name, which
`getDerivedStateFromProps` copies when a parent renders the screen, and the account itself, read
when a profile update of `returnData` has succeeded. The copy is meant for a new param only, but
the param it is compared with is kept in a field that no update writes, so every render of a parent
copies the param again.
-/

namespace Wedcast.CurrentUser

open Runs

/-- What the screens read of their navigation params; `U` is the type of the user objects, which
`!==` compares by reference. -/
structure Navigation (U : Type*) where
  currentUser : Option U
  /-- There is a param `castId`. -/
  castId : Bool
  deriving DecidableEq

inductive Screen where
  | profile
  | menu
  deriving DecidableEq

/-- What the screen has asked of the account and not heard of. -/
inductive Request where
  /-- `returnData` -/
  | updateProfile
  /-- `logout` -/
  | signOut
  deriving DecidableEq

structure State (U : Type*) where
  /-- `props.navigation` -/
  props : Navigation U
  /-- `state.navigation` -/
  navigation : Option (Navigation U)
  /-- `state.currentUser` -/
  currentUser : Option U
  /-- `firebase.auth().currentUser` -/
  auth : Option U
  requests : List Request
  deriving DecidableEq

variable {U : Type*} [DecidableEq U]

/-- The `currentUser` of the returned update, if there is one, by the param `currentUser` of
`nextProps.navigation` and the one of `prevState.navigation`. -/
def getDerivedStateFromProps (nextParam prevParam : Option (Option U)) : Option (Option U) :=
  match nextParam with
  | some currentUser => if prevParam.all (currentUser ≠ ·) then some currentUser else none
  | none => none

/-- A parent renders the screen; the navigator always passes a `navigation`. -/
def receive (props : Navigation U) (s : State U) : State U :=
  let update :=
    getDerivedStateFromProps (some props.currentUser) (s.navigation.map (·.currentUser))
  { s with props, currentUser := update.getD s.currentUser }

/-- The constructor, the first call of `getDerivedStateFromProps` and `componentDidMount`. -/
def mount (screen : Screen) (auth : Option U) (props : Navigation U) : State U :=
  let constructed : State U :=
    { props
      navigation := none
      currentUser := match screen with
        | .profile => none
        | .menu => auth
      auth
      requests := [] }
  let s := receive props constructed
  match screen with
  -- the handler's `currentUser` is a variable that is never assigned
  | .profile => if props.castId then { s with currentUser := none } else s
  | .menu => s

inductive Event (U : Type*) where
  | render (props : Navigation U)
  /-- The account is another object, or none. -/
  | authChanged (user : Option U)
  | returnData
  /-- "Log Out" is pressed. -/
  | logout
  | succeeded (i : ℕ)
  | failed (i : ℕ)
  deriving DecidableEq

/-- The `currentUser` a request that succeeded passes to `setState`. -/
def Request.sets (s : State U) : Request → Option U
  | .updateProfile => s.auth
  | .signOut => none

def step (s : State U) : Event U → Option (State U)
  | .render props => some (receive props s)
  | .authChanged user => some { s with auth := user }
  | .returnData =>
    if s.auth ≠ none then some { s with requests := s.requests ++ [.updateProfile] } else some s
  | .logout =>
    if s.currentUser ≠ none then some { s with requests := s.requests ++ [.signOut] } else none
  | .succeeded i =>
    (s.requests[i]?).map fun r =>
      { s with requests := s.requests.eraseIdx i, currentUser := r.sets s }
  | .failed i =>
    if i < s.requests.length then some { s with requests := s.requests.eraseIdx i } else none

/-! ### The user that is meant -/

/-- The user set last: by the param when it changes, by a request when it succeeds. -/
def lastSet (x : State U × Option U) (e : Event U) (_ : State U) : Option U :=
  match e with
  | .render props => if props.currentUser ≠ x.1.props.currentUser then props.currentUser else x.2
  | .succeeded i => ((x.1.requests[i]?).map (·.sets x.1)).getD x.2
  | _ => x.2

/-- The screen shows the user set last. -/
def ShowsLastSet (x : State U × Option U) : Prop := x.1.currentUser = x.2

/-- When a parent renders the screen with the param it had, that param is still on show. -/
def Unchanged (s : State U) : Event U → Prop
  | .render props => props.currentUser = s.props.currentUser → s.currentUser = props.currentUser
  | _ => True

/-- `Profile` is not mounted with a `castId`, unless without a user. -/
def ShowsParam (screen : Screen) (props : Navigation U) : Prop :=
  screen = .profile → props.castId → props.currentUser = none

instance (x : State U × Option U) : Decidable (ShowsLastSet x) :=
  inferInstanceAs (Decidable (_ = _))

instance (s : State U) : (e : Event U) → Decidable (Unchanged s e)
  | .render _ => inferInstanceAs (Decidable (_ → _))
  | .authChanged _ | .returnData | .logout | .succeeded _ | .failed _ => isTrue trivial

/-! ### The comparison never takes place -/

/-- With nothing to compare it with, the param is copied. -/
lemma receive_currentUser {s : State U} (h : s.navigation = none) (props : Navigation U) :
    (receive props s).currentUser = props.currentUser := by
  simp [receive, getDerivedStateFromProps, h]

/-- No update writes `state.navigation`. -/
lemma step_navigation {s s' : State U} {e : Event U} (h : step s e = some s') :
    s'.navigation = s.navigation := by
  cases e with
  | render props | authChanged user =>
    cases h
    rfl
  | succeeded i =>
    obtain ⟨r, -, rfl⟩ := Option.map_eq_some_iff.mp h
    rfl
  | returnData | logout | failed i =>
    simp only [step] at h
    split_ifs at h <;> cases h <;> rfl

lemma mount_navigation (screen : Screen) (auth : Option U) (props : Navigation U) :
    (mount screen auth props).navigation = none := by
  cases screen with
  | profile =>
    unfold mount
    split_ifs <;> rfl
  | menu => rfl

lemma mount_currentUser (screen : Screen) (auth : Option U) (props : Navigation U) :
    (mount screen auth props).currentUser = props.currentUser ↔ ShowsParam screen props := by
  cases screen with
  | profile =>
    by_cases hcast : props.castId
    · simp [mount, ShowsParam, hcast, eq_comm]
    · have hshown := receive_currentUser (s := ⟨props, none, none, auth, []⟩) rfl props
      simpa [mount, ShowsParam, hcast] using hshown
  | menu =>
    have hshown := receive_currentUser (s := ⟨props, none, auth, auth, []⟩) rfl props
    simpa [mount, ShowsParam] using hshown

/-- What is kept along the run: nothing to compare with, and the user set last on show. -/
structure Shown (x : State U × Option U) : Prop where
  navigation : x.1.navigation = none
  shows : ShowsLastSet x

/-- After any step the user set last is on show exactly when the step copied no old param. -/
lemma shows_step_iff {x y : State U × Option U} {e : Event U} (h : Shown x)
    (hs : noting step lastSet x e = some y) : ShowsLastSet y ↔ Unchanged x.1 e := by
  obtain ⟨s, u⟩ := x
  obtain ⟨s', u'⟩ := y
  obtain ⟨hstep, hnote⟩ := noting_some hs
  obtain ⟨hnav, hshows⟩ := h
  simp only [ShowsLastSet] at hstep hnote hnav hshows ⊢
  cases e with
  | render props =>
    have hparam := receive_currentUser hnav props
    cases hstep
    rw [hparam, hnote, Unchanged, hshows]
    by_cases hsame : props.currentUser = s.props.currentUser
    · simp [lastSet, hsame, eq_comm]
    · simp [lastSet, hsame]
  | succeeded i =>
    obtain ⟨r, hr, rfl⟩ := Option.map_eq_some_iff.mp hstep
    rw [hnote]
    simp [lastSet, hr, Unchanged]
  | authChanged user =>
    cases hstep
    rw [hnote]
    simpa [lastSet, Unchanged] using hshows
  | returnData | logout | failed i =>
    simp only [step] at hstep
    split_ifs at hstep <;> cases hstep <;> rw [hnote] <;> simpa [lastSet, Unchanged] using hshows

lemma shown_step {x y : State U × Option U} {e : Event U} (h : Shown x) (hg : Unchanged x.1 e)
    (hs : noting step lastSet x e = some y) : Shown y := by
  have hstep := (noting_some hs).1
  exact ⟨(step_navigation hstep).trans h.navigation, (shows_step_iff h hs).mpr hg⟩

def showing : Invariant (noting step (lastSet (U := U))) fun x e => Unchanged x.1 e where
  holds := Shown
  preserved := shown_step

/-- **The user set last is on show** throughout a run exactly when no parent renders the screen
with the param it had while another user is on show. -/
theorem showsLastSet_iff_unchanged (screen : Screen) (auth : Option U) (props : Navigation U)
    (es : List (Event U)) :
    Throughout (noting step lastSet) ShowsLastSet (mount screen auth props, props.currentUser) es ↔
      ShowsParam screen props ∧ Along step Unchanged (mount screen auth props) es := by
  have hnav := mount_navigation screen auth props
  have hmount := mount_currentUser screen auth props
  have hnoting : Along (noting step lastSet) (fun x e => Unchanged x.1 e)
      (mount screen auth props, props.currentUser) es ↔
        Along step Unchanged (mount screen auth props) es := along_noting
  rw [← hnoting]
  constructor
  · intro h
    have hshown : Shown (mount screen auth props, props.currentUser) := ⟨hnav, h.head⟩
    refine ⟨hmount.mp h.head, (showing.throughout_iff (fun _ hx => hx.shows) ?_ hshown).mp h⟩
    exact fun x e y hx hs hy => (shows_step_iff hx hs).mp hy
  · rintro ⟨hparam, halong⟩
    exact showing.throughout (fun _ hx => hx.shows) ⟨hnav, hmount.mpr hparam⟩ halong

/-- A new picture is saved, and the navigator renders the screen again. -/
def savedAndRendered : List (Event ℕ) :=
  [.returnData, .authChanged (some 1), .succeeded 0, .render ⟨some 0, false⟩]

/-- **The old user comes back.** -/
theorem not_always_last_set :
    ¬∀ (screen : Screen) (auth : Option ℕ) (props : Navigation ℕ) (es : List (Event ℕ)),
      Throughout (noting step lastSet) ShowsLastSet
        (mount screen auth props, props.currentUser) es := by
  intro h
  have hrun := h .menu (some 0) ⟨some 0, false⟩ savedAndRendered
  revert hrun
  decide

end Wedcast.CurrentUser
