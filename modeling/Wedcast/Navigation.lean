import Mathlib.Data.List.TakeWhile
import Wedcast.Lib.Indexed
import Wedcast.Lib.Runs

/-!
The screens of the app, and what a signed-out user gets to see.

The stack is built by the screens' own `navigate` and `goBack` calls, some of them in callbacks
that run when a request has completed. Signing out leaves the stack as it is, apart from the
`navigate("LoginName")` of `Profile`, which clears it down to a `LoginName` below or puts a new one
on top. So the stack of a signed-out user is kept clear of the other screens only when there is
nothing else in it below that route.
-/

namespace Wedcast.Navigation

open Runs

/-- The routes of the navigator. -/
inductive Route where
  | loading | walkthrough | privacyPolicy | privateFeed | imageView | loginPhone | loginName
  | loginAvatar | main | createFeed | feedUsers | feed | menu | updateAvatar | notifications
  | profile | weddingDetails
  deriving DecidableEq

/-- Who called `signOut`: `logout` of `Profile`, or "Sign in" in the alert about a credential in
use of `CreateFeed` or of `LoginPhone`. -/
inductive SignOut where
  | profile | createFeed | loginPhone
  deriving DecidableEq

/-- What is under way: a request with its callback, or an alert with its buttons. -/
inductive Task where
  /-- `onAuthStateChanged` of `Loading` -/
  | authState
  /-- `handleLogin` of `LoginAvatar`: the sign-in, and what follows it. -/
  | signInAnonymously | saveProfile
  /-- `handleLogin` of `LoginAvatar` with a `currentUser` -/
  | updateProfile
  /-- `confirmVerification` of `LoginPhone`: the sign-in, and its callback. -/
  | confirm | confirmed (hasName : Bool)
  | signOut (caller : SignOut) | signedOut (caller : SignOut)
  /-- `goToFeed` of `Menu` -/
  | goToFeed
  | requestAccess
  /-- `confirmLinkAccount` of `LoginPhone`, and its "Success!" alert. -/
  | linkWithCredential | linked
  /-- `confirmVerification` of `CreateFeed` -/
  | linkAndRetrieve
  /-- The alert about a credential in use. -/
  | inUse (caller : SignOut)
  /-- `uploadImageAsync` of `UpdateAvatar` -/
  | upload
  deriving DecidableEq

/-- How a request ends or an alert is answered; the flag of a success says whether the user has a
name, respectively a record under the cast. -/
inductive Outcome where
  | success (flag : Bool)
  | credentialInUse
  | failure
  deriving DecidableEq

structure State where
  /-- The stack, its active route in front. -/
  stack : List Route
  signedIn : Bool
  tasks : List Task
  deriving DecidableEq

/-- The app is started by a signed-in or a signed-out user. -/
def init (signedIn : Bool) : State := ⟨[.loading], signedIn, [.authState]⟩

/-- `navigate(name)` pops back to a route of that name, or pushes it. -/
def navigate (r : Route) (stack : List Route) : List Route :=
  if r ∈ stack then stack.dropWhile (· ≠ r) else r :: stack

/-- `goBack()` pops one route, but not the last one. -/
def goBack : List Route → List Route
  | _ :: below :: rest => below :: rest
  | stack => stack

/-- The routes a screen navigates to in a handler of its own. -/
def links : Route → List Route
  | .walkthrough => [.loginName]
  | .loginName => [.loginPhone, .loginAvatar]
  | .loginAvatar => [.updateAvatar]
  | .menu => [.profile, .notifications, .createFeed]
  | .profile => [.updateAvatar, .privacyPolicy, .loginPhone]
  | .main => [.weddingDetails, .feed, .feedUsers]
  | .feed => [.imageView, .main]
  | .feedUsers => [.main]
  | .weddingDetails => [.menu, .updateAvatar, .main]
  | .createFeed => [.menu, .updateAvatar, .weddingDetails]
  | _ => []

/-- The screens with a button that calls `goBack`. -/
def backButtons : List Route :=
  [.loginPhone, .loginAvatar, .updateAvatar, .profile, .notifications, .privacyPolicy,
    .privateFeed, .imageView]

/-- The requests a screen starts; the two link requests need a current user. -/
def starts (signedIn : Bool) : Route → List Task
  | .loginAvatar => [.signInAnonymously, .updateProfile]
  | .loginPhone => .confirm :: if signedIn then [.linkWithCredential] else []
  | .updateAvatar => [.upload]
  | .menu => [.goToFeed]
  | .profile => [.signOut .profile]
  | .privateFeed => [.requestAccess]
  | .createFeed => if signedIn then [.linkAndRetrieve] else []
  | _ => []

/-- The route a callback navigates to. -/
def Task.opens (signedIn : Bool) : Task → Outcome → Option Route
  | .authState, _ => some (if signedIn then .menu else .walkthrough)
  | .saveProfile, .success _ | .updateProfile, .success _ | .linked, _ => some .menu
  | .confirmed hasName, _ => some (if hasName then .menu else .loginName)
  | .signedOut .profile, _ => some .loginName
  | .goToFeed, .success isMember => some (if isMember then .weddingDetails else .privateFeed)
  | .requestAccess, .success _ | .linkAndRetrieve, .success _ => some .weddingDetails
  | _, _ => none

/-- Who is signed in after the task. -/
def Task.signs (signedIn : Bool) : Task → Outcome → Bool
  | .signInAnonymously, .success _ | .confirm, .success _ => true
  | .signOut _, .success _ => false
  | _, _ => signedIn

/-- What the task leaves to do; `signedIn` is the state after it. -/
def Task.next (signedIn : Bool) : Task → Outcome → List Task
  -- the `then` behind the `catch` of the sign-in runs in either case
  | .signInAnonymously, _ => if signedIn then [.saveProfile] else []
  | .confirm, .success hasName => [.confirmed hasName]
  | .signOut caller, .success _ => [.signedOut caller]
  | .linkWithCredential, .success _ => [.linked]
  | .linkWithCredential, .credentialInUse => [.inUse .loginPhone]
  | .linkAndRetrieve, .credentialInUse => [.inUse .createFeed]
  -- "Sign in", rather than "Try again"
  | .inUse caller, .success _ => [.signOut caller]
  | _, _ => []

/-- The callback calls `goBack`. -/
def Task.pops : Task → Outcome → Bool
  | .upload, .success _ => true
  | _, _ => false

/-- The stack a task leaves. -/
def Task.stack (s : State) (t : Task) (o : Outcome) : List Route :=
  if t.pops o then goBack s.stack
  else (t.opens s.signedIn o).elim s.stack (navigate · s.stack)

inductive Event where
  /-- A handler of the active screen navigates. -/
  | link (r : Route)
  | back
  | hardwareBack
  | start (t : Task)
  /-- The `i`-th task comes to its end. -/
  | finish (i : ℕ) (o : Outcome)
  deriving DecidableEq

/-- An upload does nothing more once its `UpdateAvatar` is gone: the callback throws on the camera,
which is null by then. -/
def State.unmount (s : State) : State :=
  if .updateAvatar ∈ s.stack then s else { s with tasks := s.tasks.filter (· ≠ .upload) }

/-- The stack changes, and the screens that are no longer in it are unmounted. -/
def State.turn (s : State) (stack : List Route) : State := { s with stack }.unmount

def step (s : State) : Event → Option State
  | .link r =>
    match s.stack with
    | top :: _ => if r ∈ links top then some (s.turn (navigate r s.stack)) else none
    | [] => none
  | .back =>
    match s.stack with
    | top :: _ => if top ∈ backButtons then some (s.turn (goBack s.stack)) else none
    | [] => none
  | .hardwareBack =>
    -- the handler of `App` consumes the event on these two routes
    if s.stack.head? = some .walkthrough ∨ s.stack.head? = some .menu then some s
    else some (s.turn (goBack s.stack))
  | .start t =>
    match s.stack with
    | top :: _ =>
      if t ∈ starts s.signedIn top then some { s with tasks := s.tasks ++ [t] } else none
    | [] => none
  | .finish i o =>
    (s.tasks[i]?).map fun t =>
      let signedIn := t.signs s.signedIn o
      State.unmount
        { stack := t.stack s o
          signedIn
          tasks := s.tasks.eraseIdx i ++ t.next signedIn o }

@[simp] lemma unmount_stack (s : State) : s.unmount.stack = s.stack := by
  unfold State.unmount
  split_ifs <;> rfl

@[simp] lemma unmount_signedIn (s : State) : s.unmount.signedIn = s.signedIn := by
  unfold State.unmount
  split_ifs <;> rfl

/-- Any other task goes on. -/
lemma mem_unmount {s : State} {t : Task} (h : t ∈ s.tasks) (ht : t ≠ .upload) :
    t ∈ s.unmount.tasks := by
  unfold State.unmount
  split_ifs
  · exact h
  · exact List.mem_filter.mpr ⟨h, by simpa using ht⟩

@[simp] lemma turn_stack (s : State) (stack : List Route) : (s.turn stack).stack = stack :=
  unmount_stack _

/-- Every upload under way has its `UpdateAvatar` in the stack. -/
def Mounted (s : State) : Prop := .upload ∈ s.tasks → .updateAvatar ∈ s.stack

lemma mounted_unmount (s : State) : Mounted s.unmount := by
  intro hmem
  rw [unmount_stack]
  by_contra hgone
  rw [State.unmount, if_neg hgone] at hmem
  simpa using (List.mem_filter.mp hmem).2

lemma mounted_step {s s' : State} {e : Event} (h : Mounted s) (hs : step s e = some s') :
    Mounted s' := by
  cases e with
  | link r =>
    simp only [step] at hs
    split at hs
    · split_ifs at hs
      cases hs
      exact mounted_unmount _
    · cases hs
  | back =>
    simp only [step] at hs
    split at hs
    · split_ifs at hs
      cases hs
      exact mounted_unmount _
    · cases hs
  | hardwareBack =>
    simp only [step] at hs
    split_ifs at hs <;> cases hs
    · exact h
    · exact mounted_unmount _
  | start t =>
    simp only [step] at hs
    split at hs
    · rename_i top below hstack
      split_ifs at hs with hstarts
      cases hs
      intro hmem
      rcases List.mem_append.mp hmem with hmem | hmem
      · exact h hmem
      · -- only `UpdateAvatar` itself starts an upload
        obtain rfl := List.mem_singleton.mp hmem
        obtain rfl : top = .updateAvatar := by
          cases top <;> first | rfl | (revert hstarts; cases s.signedIn <;> decide)
        exact hstack ▸ List.mem_cons_self
    · cases hs
  | finish i o =>
    obtain ⟨t, -, rfl⟩ := Option.map_eq_some_iff.mp hs
    exact mounted_unmount _

def mounting : Invariant step fun _ _ => True where
  holds := Mounted
  preserved h _ hs := mounted_step h hs

/-- **An upload that is still under way has its screen.** So the callback that pops a route finds
the `UpdateAvatar` it belongs to in the stack. -/
theorem upload_mounted (signedIn : Bool) (es : List Event) :
    Throughout step Mounted (init signedIn) es :=
  mounting.throughout (fun _ hs => hs) (fun h => absurd h (by simp [init])) (along_true _ es)

/-! ### The screens of a signed-out user -/

/-- The screens before the sign-in. -/
def loginScreens : List Route := [.loading, .walkthrough, .loginName, .loginPhone, .loginAvatar]

/-- The active screen is one of them, or the `UpdateAvatar` opened from `LoginAvatar`. -/
def LoginOnTop (stack : List Route) : Prop :=
  ∃ r ∈ stack.head?, r ∈ loginScreens ∨ r = .updateAvatar ∧ stack[1]? = some .loginAvatar

/-- So is every screen below it. -/
def LoginStack : List Route → Prop
  | [] => True
  | r :: below => LoginOnTop (r :: below) ∧ LoginStack below

/-- A sign-in or a sign-out has been started and its callback has not run. -/
def Task.isSign : Task → Bool
  | .signInAnonymously | .saveProfile | .confirm | .confirmed _ | .signOut _ | .signedOut _ => true
  | _ => false

instance (stack : List Route) : Decidable (LoginOnTop stack) :=
  inferInstanceAs (Decidable (∃ r ∈ stack.head?, _))

instance decidableLoginStack : (stack : List Route) → Decidable (LoginStack stack)
  | [] => isTrue trivial
  | r :: below =>
    have := decidableLoginStack below
    inferInstanceAs (Decidable (LoginOnTop (r :: below) ∧ LoginStack below))

/-- Nobody is signed in, nothing is about to change that, and another screen is active. -/
def Exposed (s : State) : Prop :=
  s.signedIn = false ∧ (∀ t ∈ s.tasks, t.isSign = false) ∧ ¬LoginOnTop s.stack

instance (s : State) : Decidable (Exposed s) :=
  inferInstanceAs (Decidable (_ ∧ (∀ t ∈ s.tasks, _) ∧ _))

/-- While nobody is signed in, a callback that has signed out finds nothing but login screens,
from the topmost `LoginName` down where it goes there, and any other callback opens none but a
login screen. -/
def Clears (s : State) : Event → Prop
  | .finish i o => s.signedIn = false → ∀ t ∈ s.tasks[i]?,
      (t = .signedOut .profile → LoginStack
        (if .loginName ∈ s.stack then s.stack.dropWhile (· ≠ .loginName) else s.stack)) ∧
      (t = .signedOut .createFeed ∨ t = .signedOut .loginPhone → LoginStack s.stack) ∧
      ∀ r ∈ t.opens s.signedIn o, r ∈ loginScreens
  | _ => True

instance (s : State) : (e : Event) → Decidable (Clears s e)
  | .finish _ _ => inferInstanceAs (Decidable (_ → ∀ t ∈ _, (_ → _) ∧ (_ → _) ∧ ∀ r ∈ _, _))
  | .link _ | .back | .hardwareBack | .start _ => isTrue trivial

lemma LoginStack.suffix {stack below : List Route} (h : LoginStack stack)
    (hs : below <:+ stack) : LoginStack below := by
  induction stack with
  | nil => simpa [List.suffix_nil.mp hs] using h
  | cons r rest ih =>
    rcases List.suffix_cons_iff.mp hs with rfl | hs
    · exact h
    · exact ih h.2 hs

lemma LoginStack.push {stack : List Route} (h : LoginStack stack) {r : Route}
    (hr : r ∈ loginScreens ∨ r = .updateAvatar ∧ stack.head? = some .loginAvatar) :
    LoginStack (r :: stack) :=
  ⟨⟨r, rfl, by simpa [List.head?_eq_getElem?] using hr⟩, h⟩

lemma LoginStack.navigate {stack : List Route} (h : LoginStack stack) {r : Route}
    (hr : r ∈ loginScreens ∨ r = .updateAvatar ∧ stack.head? = some .loginAvatar) :
    LoginStack (navigate r stack) := by
  unfold Navigation.navigate
  split_ifs
  · exact h.suffix (List.dropWhile_suffix _)
  · exact h.push hr

lemma goBack_suffix (stack : List Route) : goBack stack <:+ stack := by
  unfold goBack
  split
  · exact List.suffix_cons _ _
  · exact List.suffix_rfl

lemma goBack_ne_nil {stack : List Route} (h : stack ≠ []) : goBack stack ≠ [] := by
  unfold goBack
  split
  · simp
  · exact h

lemma navigate_ne_nil (r : Route) (stack : List Route) : navigate r stack ≠ [] := by
  unfold navigate
  split_ifs with h
  · intro hnil
    have := List.dropWhile_eq_nil_iff.mp hnil r h
    simp at this
  · simp

/-! ### Along a run -/

/-- What holds along runs whose callbacks clear the stack. -/
structure Covered (s : State) : Prop where
  nonempty : s.stack ≠ []
  clear : s.signedIn = false → (∃ caller, .signedOut caller ∈ s.tasks) ∨ LoginStack s.stack

lemma Covered.not_exposed {s : State} (h : Covered s) : ¬Exposed s := by
  rintro ⟨hout, htasks, htop⟩
  rcases h.clear hout with ⟨caller, hmem⟩ | hstack
  · simpa [Task.isSign] using htasks _ hmem
  · cases hs : s.stack with
    | nil => exact h.nonempty hs
    | cons r below =>
      rw [hs] at hstack htop
      exact htop hstack.1

lemma covered_init (signedIn : Bool) : Covered (init signedIn) where
  nonempty := by simp [init]
  clear _ := .inr ⟨by decide, trivial⟩

lemma Covered.unmount {s : State} (h : Covered s) : Covered s.unmount where
  nonempty := by simpa using h.nonempty
  clear hout := by
    rw [unmount_signedIn] at hout
    rw [unmount_stack]
    exact (h.clear hout).imp_left fun ⟨caller, hmem⟩ => ⟨caller, mem_unmount hmem (by simp)⟩

/-- A step of the user on a stack of login screens. -/
lemma Covered.turn {s : State} (h : Covered s) {stack : List Route} (hne : stack ≠ [])
    (hstack : LoginStack s.stack → LoginStack stack) : Covered (s.turn stack) :=
  Covered.unmount ⟨hne, fun hout => (h.clear hout).imp_right hstack⟩

/-- From a login screen one gets to login screens only. -/
lemma links_login {r top : Route} {below : List Route} (h : LoginOnTop (top :: below))
    (hr : r ∈ links top) : r ∈ loginScreens ∨ r = .updateAvatar ∧ top = .loginAvatar := by
  obtain ⟨t, ht, hlogin⟩ := h
  obtain rfl : top = t := by simpa using ht
  cases top <;> simp_all [links, loginScreens]

lemma signs_eq_false {t : Task} {signedIn : Bool} {o : Outcome} (h : t.signs signedIn o = false) :
    signedIn = false ∨ ∃ caller flag, t = .signOut caller ∧ o = .success flag := by
  cases t <;> cases o <;> simp_all [Task.signs]

lemma stack_ne_nil {s : State} (h : s.stack ≠ []) (t : Task) (o : Outcome) : t.stack s o ≠ [] := by
  unfold Task.stack
  split_ifs
  · exact goBack_ne_nil h
  · cases t.opens s.signedIn o with
    | none => exact h
    | some r => exact navigate_ne_nil r s.stack

/-- A callback that opens none but a login screen keeps a stack of them. -/
lemma loginStack_stack {s : State} (h : LoginStack s.stack) {t : Task} {o : Outcome}
    (hopens : ∀ r ∈ t.opens s.signedIn o, r ∈ loginScreens) : LoginStack (t.stack s o) := by
  unfold Task.stack
  split_ifs
  · exact h.suffix (goBack_suffix _)
  · cases hr : t.opens s.signedIn o with
    | none => exact h
    | some r => exact h.navigate (.inl (hopens r hr))

/-- A task comes to its end. -/
lemma Covered.finish {s : State} (h : Covered s) {i : ℕ} {t : Task} {o : Outcome}
    (ht : s.tasks[i]? = some t) (hg : Clears s (.finish i o)) :
    Covered (State.unmount ⟨t.stack s o, t.signs s.signedIn o,
      s.tasks.eraseIdx i ++ t.next (t.signs s.signedIn o) o⟩) := by
  refine Covered.unmount ⟨stack_ne_nil h.nonempty t o, fun hout => ?_⟩
  rcases signs_eq_false hout with hin | ⟨caller, flag, rfl, rfl⟩
  · obtain ⟨hprofile, halert, hopens⟩ := hg hin t ht
    by_cases hso : ∃ caller, t = .signedOut caller
    · right
      obtain ⟨caller, rfl⟩ := hso
      cases caller with
      | profile =>
        change LoginStack (navigate .loginName s.stack)
        have hclear := hprofile rfl
        unfold navigate
        split_ifs at hclear ⊢
        · exact hclear
        · exact hclear.push (.inl (by decide))
      | createFeed | loginPhone => exact halert (by simp)
    · rcases h.clear hin with ⟨caller, hmem⟩ | hlogin
      · have hne : Task.signedOut caller ≠ t := fun he => hso ⟨caller, he.symm⟩
        exact .inl ⟨caller, List.mem_append_left _ (Indexed.mem_eraseIdx_of_ne ht hmem hne)⟩
      · exact .inr (loginStack_stack hlogin hopens)
  · exact .inl ⟨caller, List.mem_append_right _ (by simp [Task.next])⟩

/-- A step whose callbacks clear the stack. -/
lemma covered_step {s s' : State} {e : Event} (h : Covered s) (hg : Clears s e)
    (hs : step s e = some s') : Covered s' := by
  cases e with
  | link r =>
    cases hstack : s.stack with
    | nil => exact absurd hstack h.nonempty
    | cons top below =>
      simp only [step, hstack] at hs
      split_ifs at hs with hr
      cases hs
      refine h.turn (navigate_ne_nil _ _) fun hlogin => ?_
      rw [hstack] at hlogin
      exact hlogin.navigate (by simpa using links_login hlogin.1 hr)
  | back =>
    cases hstack : s.stack with
    | nil => exact absurd hstack h.nonempty
    | cons top below =>
      simp only [step, hstack] at hs
      split_ifs at hs
      cases hs
      refine h.turn (goBack_ne_nil (by simp)) fun hlogin => ?_
      exact (hstack ▸ hlogin).suffix (goBack_suffix _)
  | hardwareBack =>
    simp only [step] at hs
    split_ifs at hs
    · cases hs
      exact h
    · cases hs
      exact h.turn (goBack_ne_nil h.nonempty) fun hlogin => hlogin.suffix (goBack_suffix _)
  | start t =>
    cases hstack : s.stack with
    | nil => exact absurd hstack h.nonempty
    | cons top below =>
      simp only [step, hstack] at hs
      split_ifs at hs
      cases hs
      refine ⟨by simp, fun hout => ?_⟩
      rw [← hstack]
      exact (h.clear hout).imp_left fun ⟨caller, hmem⟩ => ⟨caller, List.mem_append_left _ hmem⟩
  | finish i o =>
    obtain ⟨t, ht, rfl⟩ := Option.map_eq_some_iff.mp hs
    exact h.finish ht hg

def covering : Invariant step Clears where
  holds := Covered
  preserved := covered_step

/-- **A signed-out user sees login screens.** When every sign-out clears the stack down to a
`LoginName` above login screens, and no other screen is opened by a callback after it, no run
shows another screen to a user who is neither signed in nor about to be. -/
theorem not_exposed_of_clears (signedIn : Bool) (es : List Event)
    (h : Along step Clears (init signedIn) es) :
    Throughout step (fun s => ¬Exposed s) (init signedIn) es :=
  covering.throughout (fun _ hs => hs.not_exposed) (covered_init signedIn) h

/-- A new user signs in, looks at the profile and logs out, all in one start of the app. -/
def newUserRun : List Event :=
  [.finish 0 .failure, .link .loginName, .link .loginAvatar, .start .signInAnonymously,
    .finish 0 (.success false), .finish 0 (.success false), .link .profile,
    .start (.signOut .profile), .finish 0 (.success false), .finish 0 (.success false),
    .hardwareBack]

theorem not_exposed_of_clears_newUser :
    (run step (init false) newUserRun).isSome ∧
      Throughout step (fun s => ¬Exposed s) (init false) newUserRun :=
  ⟨by decide, not_exposed_of_clears false newUserRun (by decide)⟩

/-- The app is started by a signed-in user, who logs out and goes back. -/
def returningUserRun : List Event :=
  [.finish 0 .failure, .link .profile, .start (.signOut .profile), .finish 0 (.success false),
    .finish 0 (.success false), .hardwareBack]

/-- **A signed-out user sees the profile.** `navigate("LoginName")` finds no such route, so it
puts one on top of `Profile`. -/
theorem exposed_by_hardwareBack :
    ¬∀ (signedIn : Bool) (es : List Event),
      Throughout step (fun s => ¬Exposed s) (init signedIn) es := by
  intro h
  have hrun := h true returningUserRun
  revert hrun
  decide

end Wedcast.Navigation
