import Wedcast.Navigation

/-!
`App` around its navigator: the page its back button handler goes by, and the lock of the screen's
orientation.

The handler of the hardware back button reads `state.currentPage`, which `App` notes whenever the
name of the active route has changed. The lock is one for the whole app. The screens with a camera
or a photo unlock it, and lock it to portrait when they are left by their own buttons; the other
screens are laid out for portrait and rely on that. The back button of the device and callbacks
that run late leave them unlocked.
-/

namespace Wedcast.App

open Runs Navigation

/-- What the last call to `Orientation` has left. -/
inductive Lock where
  | unlocked | portrait | landscape
  deriving DecidableEq

structure State where
  nav : Navigation.State
  /-- `state.currentPage`; none is the empty string it starts with. -/
  currentPage : Option Route
  lock : Lock
  /-- The calls of `getOrientation` in `takePicture` not answered yet. -/
  captures : ℕ
  /-- The photos of the mounted `Main` that are being uploaded. -/
  uploads : ℕ
  deriving DecidableEq

def init (signedIn : Bool) : State := ⟨Navigation.init signedIn, none, .unlocked, 0, 0⟩

/-- The name of the active route. -/
def getCurrentRouteName (nav : Navigation.State) : Option Route := nav.stack.head?

/-- The handler of "hardwareBackPress" returns true. -/
def State.handlesBack (s : State) : Bool :=
  s.currentPage = some .walkthrough ∨ s.currentPage = some .menu

/-- The screens that turn with the device. -/
def rotating : List Route := [.main, .updateAvatar, .imageView]

/-- The screens with a `CameraComponent`. -/
def cameras : List Route := [.main, .updateAvatar]

/-- `componentDidMount` of the screen, or of its camera. -/
def mount (r : Route) (lock : Lock) : Lock :=
  match r with
  | .main | .updateAvatar | .imageView => .unlocked
  | .menu => .portrait
  | _ => lock

/-- What the handler or the callback calls before it navigates. -/
def State.call (s : State) : Navigation.Event → Lock
  | .link r =>
    match s.nav.stack.head?, r with
    -- `goToFeed`, `goToFeedUsers` and `navigateBack` of the camera
    | some .main, _ => .portrait
    | some .feed, .main | some .feedUsers, .main | some .weddingDetails, .main => .unlocked
    | _, .updateAvatar => .unlocked
    | _, _ => s.lock
  | .back =>
    match s.nav.stack.head? with
    | some .updateAvatar | some .imageView => .portrait
    | _ => s.lock
  | .finish i o =>
    -- `UpdateAvatar` resets its camera, and locks the screen after that
    if s.nav.tasks[i]? = some .upload ∧ Task.pops .upload o then .portrait else s.lock
  | .hardwareBack | .start _ => s.lock

/-- The navigator has changed its state: a screen that was not there is mounted, and
`onNavigationStateChange` runs. The callbacks of a `Main` that is gone do nothing. -/
def State.navigated (s : State) (nav : Navigation.State) (lock : Lock) : State :=
  let prevScreen := getCurrentRouteName s.nav
  let currentScreen := getCurrentRouteName nav
  { s with
    nav
    lock := currentScreen.elim lock fun r => if r ∈ s.nav.stack then lock else mount r lock
    currentPage := if prevScreen ≠ currentScreen then currentScreen else s.currentPage
    uploads := if .main ∈ nav.stack then s.uploads else 0 }

@[simp] lemma navigated_nav (s : State) (nav : Navigation.State) (lock : Lock) :
    (s.navigated nav lock).nav = nav := rfl

inductive Event where
  | nav (e : Navigation.Event)
  /-- The avatar of a cast is pressed by a user who is not its owner. -/
  | avatar
  | takePicture
  /-- `getOrientation` is answered. -/
  | orientation (isPortrait : Bool)
  /-- The button of the camera that calls `reset`. -/
  | close
  /-- `returnImage` of `Main` -/
  | upload
  /-- The photo is pushed, and the callback resets the camera unless there is an error. -/
  | pushed (error : Bool)
  deriving DecidableEq

/-- The step of the navigator, if the event is one. -/
def Event.nav? : Event → Option Navigation.Event
  | .nav e => some e
  | _ => none

/-- The active route is one of these. -/
def State.isOn (s : State) (routes : List Route) : Bool := s.nav.stack.head?.any (· ∈ routes)

def step (s : State) : Event → Option State
  | .nav .hardwareBack =>
    if s.handlesBack then some s
    else some (s.navigated (s.nav.turn (goBack s.nav.stack)) (s.call .hardwareBack))
  | .nav e => (Navigation.step s.nav e).map fun nav => s.navigated nav (s.call e)
  | .avatar => if s.isOn [.weddingDetails] then some { s with lock := .unlocked } else none
  | .takePicture => if s.isOn cameras then some { s with captures := s.captures + 1 } else none
  | .orientation isPortrait =>
    if 0 < s.captures then
      some { s with
        captures := s.captures - 1
        lock := if isPortrait then .portrait else .landscape }
    else none
  | .close => if s.isOn cameras then some { s with lock := .unlocked } else none
  | .upload => if s.isOn [.main] then some { s with uploads := s.uploads + 1 } else none
  | .pushed error =>
    if 0 < s.uploads then
      some { s with
        uploads := s.uploads - 1
        lock := if error then s.lock else .unlocked }
    else none

/-! ### The page of the handler -/

/-- `currentPage` is the active route, once that has changed. -/
def Noted (s : State) : Prop :=
  s.currentPage = s.nav.stack.head? ∨ s.currentPage = none ∧ s.nav.stack.head? = some .loading

lemma Noted.handlesBack_iff {s : State} (h : Noted s) :
    s.handlesBack ↔ s.nav.stack.head? = some .walkthrough ∨ s.nav.stack.head? = some .menu := by
  rcases h with h | ⟨hnone, hloading⟩
  · simp [State.handlesBack, h]
  · simp [State.handlesBack, hnone, hloading]

lemma Noted.navigated {s : State} (h : Noted s) (nav : Navigation.State) (lock : Lock) :
    Noted (s.navigated nav lock) := by
  simp only [Noted, State.navigated, getCurrentRouteName] at h ⊢
  by_cases hsame : s.nav.stack.head? = nav.stack.head?
  · simpa [hsame] using h
  · simp [hsame]

/-- A step of the navigator, with the calls of the screens; on two pages the handler drops it. -/
lemma step_nav {s s' : State} {e : Navigation.Event} (h : Noted s)
    (hs : step s (.nav e) = some s') : ∃ nav, Navigation.step s.nav e = some nav ∧
      (s' = s.navigated nav (s.call e) ∨ nav = s.nav ∧ s' = s) := by
  cases e with
  | hardwareBack =>
    simp only [step] at hs
    simp only [Navigation.step]
    split_ifs at hs with hback
    · cases hs
      exact ⟨s.nav, if_pos (h.handlesBack_iff.mp hback), .inr ⟨rfl, rfl⟩⟩
    · cases hs
      exact ⟨_, if_neg fun hpage => hback (h.handlesBack_iff.mpr hpage), .inl rfl⟩
  | link | back | start | finish =>
    obtain ⟨nav, hnav, rfl⟩ := Option.map_eq_some_iff.mp hs
    exact ⟨nav, hnav, .inl rfl⟩

/-- Any other step leaves the navigator alone. -/
lemma step_other {s s' : State} {e : Event} (he : e.nav? = none) (hs : step s e = some s') :
    s'.nav = s.nav ∧ s'.currentPage = s.currentPage := by
  cases e with
  | nav e => cases he
  | avatar | takePicture | orientation | close | upload | pushed =>
    simp only [step] at hs
    split_ifs at hs <;> cases hs <;> exact ⟨rfl, rfl⟩

lemma noted_step {s s' : State} {e : Event} (h : Noted s) (hs : step s e = some s') : Noted s' := by
  cases he : e.nav? with
  | none =>
    obtain ⟨hnav, hpage⟩ := step_other he hs
    rwa [Noted, hnav, hpage]
  | some e' =>
    obtain rfl : e = .nav e' := by
      cases e <;> cases he
      rfl
    obtain ⟨nav, -, rfl | ⟨-, rfl⟩⟩ := step_nav h hs
    · exact h.navigated nav _
    · exact h

def page : Invariant step fun _ _ => True where
  holds := Noted
  preserved h _ hs := noted_step h hs

/-- Each step of `App` is one of the navigator, or none. -/
def simulation : Simulation step Navigation.step State.nav Event.nav? where
  invariant := page
  simulates {s s' e} h hs := by
    cases he : e.nav? with
    | none => exact (step_other he hs).1
    | some e' =>
      obtain rfl : e = .nav e' := by
        cases e <;> cases he
        rfl
      obtain ⟨nav, hnav, rfl | ⟨rfl, rfl⟩⟩ := step_nav h hs
      · exact hnav
      · exact hnav

/-- **The handler goes by the active route.** Every run of `App` is a run of the navigator in which
the back button of the device does nothing on `Walkthrough` and on `Menu`. -/
theorem run_navigation (signedIn : Bool) {es : List Event} {s : State}
    (h : run step (init signedIn) es = some s) :
    run Navigation.step (Navigation.init signedIn) (es.filterMap Event.nav?) = some s.nav :=
  simulation.run (.inr ⟨rfl, rfl⟩) h

/-- A new user presses the back button on `Walkthrough`, and on the screen after it. -/
def backRun : List Event :=
  [.nav (.finish 0 .failure), .nav .hardwareBack, .nav (.link .loginName), .nav (.link .loginAvatar),
    .nav (.link .updateAvatar), .takePicture, .orientation false, .nav .hardwareBack]

theorem run_navigation_back :
    ∃ s, run step (init false) backRun = some s ∧
      run Navigation.step (Navigation.init false) (backRun.filterMap Event.nav?) = some s.nav := by
  have hsome : (run step (init false) backRun).isSome := by decide
  obtain ⟨s, hs⟩ := Option.isSome_iff_exists.mp hsome
  exact ⟨s, hs, run_navigation false hs⟩

/-! ### The lock -/

/-- A screen laid out for portrait is active, with the menu in the stack. -/
def Fixed (stack : List Route) : Prop := .menu ∈ stack ∧ ∀ r ∈ stack.head?, r ∉ rotating

/-- Such a screen is locked to portrait. -/
def Upright (s : State) : Prop := Fixed s.nav.stack → s.lock = .portrait

/-- A device's back button and a callback that lead to a fixed screen find the app locked to
portrait or lock it, and no callback of a camera, nor the avatar of a cast, unlocks one. -/
def LeavesLock (s : State) : Event → Prop
  | .nav .hardwareBack => Fixed (goBack s.nav.stack) → s.lock = .portrait
  | .nav (.finish i o) => ∀ t ∈ s.nav.tasks[i]?, Fixed (t.stack s.nav o) →
      s.call (.finish i o) = .portrait ∨ .menu ∉ s.nav.stack
  | .avatar | .orientation false | .pushed false => ¬Fixed s.nav.stack
  | _ => True

instance (stack : List Route) : Decidable (Fixed stack) :=
  inferInstanceAs (Decidable (_ ∧ ∀ r ∈ stack.head?, r ∉ rotating))

instance (s : State) : Decidable (Upright s) := inferInstanceAs (Decidable (_ → _))

instance (s : State) : (e : Event) → Decidable (LeavesLock s e)
  | .nav .hardwareBack => inferInstanceAs (Decidable (_ → _))
  | .nav (.finish _ _) => inferInstanceAs (Decidable (∀ t ∈ _, _ → _ ∨ _))
  | .avatar | .orientation false | .pushed false => inferInstanceAs (Decidable (¬_))
  | .nav (.link _) | .nav .back | .nav (.start _) | .takePicture | .close | .upload
  | .orientation true | .pushed true => isTrue trivial

/-- The navigator goes back some way, or a new screen comes on top. -/
def Turns (stack stack' : List Route) : Prop :=
  stack' <:+ stack ∨ ∃ r, r ∉ stack ∧ stack' = r :: stack

lemma head?_navigate (r : Route) (stack : List Route) : (navigate r stack).head? = some r := by
  unfold navigate
  split_ifs with h
  · have hne : stack.dropWhile (· ≠ r) ≠ [] := by
      have hnavigate := navigate_ne_nil r stack
      rwa [navigate, if_pos h] at hnavigate
    have hhead := List.head_dropWhile_not (· ≠ r) hne
    rw [List.head?_eq_some_head hne]
    simpa using hhead
  · rfl

lemma turns_navigate (r : Route) (stack : List Route) : Turns stack (navigate r stack) := by
  unfold navigate
  split_ifs with h
  · exact .inl (List.dropWhile_suffix _)
  · exact .inr ⟨r, h, rfl⟩

lemma turns_stack (s : Navigation.State) (t : Task) (o : Outcome) :
    Turns s.stack (t.stack s o) := by
  unfold Task.stack
  split_ifs
  · exact .inl (goBack_suffix _)
  · cases t.opens s.signedIn o with
    | none => exact .inl List.suffix_rfl
    | some r => exact turns_navigate r s.stack

lemma start_stack {s s' : Navigation.State} {t : Task}
    (h : Navigation.step s (.start t) = some s') : s'.stack = s.stack := by
  simp only [Navigation.step] at h
  split at h
  · split_ifs at h
    cases h
    rfl
  · cases h

lemma turns_step {s s' : Navigation.State} {e : Navigation.Event}
    (h : Navigation.step s e = some s') : Turns s.stack s'.stack := by
  cases e with
  | link r =>
    simp only [Navigation.step] at h
    split at h
    · split_ifs at h
      cases h
      rw [turn_stack]
      exact turns_navigate r s.stack
    · cases h
  | back =>
    simp only [Navigation.step] at h
    split at h
    · split_ifs at h
      cases h
      rw [turn_stack]
      exact .inl (goBack_suffix _)
    · cases h
  | hardwareBack =>
    simp only [Navigation.step] at h
    split_ifs at h <;> cases h
    · exact .inl List.suffix_rfl
    · rw [turn_stack]
      exact .inl (goBack_suffix _)
  | start t =>
    rw [start_stack h]
    exact .inl List.suffix_rfl
  | finish i o =>
    obtain ⟨t, -, rfl⟩ := Option.map_eq_some_iff.mp h
    rw [unmount_stack]
    exact turns_stack s t o

/-- **What a turn leaves**: a fixed screen is upright if it was locked before the turn, or if the
turn has mounted the menu. -/
lemma upright_navigated {s : State} {nav : Navigation.State} {lock : Lock}
    (h : Turns s.nav.stack nav.stack) : Upright (s.navigated nav lock) ↔
      (Fixed nav.stack → lock = .portrait ∨ .menu ∉ s.nav.stack) := by
  rcases h with hsuffix | ⟨r, hr, hstack⟩
  · have hlock : (s.navigated nav lock).lock = lock := by
      cases hhead : nav.stack.head? with
      | none => simp [State.navigated, getCurrentRouteName, hhead]
      | some r =>
        have hmem : r ∈ s.nav.stack := hsuffix.subset (List.mem_of_head? hhead)
        simp [State.navigated, getCurrentRouteName, hhead, hmem]
    rw [Upright, hlock, navigated_nav]
    refine forall_congr' fun hfixed => ?_
    have hmenu : .menu ∈ s.nav.stack := hsuffix.subset hfixed.1
    simp [hmenu]
  · have hlock : (s.navigated nav lock).lock = mount r lock := by
      simp [State.navigated, getCurrentRouteName, hstack, hr]
    rw [Upright, hlock, navigated_nav]
    refine forall_congr' fun hfixed => ?_
    have hr' : r ∉ rotating := hfixed.2 r (by simp [hstack])
    by_cases hmenu : r = .menu
    · subst hmenu
      simp [mount, hr]
    · have hmem : .menu ∈ s.nav.stack := by
        have hin := hfixed.1
        rw [hstack] at hin
        exact (List.mem_cons.mp hin).resolve_left (Ne.symm hmenu)
      have hmount : mount r lock = lock := by
        cases r <;> simp_all [mount, rotating]
      simp [hmount, hmem]

/-- A button of a fixed screen, or the one that leaves a camera, finds the app locked or locks
it. -/
lemma call_of_fixed {s : State} {nav : Navigation.State} {e : Navigation.Event} (h : Upright s)
    (hs : Navigation.step s.nav e = some nav) (he : e = .back ∨ ∃ r, e = .link r)
    (hfixed : Fixed nav.stack) : s.call e = .portrait ∨ .menu ∉ s.nav.stack := by
  by_cases hmenu : .menu ∈ s.nav.stack
  · left
    cases hstack : s.nav.stack with
    | nil => simp [hstack] at hmenu
    | cons top below =>
      have hlock : top ∉ rotating → s.lock = .portrait := fun htop =>
        h ⟨hmenu, by simpa [hstack] using htop⟩
      rcases he with rfl | ⟨r, rfl⟩
      · simp only [Navigation.step, hstack] at hs
        split_ifs at hs with hback
        cases top <;> simp_all [State.call, backButtons, rotating]
      · simp only [Navigation.step, hstack] at hs
        split_ifs at hs with hlink
        cases hs
        rw [turn_stack] at hfixed
        have hr : r ∉ rotating := hfixed.2 r (head?_navigate r _)
        cases top <;> simp_all [State.call, links, rotating]
  · exact .inr hmenu

/-- Going back from a fixed screen leads to none that is not locked. -/
lemma portrait_of_goBack {s : State} (h : Upright s) (htop : ∀ r ∈ s.nav.stack.head?, r ∉ rotating)
    (hfixed : Fixed (goBack s.nav.stack)) : s.lock = .portrait :=
  h ⟨(goBack_suffix _).subset hfixed.1, htop⟩

/-- **One step** leaves a fixed screen locked to portrait exactly if it leaves the lock. -/
lemma upright_step {s s' : State} {e : Event} (hnoted : Noted s) (h : Upright s)
    (hs : step s e = some s') : Upright s' ↔ LeavesLock s e := by
  cases e with
  | nav e =>
    cases e with
    | hardwareBack =>
      simp only [step] at hs
      split_ifs at hs with hback
      · cases hs
        refine iff_of_true h (portrait_of_goBack h fun r hr => ?_)
        rcases hnoted.handlesBack_iff.mp hback with hpage | hpage
        · obtain rfl : .walkthrough = r := by simpa [hpage] using hr
          decide
        · obtain rfl : .menu = r := by simpa [hpage] using hr
          decide
      · cases hs
        have hturns : Turns s.nav.stack (s.nav.turn (goBack s.nav.stack)).stack := by
          rw [turn_stack]
          exact .inl (goBack_suffix _)
        rw [upright_navigated hturns, turn_stack]
        refine forall_congr' fun hfixed => ?_
        have hmenu : .menu ∈ s.nav.stack := (goBack_suffix _).subset hfixed.1
        simp [State.call, hmenu]
    | link r =>
      obtain ⟨nav, hnav, rfl⟩ := Option.map_eq_some_iff.mp hs
      refine iff_of_true ((upright_navigated (turns_step hnav)).mpr ?_) trivial
      exact call_of_fixed h hnav (.inr ⟨r, rfl⟩)
    | back =>
      obtain ⟨nav, hnav, rfl⟩ := Option.map_eq_some_iff.mp hs
      refine iff_of_true ((upright_navigated (turns_step hnav)).mpr ?_) trivial
      exact call_of_fixed h hnav (.inl rfl)
    | start t =>
      obtain ⟨nav, hnav, rfl⟩ := Option.map_eq_some_iff.mp hs
      refine iff_of_true ((upright_navigated (turns_step hnav)).mpr fun hfixed => ?_) trivial
      rw [start_stack hnav] at hfixed
      exact .inl (h hfixed)
    | finish i o =>
      obtain ⟨nav, hnav, rfl⟩ := Option.map_eq_some_iff.mp hs
      rw [upright_navigated (turns_step hnav)]
      obtain ⟨t, ht, rfl⟩ := Option.map_eq_some_iff.mp hnav
      simp [LeavesLock, ht]
  | avatar =>
    simp only [step] at hs
    split_ifs at hs
    cases hs
    simp [Upright, LeavesLock]
  | takePicture | upload =>
    simp only [step] at hs
    split_ifs at hs
    cases hs
    exact iff_of_true h trivial
  | orientation isPortrait =>
    simp only [step] at hs
    split_ifs at hs with _ hportrait
    · cases hs
      subst hportrait
      simp [Upright, LeavesLock]
    · cases hs
      obtain rfl : isPortrait = false := by simpa using hportrait
      simp [Upright, LeavesLock]
  | close =>
    simp only [step] at hs
    split_ifs at hs with hcamera
    cases hs
    refine iff_of_true (fun hfixed => ?_) trivial
    obtain ⟨r, hr, hmem⟩ := (Option.any_eq_true _ _).mp hcamera
    have hrotating : r ∈ rotating := by
      simp only [cameras, List.mem_cons, List.not_mem_nil, decide_eq_true_eq, or_false] at hmem
      rcases hmem with rfl | rfl <;> decide
    exact absurd hrotating (hfixed.2 r hr)
  | pushed error =>
    simp only [step] at hs
    split_ifs at hs with _ herror
    · cases hs
      subst herror
      exact iff_of_true h trivial
    · cases hs
      obtain rfl : error = false := by simpa using herror
      simp [Upright, LeavesLock]

def keepsLock : Invariant step LeavesLock where
  holds s := Noted s ∧ Upright s
  preserved h hg hs := ⟨noted_step h.1 hs, (upright_step h.1 h.2 hs).mpr hg⟩

/-- **The fixed screens stay upright.** Over the menu, every screen that is laid out for portrait
is locked to it, in every state of a run, exactly if every step leaves the lock: the device's back
button and callbacks never lead from an unlocked screen to a fixed one, and nothing unlocks a fixed
one. -/
theorem upright_iff_leavesLock (signedIn : Bool) (es : List Event) :
    Throughout step Upright (init signedIn) es ↔ Along step LeavesLock (init signedIn) es :=
  keepsLock.throughout_iff (fun _ h => h.2) (fun _ _ _ h hs h' => (upright_step h.1 h.2 hs).mp h')
    ⟨.inr ⟨rfl, rfl⟩, fun h => absurd h.1 (by simp [init, Navigation.init])⟩

/-- A guest uploads a photo, and looks at the feed before the upload has finished. -/
example : ¬Throughout step Upright (init true)
    [.nav (.finish 0 .failure), .nav (.start .goToFeed), .nav (.finish 0 (.success true)),
      .nav (.link .main), .takePicture, .orientation true, .upload, .nav (.link .feed),
      .pushed false] := by
  decide

end Wedcast.App
