import Wedcast.CurrentUser
import Wedcast.Lib.Indexed
import Wedcast.MemberRecords

/-!
"Done" on the `LoginAvatar` screen.

With a `currentUser` the button updates the profile and goes on to `Menu`. Without one it puts up a
spinner, signs in anonymously, updates the profile, writes it to the database, and only the
callback of that write takes the spinner down. The handlers of the errors before it do nothing, so
the spinner stays as soon as the last chain of steps that could take it down breaks off.
-/

namespace Wedcast.LoginAvatar

open Runs Indexed Wedcast.Membership MemberRecords

/-- A step of `handleLogin` that has been started and has not ended. -/
inductive Task where
  /-- The update of the profile of a `currentUser`. -/
  | updateProfile (displayName photoURL : Option Text)
  /-- The anonymous sign-in; `user` is the account it creates or finds. -/
  | signIn (user : User)
  /-- The update of the profile behind the sign-in. -/
  | saveProfile (displayName photoURL : Option Text)
  /-- The write of `users/<uid>/profile`. -/
  | setProfile (user : User)
  /-- The write under the members of the example cast. -/
  | setMember (user : User) (write : Write)
  /-- The write to the user's `feedList`. -/
  | setFeedList (write : Write)
  deriving DecidableEq

structure State where
  currentUser : Option User
  userName : Option Text
  avatarUri : Option Text
  showProfileOverlay : Bool
  errorMessage : Option String
  /-- `firebase.auth().currentUser` -/
  auth : Option User
  /-- How often "Done" has been pressed. -/
  presses : ℕ
  /-- The steps under way, each with the press it belongs to. -/
  tasks : List (ℕ × Task)
  /-- The presses that have navigated to `Menu`. -/
  menus : List ℕ
  deriving DecidableEq

/-- A parent renders the screen; no update writes the `navigation` it compares with. -/
def receive (param : Option User) (s : State) : State :=
  { s with
    currentUser := (CurrentUser.getDerivedStateFromProps (some param) none).getD s.currentUser }

/-- The first render and `componentDidMount`. -/
def mount (auth param : Option User) (userName : Option Text) : State :=
  receive param
    { currentUser := none
      userName
      avatarUri := none
      showProfileOverlay := false
      errorMessage := none
      auth
      presses := 0
      tasks := []
      menus := [] }

def State.start (s : State) (p : ℕ) (t : Task) : State := { s with tasks := s.tasks ++ [(p, t)] }

/-- The account gets a new profile. -/
def State.update (s : State) (displayName photoURL : Option Text) : State :=
  { s with auth := s.auth.map fun user => { user with displayName, photoURL } }

def handleLogin (anonymous : User) (s : State) : State :=
  let p := s.presses
  let s := { s with presses := p + 1 }
  match s.currentUser with
  | some _ => s.start p (.updateProfile s.userName s.avatarUri)
  | none => { s with showProfileOverlay := true }.start p (.signIn anonymous)

/-- The callback of a step of press `p`. -/
def onSettled (p : ℕ) (ok : Bool) (s : State) : Task → State
  | .updateProfile displayName photoURL =>
    if ok then { s.update displayName photoURL with menus := p :: s.menus } else s
  | .signIn user =>
    -- the `then` behind the `catch` runs in either case
    let s := if ok then { s with auth := some user } else s
    match s.auth with
    | some _ => s.start p (.saveProfile s.userName s.avatarUri)
    | none => s
  | .saveProfile displayName photoURL =>
    if ok then
      let s := s.update displayName photoURL
      match s.auth with
      | some user => s.start p (.setProfile user)
      | none => s -- `null.uid` throws
    else s
  | .setProfile user =>
    if ok then
      match s.auth with
      | some account =>
        let userObj := Writer.userObj user .handleLogin
        { s with menus := p :: s.menus, showProfileOverlay := false }.start p
          (.setMember user (.member exampleId account.uid userObj))
      | none => s -- `null.uid` throws
    else { s with showProfileOverlay := false }
  | .setMember user _ =>
    if ok then s.start p (.setFeedList (.feedList user.uid exampleId exampleWedcast))
    else { s with errorMessage := some "Incorrect password" }
  | .setFeedList _ => s

inductive Event where
  | render (param : Option User)
  | returnData (avatarUri : Text)
  /-- "Done" is pressed; a sign-in would lead to the account `anonymous`. -/
  | done (anonymous : User)
  /-- The `i`-th step under way ends. -/
  | settle (i : ℕ) (ok : Bool)
  deriving DecidableEq

/-- The button is disabled without a picture. -/
def step (s : State) : Event → Option State
  | .render param => some (receive param s)
  | .returnData avatarUri => some { s with avatarUri := some avatarUri }
  | .done anonymous => if s.avatarUri.any (· ≠ []) then some (handleLogin anonymous s) else none
  | .settle i ok =>
    (s.tasks[i]?).map fun (p, t) => onSettled p ok { s with tasks := s.tasks.eraseIdx i } t

/-! ### What the presses have achieved -/

structure Log where
  /-- The presses without a `currentUser`. -/
  fresh : List ℕ
  /-- The presses whose update of the profile has succeeded. -/
  updated : List ℕ
  /-- The presses whose write of `users/<uid>/profile` has succeeded. -/
  saved : List ℕ
  deriving DecidableEq

/-- A step of press `p` has succeeded. -/
def Log.succeed (log : Log) (p : ℕ) : Task → Log
  | .updateProfile _ _ | .saveProfile _ _ => { log with updated := p :: log.updated }
  | .setProfile _ => { log with saved := p :: log.saved }
  | _ => log

def note (x : State × Log) (e : Event) (_ : State) : Log :=
  match e with
  | .done _ =>
    if x.1.currentUser = none then { x.2 with fresh := x.1.presses :: x.2.fresh } else x.2
  | .settle i true => (x.1.tasks[i]?).elim x.2 fun (p, t) => x.2.succeed p t
  | _ => x.2

/-- The press has updated the profile and, if the account is new, written it. -/
def Log.Completes (log : Log) (p : ℕ) : Prop := p ∈ log.updated ∧ (p ∈ log.fresh → p ∈ log.saved)

/-- The presses that have gone on to `Menu` are those that have succeeded. -/
def Opened (x : State × Log) : Prop := ∀ p < x.1.presses, p ∈ x.1.menus ↔ x.2.Completes p

/-- When no step is under way, the spinner is down, and `Menu` has been opened as it should. -/
def Ended (x : State × Log) : Prop := x.1.tasks = [] → x.1.showProfileOverlay = false ∧ Opened x

/-- The step belongs to a chain that ends in taking the spinner down. -/
def Task.chained : Task → Bool
  | .signIn _ | .saveProfile _ _ | .setProfile _ => true
  | _ => false

/-- The step breaks off its chain: a sign-in that fails with nobody signed in, an update that
fails. -/
def Task.breaksOff (auth : Option User) (ok : Bool) : Task → Bool
  | .signIn _ => !ok && auth.isNone
  | .saveProfile _ _ => !ok
  | _ => false

/-- While the spinner is up, a chain breaks off only beside another one. -/
def Unbroken (s : State) : Event → Prop
  | .settle i ok => ∀ x ∈ s.tasks[i]?, x.2.breaksOff s.auth ok → s.showProfileOverlay →
      ∃ y ∈ s.tasks.eraseIdx i, y.2.chained
  | _ => True

/-- The steps under way can still take the spinner down. -/
def CanEnd (s : State) : Prop :=
  ∃ es s', (∀ e ∈ es, ∃ i ok, e = .settle i ok) ∧ run step s es = some s' ∧
    s'.showProfileOverlay = false

instance (log : Log) (p : ℕ) : Decidable (log.Completes p) := inferInstanceAs (Decidable (_ ∧ _))

instance (x : State × Log) : Decidable (Opened x) :=
  inferInstanceAs (Decidable (∀ p < x.1.presses, _))

instance (x : State × Log) : Decidable (Ended x) := inferInstanceAs (Decidable (_ → _ ∧ Opened x))

instance (s : State) : (e : Event) → Decidable (Unbroken s e)
  | .settle _ _ => inferInstanceAs (Decidable (∀ x ∈ _, _ → _ → ∃ y ∈ _, _))
  | .render _ | .returnData _ | .done _ => isTrue trivial

/-! ### The end of one step -/

/-- The step needs somebody signed in when it ends. -/
def Task.needsUser : Task → Bool
  | .saveProfile _ _ | .setProfile _ => true
  | _ => false

/-- Somebody is signed in while such a step is under way. -/
def Signed (s : State) : Prop := ∀ x ∈ s.tasks, x.2.needsUser → s.auth.isSome

/-- While the spinner is up, a chain is under way. -/
def Chained (s : State) : Prop := s.showProfileOverlay → ∃ x ∈ s.tasks, x.2.chained

@[simp] lemma update_auth_isSome (s : State) (displayName photoURL : Option Text) :
    (s.update displayName photoURL).auth.isSome = s.auth.isSome := Option.isSome_map

lemma Signed.start {s : State} (h : Signed s) (p : ℕ) {t : Task}
    (ht : t.needsUser → s.auth.isSome) : Signed (s.start p t) := by
  intro x hx hneeds
  rcases List.mem_append.mp hx with hx | hx
  · exact h x hx hneeds
  · obtain rfl := List.mem_singleton.mp hx
    exact ht hneeds

/-- How a step can end: with an update of the account or of the screen alone, or with the next
step of its press. -/
lemma onSettled_cases (p : ℕ) (ok : Bool) (s : State) (t : Task) :
    match t with
    | .updateProfile displayName photoURL => onSettled p ok s t =
        if ok then { s.update displayName photoURL with menus := p :: s.menus } else s
    | .signIn _ => t.breaksOff s.auth ok ∧ onSettled p ok s t = s ∨
        ∃ auth, auth.isSome ∧ onSettled p ok s t =
          { s with auth := auth }.start p (.saveProfile s.userName s.avatarUri)
    | .saveProfile displayName photoURL => t.breaksOff s.auth ok ∧ onSettled p ok s t = s ∨
        ok ∧ s.auth = none ∧ onSettled p ok s t = s.update displayName photoURL ∨
        ok ∧ ∃ user, s.auth.isSome ∧ onSettled p ok s t =
          (s.update displayName photoURL).start p (.setProfile user)
    | .setProfile _ => ok = false ∧ onSettled p ok s t = { s with showProfileOverlay := false } ∨
        ok ∧ s.auth = none ∧ onSettled p ok s t = s ∨
        ok ∧ s.auth.isSome ∧ ∃ user write, onSettled p ok s t =
          { s with menus := p :: s.menus, showProfileOverlay := false }.start p
            (.setMember user write)
    | .setMember _ _ => onSettled p ok s t = { s with errorMessage := some "Incorrect password" } ∨
        ∃ write, onSettled p ok s t = s.start p (.setFeedList write)
    | .setFeedList _ => onSettled p ok s t = s := by
  cases t with
  | updateProfile | setFeedList => rfl
  | signIn user =>
    cases ok with
    | true => exact .inr ⟨some user, rfl, rfl⟩
    | false =>
      cases hauth : s.auth with
      | none => exact .inl ⟨by simp [Task.breaksOff], by simp [onSettled, hauth]⟩
      | some account =>
        have hstart : onSettled p false s (.signIn user) =
            s.start p (.saveProfile s.userName s.avatarUri) := by
          simp [onSettled, hauth]
        exact .inr ⟨s.auth, by rw [hauth]; rfl, hstart⟩
  | saveProfile displayName photoURL =>
    cases ok with
    | false => exact .inl ⟨rfl, rfl⟩
    | true =>
      cases hauth : s.auth with
      | none => exact .inr (.inl ⟨rfl, rfl, by simp [onSettled, State.update, hauth]⟩)
      | some account =>
        refine .inr (.inr ⟨rfl, { account with displayName, photoURL }, rfl, ?_⟩)
        simp [onSettled, State.update, hauth]
  | setProfile user =>
    cases ok with
    | false => exact .inl ⟨rfl, rfl⟩
    | true =>
      cases hauth : s.auth with
      | none => exact .inr (.inl ⟨rfl, rfl, by simp [onSettled, hauth]⟩)
      | some account =>
        refine .inr (.inr ⟨rfl, rfl, user,
          .member exampleId account.uid (Writer.userObj user .handleLogin), ?_⟩)
        simp [onSettled, hauth]
  | setMember user write =>
    cases ok with
    | false => exact .inl rfl
    | true => exact .inr ⟨_, rfl⟩

/-- The step that another one starts when it ends. -/
def Task.Next : Task → Task → Prop
  | .signIn _, .saveProfile _ _ | .saveProfile _ _, .setProfile _
  | .setProfile _, .setMember _ _ | .setMember _ _, .setFeedList _ => True
  | _, _ => False

/-- The steps under way after one has ended: the others, and maybe the next one of its press. -/
lemma onSettled_tasks (p : ℕ) (ok : Bool) (s : State) (t : Task) :
    (onSettled p ok s t).tasks = s.tasks ∨ ∃ t', t.Next t' ∧
      (t'.needsUser → (onSettled p ok s t).auth.isSome) ∧
        (onSettled p ok s t).tasks = s.tasks ++ [(p, t')] := by
  have hcases := onSettled_cases p ok s t
  cases t with
  | updateProfile displayName photoURL =>
    left
    rw [hcases]
    split_ifs <;> rfl
  | signIn user =>
    rcases hcases with ⟨-, heq⟩ | ⟨auth, hauth, heq⟩ <;> rw [heq]
    · exact .inl rfl
    · exact .inr ⟨.saveProfile s.userName s.avatarUri, trivial, fun _ => hauth, rfl⟩
  | saveProfile displayName photoURL =>
    rcases hcases with ⟨-, heq⟩ | ⟨-, -, heq⟩ | ⟨-, user, hauth, heq⟩ <;> rw [heq]
    · exact .inl rfl
    · exact .inl rfl
    · refine .inr ⟨.setProfile user, trivial, fun _ => ?_, rfl⟩
      exact (update_auth_isSome s displayName photoURL).trans hauth
  | setProfile user =>
    rcases hcases with ⟨-, heq⟩ | ⟨-, -, heq⟩ | ⟨-, -, user, write, heq⟩ <;> rw [heq]
    · exact .inl rfl
    · exact .inl rfl
    · exact .inr ⟨.setMember user write, trivial, by simp [Task.needsUser], rfl⟩
  | setMember user write =>
    rcases hcases with heq | ⟨write, heq⟩ <;> rw [heq]
    · exact .inl rfl
    · exact .inr ⟨.setFeedList write, trivial, by simp [Task.needsUser], rfl⟩
  | setFeedList write => exact .inl (by rw [hcases])

lemma mem_onSettled {s : State} {x : ℕ × Task} (hx : x ∈ s.tasks) (p : ℕ) (ok : Bool) (t : Task) :
    x ∈ (onSettled p ok s t).tasks := by
  rcases onSettled_tasks p ok s t with htasks | ⟨t', -, -, htasks⟩ <;> rw [htasks]
  · exact hx
  · exact List.mem_append_left _ hx

/-- Nobody is signed out. -/
lemma auth_onSettled {s : State} (h : s.auth.isSome) (p : ℕ) (ok : Bool) (t : Task) :
    (onSettled p ok s t).auth.isSome := by
  have hupdate : ∀ displayName photoURL, (s.update displayName photoURL).auth.isSome :=
    fun displayName photoURL => (update_auth_isSome s displayName photoURL).trans h
  have hcases := onSettled_cases p ok s t
  cases t with
  | updateProfile displayName photoURL =>
    rw [hcases]
    split_ifs
    · exact hupdate _ _
    · exact h
  | signIn user =>
    rcases hcases with ⟨-, heq⟩ | ⟨auth, hauth, heq⟩ <;> rw [heq]
    · exact h
    · exact hauth
  | saveProfile displayName photoURL =>
    rcases hcases with ⟨-, heq⟩ | ⟨-, -, heq⟩ | ⟨-, user, -, heq⟩ <;> rw [heq]
    · exact h
    · exact hupdate _ _
    · exact hupdate _ _
  | setProfile user =>
    rcases hcases with ⟨-, heq⟩ | ⟨-, -, heq⟩ | ⟨-, -, user, write, heq⟩ <;> rw [heq] <;> exact h
  | setMember user write =>
    rcases hcases with heq | ⟨write, heq⟩ <;> rw [heq] <;> exact h
  | setFeedList write =>
    rw [hcases]
    exact h

lemma signed_onSettled {s : State} (h : Signed s) (p : ℕ) (ok : Bool) (t : Task) :
    Signed (onSettled p ok s t) := by
  intro x hx hneeds
  rcases onSettled_tasks p ok s t with htasks | ⟨t', -, hauth, htasks⟩ <;> rw [htasks] at hx
  · exact auth_onSettled (h x hx hneeds) p ok t
  · rcases List.mem_append.mp hx with hx | hx
    · exact auth_onSettled (h x hx hneeds) p ok t
    · obtain rfl := List.mem_singleton.mp hx
      exact hauth hneeds

lemma onSettled_of_breaksOff {s : State} {ok : Bool} {t : Task} (h : t.breaksOff s.auth ok)
    (p : ℕ) : onSettled p ok s t = s := by
  cases t with
  | signIn user =>
    simp only [Task.breaksOff, Bool.and_eq_true, Bool.not_eq_true', Option.isNone_iff_eq_none] at h
    obtain ⟨rfl, hauth⟩ := h
    simp [onSettled, hauth]
  | saveProfile displayName photoURL =>
    obtain rfl : ok = false := by simpa [Task.breaksOff] using h
    rfl
  | updateProfile | setProfile | setMember | setFeedList => simp [Task.breaksOff] at h

/-- A chain that is not broken off goes on, or takes the spinner down. -/
lemma chained_onSettled {s : State} {ok : Bool} {t : Task} (ht : t.chained)
    (hb : t.breaksOff s.auth ok = false) (hsigned : t.needsUser → s.auth.isSome) (p : ℕ) :
    Chained (onSettled p ok s t) := by
  have hcases := onSettled_cases p ok s t
  cases t with
  | signIn user =>
    rcases hcases with ⟨hb', -⟩ | ⟨auth, -, heq⟩
    · simp [hb] at hb'
    · rw [heq]
      exact fun _ => ⟨_, List.mem_append_right _ (List.mem_singleton_self _), rfl⟩
  | saveProfile displayName photoURL =>
    rcases hcases with ⟨hb', -⟩ | ⟨-, hauth, -⟩ | ⟨-, user, -, heq⟩
    · simp [hb] at hb'
    · simp [hauth, Task.needsUser] at hsigned
    · rw [heq]
      exact fun _ => ⟨_, List.mem_append_right _ (List.mem_singleton_self _), rfl⟩
  | setProfile user =>
    rcases hcases with ⟨-, heq⟩ | ⟨-, hauth, -⟩ | ⟨-, -, user, write, heq⟩
    · simp [heq, Chained]
    · simp [hauth, Task.needsUser] at hsigned
    · simp [heq, Chained, State.start]
  | updateProfile | setMember | setFeedList => simp [Task.chained] at ht

/-- The other steps leave the spinner and the chains alone. -/
lemma overlay_onSettled {t : Task} (ht : t.chained = false) (p : ℕ) (ok : Bool) (s : State) :
    (onSettled p ok s t).showProfileOverlay = s.showProfileOverlay := by
  have hcases := onSettled_cases p ok s t
  cases t with
  | updateProfile displayName photoURL =>
    rw [hcases]
    split_ifs <;> rfl
  | setMember user write =>
    rcases hcases with heq | ⟨write, heq⟩
    · rw [heq]
    · rw [heq]
      rfl
  | setFeedList write => rw [hcases]
  | signIn | saveProfile | setProfile => simp [Task.chained] at ht

lemma Task.Next.chained {t t' : Task} (h : t.Next t') (ht' : t'.chained) : t.chained := by
  cases t <;> cases t' <;> simp_all [Task.Next, Task.chained]

lemma chained_of_onSettled {s : State} {t : Task} (ht : t.chained = false) {p : ℕ} {ok : Bool}
    (h : Chained (onSettled p ok s t)) : Chained s := by
  intro hup
  rw [← overlay_onSettled ht p ok] at hup
  obtain ⟨x, hx, hchain⟩ := h hup
  rcases onSettled_tasks p ok s t with htasks | ⟨t', hnext, -, htasks⟩ <;> rw [htasks] at hx
  · exact ⟨x, hx, hchain⟩
  · rcases List.mem_append.mp hx with hx | hx
    · exact ⟨x, hx, hchain⟩
    · obtain rfl := List.mem_singleton.mp hx
      simp [hnext.chained hchain] at ht

/-! ### One event -/

lemma step_settle {s s' : State} {i : ℕ} {ok : Bool} (h : step s (.settle i ok) = some s') :
    ∃ p t, s.tasks[i]? = some (p, t) ∧
      s' = onSettled p ok { s with tasks := s.tasks.eraseIdx i } t := by
  obtain ⟨⟨p, t⟩, ht, rfl⟩ := Option.map_eq_some_iff.mp h
  exact ⟨p, t, ht, rfl⟩

lemma step_done {s s' : State} {anonymous : User} (h : step s (.done anonymous) = some s') :
    s' = handleLogin anonymous s := by
  simp only [step] at h
  split_ifs at h
  exact (Option.some.inj h).symm

lemma signed_step {s s' : State} {e : Event} (h : Signed s) (hs : step s e = some s') :
    Signed s' := by
  cases e with
  | render param | returnData avatarUri =>
    cases hs
    exact h
  | done anonymous =>
    rw [step_done hs, handleLogin]
    split
    · exact Signed.start h _ (by simp [Task.needsUser])
    · exact Signed.start h _ (by simp [Task.needsUser])
  | settle i ok =>
    obtain ⟨p, t, -, rfl⟩ := step_settle hs
    have herase : Signed { s with tasks := s.tasks.eraseIdx i } :=
      fun x hx => h x (List.mem_of_mem_eraseIdx hx)
    exact signed_onSettled herase p ok t

/-- **One event** leaves a chain under way behind the spinner exactly when it breaks off none, or
none that is the last one. -/
lemma chained_step_iff {s s' : State} {e : Event} (hsigned : Signed s) (h : Chained s)
    (hs : step s e = some s') : Chained s' ↔ Unbroken s e := by
  cases e with
  | render param | returnData avatarUri =>
    cases hs
    exact iff_of_true h trivial
  | done anonymous =>
    refine iff_of_true ?_ trivial
    rw [step_done hs, handleLogin]
    split
    · intro hup
      obtain ⟨x, hx, hchain⟩ := h hup
      exact ⟨x, List.mem_append_left _ hx, hchain⟩
    · exact fun _ => ⟨_, List.mem_append_right _ (List.mem_singleton_self _), rfl⟩
  | settle i ok =>
    obtain ⟨p, t, ht, rfl⟩ := step_settle hs
    have hunbroken : Unbroken s (.settle i ok) ↔ (t.breaksOff s.auth ok →
        Chained { s with tasks := s.tasks.eraseIdx i }) := by
      simp only [Unbroken, ht, Option.mem_some_iff, forall_eq']
      exact Iff.rfl
    rw [hunbroken]
    by_cases hb : t.breaksOff s.auth ok
    · rw [onSettled_of_breaksOff (s := { s with tasks := s.tasks.eraseIdx i }) hb]
      exact ⟨fun hchain _ => hchain, fun hchain => hchain hb⟩
    · refine iff_of_true ?_ fun hb' => absurd hb' hb
      by_cases hchain : t.chained
      · refine chained_onSettled hchain (by simpa using hb) ?_ p
        exact hsigned _ (List.mem_of_getElem? ht)
      · intro hup
        rw [overlay_onSettled (by simpa using hchain)] at hup
        obtain ⟨x, hx, hx'⟩ := h hup
        have hne : x ≠ (p, t) := by
          rintro rfl
          exact hchain hx'
        exact ⟨x, mem_onSettled (mem_eraseIdx_of_ne ht hx hne) p ok t, hx'⟩

/-! ### Taking the spinner down -/

lemma canEnd_of_settle {s s' : State} {i : ℕ} {ok : Bool} (hs : step s (.settle i ok) = some s')
    (h : CanEnd s') : CanEnd s := by
  obtain ⟨es, t, hes, hrun, hdown⟩ := h
  refine ⟨.settle i ok :: es, t, ?_, by rw [run_cons, hs]; exact hrun, hdown⟩
  rintro e (_ | ⟨_, he⟩)
  · exact ⟨i, ok, rfl⟩
  · exact hes e he

lemma canEnd_of_down {s : State} (h : s.showProfileOverlay = false) : CanEnd s :=
  ⟨[], s, by simp, rfl, h⟩

lemma settle_of_mem {s : State} {p : ℕ} {t : Task} (h : (p, t) ∈ s.tasks) (ok : Bool) :
    ∃ i, step s (.settle i ok) =
      some (onSettled p ok { s with tasks := s.tasks.eraseIdx i } t) := by
  obtain ⟨i, hi⟩ := List.mem_iff_getElem?.mp h
  exact ⟨i, by rw [step, hi]; rfl⟩

lemma canEnd_setProfile {s : State} {p : ℕ} {user : User} (h : (p, .setProfile user) ∈ s.tasks) :
    CanEnd s := by
  obtain ⟨i, hs⟩ := settle_of_mem h false
  exact canEnd_of_settle hs (canEnd_of_down rfl)

lemma canEnd_saveProfile {s : State} {p : ℕ} {displayName photoURL : Option Text}
    (h : (p, .saveProfile displayName photoURL) ∈ s.tasks) (hauth : s.auth.isSome) : CanEnd s := by
  obtain ⟨account, hauth⟩ := Option.isSome_iff_exists.mp hauth
  obtain ⟨i, hs⟩ := settle_of_mem h true
  have hstart : onSettled p true { s with tasks := s.tasks.eraseIdx i }
      (.saveProfile displayName photoURL) =
        (State.update { s with tasks := s.tasks.eraseIdx i } displayName photoURL).start p
          (.setProfile { account with displayName, photoURL }) := by
    simp [onSettled, State.update, hauth]
  rw [hstart] at hs
  exact canEnd_of_settle hs
    (canEnd_setProfile (List.mem_append_right _ (List.mem_singleton_self _)))

lemma canEnd_signIn {s : State} {p : ℕ} {user : User} (h : (p, .signIn user) ∈ s.tasks) :
    CanEnd s := by
  obtain ⟨i, hs⟩ := settle_of_mem h true
  have hmem : (p, Task.saveProfile s.userName s.avatarUri) ∈ (onSettled p true
      { s with tasks := s.tasks.eraseIdx i } (.signIn user)).tasks :=
    List.mem_append_right _ (List.mem_singleton_self _)
  exact canEnd_of_settle hs (canEnd_saveProfile hmem rfl)

/-- The spinner can still be taken down exactly when it is down or a chain is under way. -/
lemma canEnd_iff_chained {s : State} (hsigned : Signed s) : CanEnd s ↔ Chained s := by
  constructor
  · rintro ⟨es, s', hes, hrun, hdown⟩
    induction es generalizing s with
    | nil =>
      cases hrun
      simp [Chained, hdown]
    | cons e es ih =>
      obtain ⟨s₁, hs, hrest⟩ := run_cons_some hrun
      obtain ⟨i, ok, rfl⟩ := hes e (by simp)
      have hchain := ih (signed_step hsigned hs) (fun e' he' => hes e' (by simp [he'])) hrest
      obtain ⟨p, t, ht, rfl⟩ := step_settle hs
      by_cases htc : t.chained
      · exact fun _ => ⟨(p, t), List.mem_of_getElem? ht, htc⟩
      · intro hup
        obtain ⟨x, hx, hx'⟩ := chained_of_onSettled (by simpa using htc) hchain hup
        exact ⟨x, List.mem_of_mem_eraseIdx hx, hx'⟩
  · intro h
    by_cases hup : s.showProfileOverlay
    · obtain ⟨⟨p, t⟩, hx, hchain⟩ := h hup
      cases t with
      | signIn user => exact canEnd_signIn hx
      | saveProfile displayName photoURL => exact canEnd_saveProfile hx (hsigned _ hx rfl)
      | setProfile user => exact canEnd_setProfile hx
      | updateProfile | setMember | setFeedList => simp [Task.chained] at hchain
    · exact canEnd_of_down (by simpa using hup)

/-! ### Going on to `Menu` -/

/-- What the log knows of a step under way. -/
def Task.Noted (log : Log) (p : ℕ) : Task → Prop
  | .updateProfile _ _ => p ∉ log.fresh
  | .signIn _ | .saveProfile _ _ => p ∈ log.fresh
  | .setProfile _ => p ∈ log.fresh ∧ p ∈ log.updated
  | .setMember _ _ | .setFeedList _ => True

/-- The log and the screen agree on every press. -/
structure Tracked (x : State × Log) : Prop where
  menus : ∀ p, p ∈ x.1.menus ↔ x.2.Completes p
  saved : ∀ p ∈ x.2.saved, p ∈ x.2.updated
  tasks : ∀ y ∈ x.1.tasks, y.1 < x.1.presses ∧ y.2.Noted x.2 y.1
  fresh : ∀ p ∈ x.2.fresh, p < x.1.presses
  updated : ∀ p ∈ x.2.updated, p < x.1.presses

lemma Task.Noted.mono {log log' : Log} {p : ℕ} {t : Task} (h : t.Noted log p)
    (hfresh : log'.fresh = log.fresh) (hupdated : ∀ q ∈ log.updated, q ∈ log'.updated) :
    t.Noted log' p := by
  cases t with
  | updateProfile | signIn | saveProfile =>
    rw [Task.Noted, hfresh]
    exact h
  | setProfile user =>
    rw [Task.Noted, hfresh]
    exact ⟨h.1, hupdated p h.2⟩
  | setMember | setFeedList => trivial

/-- A step of press `p` ends, which may be logged, and may start another one. -/
lemma Tracked.next {s s' : State} {log log' : Log} {p : ℕ} (h : Tracked (s, log))
    (hp : p < s.presses) (hpresses : s'.presses = s.presses) (hfresh : log'.fresh = log.fresh)
    (hupdated : ∀ q, q ∈ log.updated → q ∈ log'.updated)
    (hlogged : ∀ q ∈ log'.updated, q = p ∨ q ∈ log.updated)
    (hsaved : ∀ q ∈ log'.saved, q ∈ log'.updated)
    (hmenus : ∀ q, q ∈ s'.menus ↔ log'.Completes q)
    (htasks : ∀ y ∈ s'.tasks, y ∈ s.tasks ∨ y.1 = p ∧ y.2.Noted log' p) : Tracked (s', log') where
  menus := hmenus
  saved := hsaved
  tasks := by
    intro y hy
    rw [hpresses]
    rcases htasks y hy with hy | ⟨rfl, hnoted⟩
    · exact ⟨(h.tasks y hy).1, (h.tasks y hy).2.mono hfresh hupdated⟩
    · exact ⟨hp, hnoted⟩
  fresh := by
    rw [hpresses, hfresh]
    exact h.fresh
  updated := by
    intro q hq
    rw [hpresses]
    rcases hlogged q hq with rfl | hq
    · exact hp
    · exact h.updated q hq

/-- Nothing is logged. -/
lemma Tracked.quiet {s s' : State} {log : Log} {p : ℕ} (h : Tracked (s, log))
    (hp : p < s.presses) (hpresses : s'.presses = s.presses) (hmenus : s'.menus = s.menus)
    (htasks : ∀ y ∈ s'.tasks, y ∈ s.tasks ∨ y.1 = p ∧ y.2.Noted log p) : Tracked (s', log) :=
  h.next hp hpresses rfl (fun _ hq => hq) (fun _ => .inr) h.saved
    (fun q => by rw [hmenus]; exact h.menus q) htasks

lemma mem_start {s : State} {p : ℕ} {t : Task} {log : Log} (ht : t.Noted log p) :
    ∀ y ∈ (s.start p t).tasks, y ∈ s.tasks ∨ y.1 = p ∧ y.2.Noted log p := by
  intro y hy
  rcases List.mem_append.mp hy with hy | hy
  · exact .inl hy
  · obtain rfl := List.mem_singleton.mp hy
    exact .inr ⟨rfl, ht⟩

/-- A press with a `currentUser` is complete once the profile is updated. -/
lemma completes_update_of_notMem {log : Log} {p : ℕ} (hfresh : p ∉ log.fresh) (q : ℕ) :
    Log.Completes { log with updated := p :: log.updated } q ↔ q = p ∨ log.Completes q := by
  by_cases hq : q = p
  · simp [Log.Completes, hq, hfresh]
  · simp [Log.Completes, hq]

/-- The press of a new account is not. -/
lemma completes_update_of_mem {log : Log} {p : ℕ} (hfresh : p ∈ log.fresh)
    (hsaved : ∀ q ∈ log.saved, q ∈ log.updated) (q : ℕ) :
    Log.Completes { log with updated := p :: log.updated } q ↔ log.Completes q := by
  by_cases hq : q = p
  · simpa [Log.Completes, hq, hfresh] using hsaved p
  · simp [Log.Completes, hq]

/-- It is complete once the profile is written as well. -/
lemma completes_save {log : Log} {p : ℕ} (hupdated : p ∈ log.updated) (q : ℕ) :
    Log.Completes { log with saved := p :: log.saved } q ↔ q = p ∨ log.Completes q := by
  by_cases hq : q = p
  · simp [Log.Completes, hq, hupdated]
  · simp [Log.Completes, hq]

/-- The update of a profile is logged. -/
lemma Tracked.update {s s' : State} {log : Log} {p : ℕ} (h : Tracked (s, log))
    (hp : p < s.presses) (hpresses : s'.presses = s.presses)
    (hmenus : ∀ q, q ∈ s'.menus ↔ Log.Completes { log with updated := p :: log.updated } q)
    (htasks : ∀ y ∈ s'.tasks, y ∈ s.tasks ∨
      y.1 = p ∧ y.2.Noted { log with updated := p :: log.updated } p) :
    Tracked (s', { log with updated := p :: log.updated }) := by
  refine h.next hp hpresses rfl (fun q hq => List.mem_cons_of_mem _ hq)
    (fun q => List.mem_cons.mp) ?_ hmenus htasks
  exact fun q hq => List.mem_cons_of_mem _ (h.saved q hq)

/-- The write of a profile is logged. -/
lemma Tracked.save {s s' : State} {log : Log} {p : ℕ} (h : Tracked (s, log))
    (hp : p < s.presses) (hupdated : p ∈ log.updated) (hpresses : s'.presses = s.presses)
    (hmenus : s'.menus = p :: s.menus)
    (htasks : ∀ y ∈ s'.tasks, y ∈ s.tasks ∨
      y.1 = p ∧ y.2.Noted { log with saved := p :: log.saved } p) :
    Tracked (s', { log with saved := p :: log.saved }) := by
  refine h.next hp hpresses rfl (fun q hq => hq) (fun q => .inr) ?_ ?_ htasks
  · intro q hq
    rcases List.mem_cons.mp hq with rfl | hq
    · exact hupdated
    · exact h.saved q hq
  · intro q
    rw [hmenus, List.mem_cons, completes_save hupdated]
    exact or_congr_right (h.menus q)

/-- The callback of a step keeps track, and so does the log. -/
lemma tracked_onSettled {s : State} {log : Log} {p : ℕ} {ok : Bool} {t : Task}
    (h : Tracked (s, log)) (hp : p < s.presses) (hnoted : t.Noted log p)
    (hsigned : t.needsUser → s.auth.isSome) :
    Tracked (onSettled p ok s t, if ok then log.succeed p t else log) := by
  have hcases := onSettled_cases p ok s t
  cases t with
  | updateProfile displayName photoURL =>
    rw [hcases]
    cases ok with
    | false => exact h
    | true =>
      refine h.update hp rfl (fun q => ?_) fun _ => .inl
      rw [completes_update_of_notMem hnoted]
      exact List.mem_cons.trans (or_congr_right (h.menus q))
  | signIn user =>
    have hlog : (if ok then log.succeed p (.signIn user) else log) = log := ite_self _
    rw [hlog]
    rcases hcases with ⟨-, heq⟩ | ⟨auth, -, heq⟩ <;> rw [heq]
    · exact h
    · exact h.quiet hp rfl rfl (mem_start (s := { s with auth := auth }) hnoted)
  | saveProfile displayName photoURL =>
    rcases hcases with ⟨hb, heq⟩ | ⟨-, hauth, -⟩ | ⟨hok, user, -, heq⟩
    · obtain rfl : ok = false := by simpa [Task.breaksOff] using hb
      rw [heq]
      exact h
    · simp [hauth, Task.needsUser] at hsigned
    · rw [heq, if_pos hok]
      refine h.update hp rfl (fun q => ?_)
        (mem_start (s := s.update displayName photoURL) ⟨hnoted, List.mem_cons_self⟩)
      rw [completes_update_of_mem hnoted h.saved]
      exact h.menus q
  | setProfile user =>
    rcases hcases with ⟨rfl, heq⟩ | ⟨-, hauth, -⟩ | ⟨hok, -, user, write, heq⟩
    · rw [heq]
      exact h.quiet hp rfl rfl fun _ => .inl
    · simp [hauth, Task.needsUser] at hsigned
    · rw [heq, if_pos hok]
      exact h.save hp hnoted.2 rfl rfl
        (mem_start (s := { s with menus := p :: s.menus, showProfileOverlay := false }) trivial)
  | setMember user write =>
    have hlog : (if ok then log.succeed p (.setMember user write) else log) = log := ite_self _
    rw [hlog]
    rcases hcases with heq | ⟨write, heq⟩ <;> rw [heq]
    · exact h.quiet hp rfl rfl fun _ => .inl
    · exact h.quiet hp rfl rfl (mem_start trivial)
  | setFeedList write =>
    have hlog : (if ok then log.succeed p (.setFeedList write) else log) = log := ite_self _
    rw [hlog, hcases]
    exact h

lemma Task.Noted.press {log : Log} {n q : ℕ} {t : Task} (h : t.Noted log q) (hq : q < n) :
    t.Noted { log with fresh := n :: log.fresh } q := by
  cases t with
  | updateProfile displayName photoURL =>
    have hne : q ≠ n := by omega
    simpa [Task.Noted, hne] using h
  | signIn | saveProfile => exact List.mem_cons_of_mem _ h
  | setProfile user => exact ⟨List.mem_cons_of_mem _ h.1, h.2⟩
  | setMember | setFeedList => trivial

/-- A press gets a new number, and is logged if it has no `currentUser`. -/
lemma tracked_handleLogin {s : State} {log : Log} (h : Tracked (s, log)) (anonymous : User) :
    Tracked (handleLogin anonymous s,
      if s.currentUser = none then { log with fresh := s.presses :: log.fresh } else log) := by
  obtain ⟨hmenus, hsaved, htasks, hfresh, hupdated⟩ := h
  simp only at hmenus hsaved htasks hfresh hupdated
  have hnew : s.presses ∉ log.fresh := fun hp => Nat.lt_irrefl _ (hfresh _ hp)
  have hnot : s.presses ∉ log.updated := fun hp => Nat.lt_irrefl _ (hupdated _ hp)
  have hupdated' : ∀ p ∈ log.updated, p < s.presses + 1 :=
    fun p hp => Nat.lt_succ_of_lt (hupdated p hp)
  unfold handleLogin
  cases s.currentUser with
  | some user =>
    refine ⟨hmenus, hsaved, ?_, fun p hp => Nat.lt_succ_of_lt (hfresh p hp), hupdated'⟩
    intro y hy
    rcases List.mem_append.mp hy with hy | hy
    · exact ⟨Nat.lt_succ_of_lt (htasks y hy).1, (htasks y hy).2⟩
    · obtain rfl := List.mem_singleton.mp hy
      exact ⟨Nat.lt_succ_self _, hnew⟩
  | none =>
    refine ⟨?_, hsaved, ?_, ?_, hupdated'⟩
    · intro p
      refine (hmenus p).trans ?_
      by_cases hp : p = s.presses
      · simp [Log.Completes, hp, hnot]
      · simp [Log.Completes, hp]
    · intro y hy
      rcases List.mem_append.mp hy with hy | hy
      · obtain ⟨hlt, hnoted⟩ := htasks y hy
        exact ⟨Nat.lt_succ_of_lt hlt, hnoted.press hlt⟩
      · obtain rfl := List.mem_singleton.mp hy
        exact ⟨Nat.lt_succ_self _, List.mem_cons_self⟩
    · intro p hp
      rcases List.mem_cons.mp hp with rfl | hp
      · exact Nat.lt_succ_self _
      · exact Nat.lt_succ_of_lt (hfresh p hp)

lemma tracked_step {x y : State × Log} {e : Event} (h : Tracked x) (hsigned : Signed x.1)
    (hs : noting step note x e = some y) : Tracked y := by
  obtain ⟨s, log⟩ := x
  obtain ⟨s', log'⟩ := y
  obtain ⟨hstep, hnote⟩ := noting_some hs
  obtain rfl : log' = note (s, log) e s' := hnote
  simp only at hstep hsigned
  cases e with
  | render param | returnData avatarUri =>
    cases hstep
    exact ⟨h.menus, h.saved, h.tasks, h.fresh, h.updated⟩
  | done anonymous =>
    rw [step_done hstep]
    exact tracked_handleLogin h anonymous
  | settle i ok =>
    obtain ⟨p, t, ht, rfl⟩ := step_settle hstep
    have hmem := List.mem_of_getElem? ht
    obtain ⟨hp, hnoted⟩ := h.tasks _ hmem
    have herase : Tracked ({ s with tasks := s.tasks.eraseIdx i }, log) :=
      ⟨h.menus, h.saved, fun y hy => h.tasks y (List.mem_of_mem_eraseIdx hy), h.fresh, h.updated⟩
    have hlog : note (s, log) (.settle i ok) (onSettled p ok
        { s with tasks := s.tasks.eraseIdx i } t) = if ok then log.succeed p t else log := by
      cases ok
      · rfl
      · simp [note, ht]
    rw [hlog]
    exact tracked_onSettled herase hp hnoted (hsigned _ hmem)

/-! ### Whole runs -/

def tracking : Invariant (noting step note) fun _ _ => True where
  holds x := Signed x.1 ∧ Tracked x
  preserved h _ hs := ⟨signed_step h.1 (noting_some hs).1, tracked_step h.2 h.1 hs⟩

def chaining : Invariant step Unbroken where
  holds s := Signed s ∧ Chained s
  preserved h hg hs := ⟨signed_step h.1 hs, (chained_step_iff h.1 h.2 hs).mpr hg⟩

def ending : Invariant (noting step note) fun x e => Unbroken x.1 e where
  holds x := tracking.holds x ∧ chaining.holds x.1
  preserved h hg hs :=
    ⟨tracking.preserved h.1 trivial hs, chaining.preserved h.2 hg (noting_some hs).1⟩

lemma signed_mount (auth param : Option User) (userName : Option Text) :
    Signed (mount auth param userName) := by
  simp [Signed, mount, receive]

lemma chained_mount (auth param : Option User) (userName : Option Text) :
    Chained (mount auth param userName) := by
  simp [Chained, mount, receive]

lemma tracked_mount (auth param : Option User) (userName : Option Text) :
    Tracked (mount auth param userName, ⟨[], [], []⟩) where
  menus := by simp [mount, receive, Log.Completes]
  saved := by simp
  tasks := by simp [mount, receive]
  fresh := by simp
  updated := by simp

lemma Tracked.opened {x : State × Log} (h : Tracked x) : Opened x := fun p _ => h.menus p

lemma ended_of_chained {x : State × Log} (h : Tracked x) (hchain : Chained x.1) : Ended x := by
  intro hnil
  have hdown : x.1.showProfileOverlay = false := by
    by_contra hup
    obtain ⟨y, hy, -⟩ := hchain (by simpa using hup)
    simp [hnil] at hy
  exact ⟨hdown, h.opened⟩

/-- **"Done" comes to an end.** The presses that open `Menu` are those that succeed, on every run.
As long as no chain breaks off that is the last one behind the spinner, the spinner is down once no
step is under way; any other chain that breaks off leaves a spinner that no step under way can take
down. -/
theorem ended_of_unbroken (auth param : Option User) (userName : Option Text) (es : List Event) :
    Throughout (noting step note) Opened (mount auth param userName, ⟨[], [], []⟩) es ∧
    (Along step Unbroken (mount auth param userName) es →
      Throughout (noting step note) Ended (mount auth param userName, ⟨[], [], []⟩) es) ∧
    (Throughout step CanEnd (mount auth param userName) es ↔
      Along step Unbroken (mount auth param userName) es) := by
  have hsigned := signed_mount auth param userName
  have hchained := chained_mount auth param userName
  have htracked := tracked_mount auth param userName
  refine ⟨?_, ?_, ?_⟩
  · exact tracking.throughout (fun _ hx => hx.2.opened) ⟨hsigned, htracked⟩ (along_true _ _)
  · intro h
    have hnoting : Along (noting step note) (fun x e => Unbroken x.1 e)
        (mount auth param userName, ⟨[], [], []⟩) es := along_noting.mpr h
    exact ending.throughout (fun _ hx => ended_of_chained hx.1.2 hx.2.2)
      ⟨⟨hsigned, htracked⟩, hsigned, hchained⟩ hnoting
  · refine chaining.throughout_iff (fun s hs => (canEnd_iff_chained hs.1).mpr hs.2) ?_
      ⟨hsigned, hchained⟩
    intro s e s' hs hstep hend
    have hchain := (canEnd_iff_chained (signed_step hs.1 hstep)).mp hend
    exact (chained_step_iff hs.1 hs.2 hstep).mp hchain

/-- A new user presses twice. The sign-in of the first press fails, the steps of the second
succeed. -/
def newAccount : List Event :=
  [.returnData (txt ['x']), .done plainUser, .done plainUser, .settle 0 false, .settle 0 true,
    .settle 0 true, .settle 0 true, .settle 0 true, .settle 0 true]

theorem ended_of_unbroken_newAccount :
    (run step (mount none none none) newAccount).isSome ∧
      Throughout (noting step note) Ended (mount none none none, ⟨[], [], []⟩) newAccount :=
  ⟨by decide, (ended_of_unbroken none none none newAccount).2.1 (by decide)⟩

/-- A new user, and the sign-in fails. -/
def failedSignIn : List Event := [.returnData (txt ['x']), .done plainUser, .settle 0 false]

/-- **The spinner stays.** -/
theorem not_always_ended :
    ¬∀ (auth param : Option User) (userName : Option Text) (es : List Event),
      Throughout (noting step note) Ended (mount auth param userName, ⟨[], [], []⟩) es := by
  intro h
  have hrun := h none none none failedSignIn
  revert hrun
  decide

end Wedcast.LoginAvatar
