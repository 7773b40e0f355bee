import Mathlib.Data.List.Infix
import Wedcast.Lib.Indexed
import Wedcast.Lib.Runs
import Wedcast.Text

/-!
The `online` flag that `Main` writes under a member of a cast.

`Main` writes it on mounting and on changes of the app state, by patterns that are not anchored:
`/active/` also matches "inactive". It writes nothing on unmounting. What counts as correct, true
exactly while a `Main` is mounted and the app is active, is kept by every step but two.
-/

namespace Wedcast.Online

open Runs

inductive AppState where
  | active
  | inactive
  | background
  deriving DecidableEq

/-- The name the system reports. -/
def AppState.name : AppState → Text
  | .active => txt ['a', 'c', 't', 'i', 'v', 'e']
  | .inactive => txt ['i', 'n', 'a', 'c', 't', 'i', 'v', 'e']
  | .background => txt ['b', 'a', 'c', 'k', 'g', 'r', 'o', 'u', 'n', 'd']

/-- `name.match(/active/)` -/
def AppState.matchesActive (a : AppState) : Bool := AppState.active.name <:+: a.name

/-- `name.match(/inactive|background/)` -/
def AppState.matchesInactive (a : AppState) : Bool :=
  AppState.inactive.name <:+: a.name ∨ AppState.background.name <:+: a.name

/-- The value `_handleAppStateChange` writes, if any. -/
def handleAppStateChange (appState nextAppState : AppState) : Option Bool :=
  if appState.matchesActive ∧ nextAppState.matchesInactive then some false
  else if appState.matchesInactive ∧ nextAppState.matchesActive then some true
  else none

structure State where
  current : AppState
  /-- `state.appState` of each mounted `Main` of the cast. -/
  mains : List AppState
  /-- The last value written to `online`. -/
  online : Option Bool
  deriving DecidableEq

/-- The app before any `Main` of the cast has been mounted. -/
def init (current : AppState) : State := ⟨current, [], none⟩

/-- The writes of the mounted `Main`s, one after the other. -/
def writes (online : Option Bool) (mains : List AppState) (nextAppState : AppState) : Option Bool :=
  mains.foldl (fun online appState => (handleAppStateChange appState nextAppState).or online) online

inductive Event where
  | mount
  | unmount (i : ℕ)
  | change (nextAppState : AppState)
  deriving DecidableEq

def step (s : State) : Event → Option State
  | .mount =>
    if s.current = .active then
      some { s with mains := s.mains ++ [s.current], online := some true }
    else none
  | .unmount i =>
    if i < s.mains.length then some { s with mains := s.mains.eraseIdx i } else none
  | .change nextAppState =>
    some { s with
      current := nextAppState
      mains := s.mains.map fun _ => nextAppState
      online := writes s.online s.mains nextAppState }

/-- The flag is true exactly when a `Main` is mounted and the app is active. -/
def Correct (s : State) : Prop := s.online = some true ↔ s.mains ≠ [] ∧ s.current = .active

/-- The last `Main` is not unmounted in the active app, and no mounted one sees the app go from
the background to inactive. -/
def Orderly (s : State) : Event → Prop
  | .unmount _ => s.mains.length = 1 → s.current ≠ .active
  | .change nextAppState =>
    s.mains ≠ [] → ¬(s.current = .background ∧ nextAppState = .inactive)
  | .mount => True

instance (s : State) : Decidable (Correct s) := inferInstanceAs (Decidable (_ ↔ _))

instance (s : State) : (e : Event) → Decidable (Orderly s e)
  | .unmount _ | .change _ => inferInstanceAs (Decidable (_ → _))
  | .mount => isTrue trivial

/-- Every mounted `Main` knows the state of the app, and the flag is correct. -/
structure Synced (s : State) : Prop where
  mains : ∀ appState ∈ s.mains, appState = s.current
  correct : Correct s

lemma synced_init (current : AppState) : Synced (init current) where
  mains := by simp [init]
  correct := by simp [Correct, init]

/-- With all of them in the same state, the last write is that of any of them. -/
lemma writes_of_eq {online : Option Bool} {mains : List AppState} {current next : AppState}
    (h : ∀ appState ∈ mains, appState = current) : writes online mains next =
      if mains = [] then online else (handleAppStateChange current next).or online := by
  induction mains generalizing online with
  | nil => rfl
  | cons appState rest ih =>
    obtain rfl : appState = current := h appState (by simp)
    have hrest : writes ((handleAppStateChange appState next).or online) rest next = _ :=
      ih fun a ha => h a (List.mem_cons_of_mem _ ha)
    simp only [writes, List.foldl_cons, reduceCtorEq, if_false] at hrest ⊢
    rw [hrest]
    split_ifs
    · rfl
    · cases handleAppStateChange appState next <;> rfl

/-- What a mounted `Main` writes, by the two states. -/
lemma handleAppStateChange_eq (appState next : AppState) :
    handleAppStateChange appState next =
      if next = .active then (if appState = .active then none else some true)
      else if appState = .background then (if next = .inactive then some true else none)
      else some false := by
  cases appState <;> cases next <;> decide

/-- The mounted `Main`s keep the flag correct in all changes but one. -/
lemma correct_change {s : State} (h : Synced s) (next : AppState) :
    Correct { s with
      current := next
      mains := s.mains.map fun _ => next
      online := writes s.online s.mains next } ↔ Orderly s (.change next) := by
  have hcorrect := h.correct
  simp only [Correct, Orderly, writes_of_eq h.mains, handleAppStateChange_eq, ne_eq,
    List.map_eq_nil_iff] at hcorrect ⊢
  by_cases hnil : s.mains = []
  · simpa [hnil] using hcorrect
  · cases hc : s.current <;> cases next <;> simp_all

lemma correct_unmount {s : State} (h : Synced s) {i : ℕ} (hi : i < s.mains.length) :
    Correct { s with mains := s.mains.eraseIdx i } ↔ Orderly s (.unmount i) := by
  have hne : s.mains ≠ [] := by
    rintro hnil
    simp [hnil] at hi
  have hcorrect := h.correct
  simp only [Correct, Orderly, ne_eq, Indexed.eraseIdx_eq_nil_iff hi] at hcorrect ⊢
  rw [hcorrect]
  by_cases hone : s.mains.length = 1 <;> simp [hone, hne]

lemma mem_eraseIdx_eq {s : State} (h : Synced s) (i : ℕ) :
    ∀ appState ∈ s.mains.eraseIdx i, appState = s.current :=
  fun appState ha => h.mains appState (List.mem_of_mem_eraseIdx ha)

/-- One orderly step. -/
lemma synced_step {s s' : State} {e : Event} (h : Synced s) (hg : Orderly s e)
    (hs : step s e = some s') : Synced s' := by
  cases e with
  | mount =>
    simp only [step] at hs
    split_ifs at hs with hactive
    cases hs
    refine ⟨?_, by simp [Correct, hactive]⟩
    simpa [or_imp, forall_and] using h.mains
  | unmount i =>
    simp only [step] at hs
    split_ifs at hs with hi
    cases hs
    exact ⟨mem_eraseIdx_eq h i, (correct_unmount h hi).mpr hg⟩
  | change next =>
    cases hs
    exact ⟨by simp, (correct_change h next).mpr hg⟩

/-- A step that is not orderly leaves the flag wrong. -/
lemma orderly_of_correct {s s' : State} {e : Event} (h : Synced s) (hs : step s e = some s')
    (hc : Correct s') : Orderly s e := by
  cases e with
  | mount => trivial
  | unmount i =>
    simp only [step] at hs
    split_ifs at hs with hi
    cases hs
    exact (correct_unmount h hi).mp hc
  | change next =>
    cases hs
    exact (correct_change h next).mp hc

def syncing : Invariant step Orderly where
  holds := Synced
  preserved := synced_step

/-- **The flag is correct.** It is so after every step exactly when no step unmounts the last
`Main` in the active app, and none takes a mounted one from the background to inactive. -/
theorem correct_iff_orderly (current : AppState) (es : List Event) :
    Throughout step Correct (init current) es ↔ Along step Orderly (init current) es :=
  syncing.throughout_iff (fun _ hs => hs.correct) (fun _ _ _ => orderly_of_correct)
    (synced_init current)

/-- **The flag stays true.** The user leaves `Main`. -/
theorem not_always_correct :
    ¬∀ (current : AppState) (es : List Event), Throughout step Correct (init current) es := by
  intro h
  have hrun := h .active [.mount, .unmount 0]
  revert hrun
  decide

end Wedcast.Online
