import Wedcast.WeddingDetails

/-!
Which password an edit commits.

The button commits whatever `state.password` holds. That is what the owner typed as long as no
earlier timer and no snapshot writes the field after the last text, and as long as the button is
not pressed before the field's own timer has fired. Without an edit it is the password in the
database as long as no snapshot is on its way.
-/

namespace Wedcast.WeddingDetails

open Runs Delayed

/-- What an edit is expected to commit: the sanitised form of the last text, or the password in the
database if nothing has been typed. -/
def State.expected (s : State) : Option Text :=
  match s.typed with
  | some text => some (removeAll forbidden text)
  | none => s.stored

lemma expected_of_typed {s : State} {text : Text} (h : s.typed = some text) :
    s.expected = some (removeAll forbidden text) := by
  rw [State.expected, h]

lemma expected_of_none {s : State} (h : s.typed = none) : s.expected = s.stored := by
  rw [State.expected, h]

/-- What the screen promises of a step: after a commit, what was expected is stored. -/
def CommitsTyped (s : State) : Event → Prop
  | .toggleChangeInput =>
    s.changingPassword → ∀ s' ∈ step s .toggleChangeInput, s'.stored = s.expected
  | _ => True

/-- The steps the field takes in turn. A clean text does not overtake a timer with another text; a
snapshot that comes after a text brings the same, or a timer is still to write the field; the
button is pressed when no timer is pending, and without a text when no snapshot is on its way. -/
def InTurn (s : State) : Event → Prop
  | .changeText text =>
    removeAll forbidden text ≠ text ∨
      ∀ t ∈ s.password.timers.getLast?, t = some (removeAll forbidden text)
  | .snapshot => s.typed ≠ none →
      s.password.timers ≠ [] ∨ ∀ value ∈ s.snapshots.head?, value = s.expected
  | .toggleChangeInput => s.changingPassword →
      s.password.timers = [] ∧ (s.typed = none → s.snapshots = [])
  | _ => True

instance (s : State) : (e : Event) → Decidable (CommitsTyped s e)
  | .toggleChangeInput => inferInstanceAs (Decidable (_ → ∀ s' ∈ _, _))
  | .changeText _ | .timer | .remote _ | .snapshot | .feed _ => isTrue trivial

instance (s : State) : (e : Event) → Decidable (InTurn s e)
  | .changeText _ => inferInstanceAs (Decidable (_ ∨ ∀ t ∈ _, _))
  | .snapshot => inferInstanceAs (Decidable (_ → _ ∨ ∀ value ∈ _, _))
  | .toggleChangeInput => inferInstanceAs (Decidable (_ → _ ∧ (_ → _)))
  | .timer | .remote _ | .feed _ => isTrue trivial

/-- What holds along such steps. -/
structure Tracked (s : State) : Prop where
  /-- After a text, the field ends at its sanitised form. -/
  draft : ∀ text ∈ s.typed, s.password.settled = some (removeAll forbidden text)
  /-- Without one, it mirrors the database once all snapshots are there. -/
  mirror : s.typed = none → s.password.timers = [] ∧
    (s.snapshots = [] → s.password.value = s.stored)
  latest : ∀ value ∈ s.snapshots.getLast?, value = s.stored
  idle : s.changingPassword = false → s.typed = none

lemma tracked_mount (u : User) (castId : Text) (stored : Option Text) :
    Tracked (mount u castId stored) where
  draft := by simp [mount]
  mirror := by simp [mount]
  latest := by simp [mount]
  idle _ := rfl

lemma Tracked.changeText {s : State} (h : Tracked s) {text : Text}
    (hturn : InTurn s (.changeText text)) (hedit : s.changingPassword) :
    Tracked (sanitizePassword text s) where
  draft t ht := by
    obtain rfl : text = t := by simpa [sanitizePassword] using ht
    refine Cell.settled_put_eq_iff.mpr (hturn.imp_left fun hne heq => ?_)
    exact hne (Option.some.inj heq)
  mirror hnone := by simp [sanitizePassword] at hnone
  latest := h.latest
  idle hidle := by simp [sanitizePassword, hedit] at hidle

lemma Tracked.timer {s : State} (h : Tracked s) {password : Cell (Option Text)}
    (hfire : s.password.fire = some password) : Tracked { s with password } where
  draft t ht := (Cell.settled_fire hfire).trans (h.draft t ht)
  mirror hnone := by
    have heq := Cell.fire_eq hfire
    rw [(h.mirror hnone).1] at heq
    simp at heq
  latest := h.latest
  idle := h.idle

lemma Tracked.store {s : State} (h : Tracked s) (value : Option Text) :
    Tracked (s.store value) where
  draft := h.draft
  mirror hnone := ⟨(h.mirror hnone).1, fun hnil => by simp [State.store] at hnil⟩
  latest := by simp [State.store]
  idle := h.idle

lemma Tracked.toggle {s : State} (h : Tracked s) (hturn : InTurn s .toggleChangeInput) :
    Tracked (toggleChangeInput s) := by
  unfold toggleChangeInput
  split_ifs with hedit
  · obtain ⟨htimers, -⟩ := hturn hedit
    have hstore := h.store s.password.value
    have hecho : (s.store s.password.value).snapshots ≠ [] := by simp [State.store]
    exact ⟨by simp, fun _ => ⟨htimers, fun hnil => absurd hnil hecho⟩, hstore.latest, fun _ => rfl⟩
  · exact ⟨h.draft, h.mirror, h.latest, by simp⟩

lemma Tracked.snapshot {s : State} (h : Tracked s) {value : Option Text} {rest : List (Option Text)}
    (heq : s.snapshots = value :: rest) (hturn : InTurn s .snapshot) :
    Tracked { s with password := { s.password with value }, snapshots := rest } where
  draft text ht := by
    replace ht : s.typed = some text := ht
    have hdraft := h.draft text ht
    rcases hturn (by simp [ht]) with hne | hvalue
    · obtain ⟨t, hlast⟩ := Option.ne_none_iff_exists'.mp (mt List.getLast?_eq_none_iff.mp hne)
      rw [Cell.settled, hlast] at hdraft
      rw [Cell.settled, hlast]
      exact hdraft
    · cases hnil : s.password.timers.getLast? with
      | some t => rwa [Cell.settled, hnil] at hdraft ⊢
      | none =>
        rw [Cell.settled, hnil, Option.getD_none, ← expected_of_typed ht]
        exact hvalue value (by simp [heq])
  mirror hnone := by
    refine ⟨(h.mirror hnone).1, fun hnil => ?_⟩
    obtain rfl : rest = [] := hnil
    exact h.latest value (by simp [heq])
  latest v hv := by
    refine h.latest v ?_
    rw [heq, List.getLast?_cons, Option.mem_def.mp hv]
    rfl
  idle := h.idle

/-- One step in turn. -/
lemma tracked_step {s s' : State} {e : Event} (h : Tracked s) (hturn : InTurn s e)
    (hs : step s e = some s') : Tracked s' := by
  cases e with
  | changeText text =>
    obtain ⟨hedit, rfl⟩ := step_cases hs
    exact h.changeText hturn hedit
  | timer =>
    obtain ⟨password, hfire, rfl⟩ := step_cases hs
    exact h.timer hfire
  | toggleChangeInput =>
    cases step_cases hs
    exact h.toggle hturn
  | remote value =>
    cases step_cases hs
    exact h.store value
  | snapshot =>
    obtain ⟨value, rest, heq, rfl⟩ := step_cases hs
    exact h.snapshot heq hturn
  | feed value =>
    cases step_cases hs
    exact ⟨h.draft, h.mirror, h.latest, h.idle⟩

def tracking : Invariant step InTurn where
  holds := Tracked
  preserved := tracked_step

/-- The button stores what the field holds. -/
lemma stored_toggle {s : State} (hedit : s.changingPassword) :
    (toggleChangeInput s).stored = s.password.value := by
  rw [toggleChangeInput, if_pos hedit]
  rfl

lemma Tracked.commitsTyped {s : State} {e : Event} (h : Tracked s) (hturn : InTurn s e) :
    CommitsTyped s e := by
  cases e with
  | toggleChangeInput =>
    intro hedit s' hs'
    obtain rfl : s' = toggleChangeInput s := step_cases hs'
    rw [stored_toggle hedit]
    obtain ⟨htimers, hquiet⟩ := hturn hedit
    cases htyped : s.typed with
    | some text =>
      rw [expected_of_typed htyped, ← h.draft text htyped, Cell.settled_of_nil htimers]
    | none => rw [expected_of_none htyped, (h.mirror htyped).2 (hquiet htyped)]
  | _ => trivial

/-- **An edit commits what was typed.** On a run whose steps come in turn, each commit stores the
sanitised form of the last text, or the current password if nothing was typed. -/
theorem commitsTyped_of_inTurn (u : User) (castId : Text) (stored : Option Text) (es : List Event)
    (h : Along step InTurn (mount u castId stored) es) :
    Along step CommitsTyped (mount u castId stored) es :=
  tracking.along (fun _ _ _ hs hturn _ => hs.commitsTyped hturn) (tracked_mount u castId stored) h

/-- An owner, and the cast with its password on the screen. -/
def owner : User := ⟨txt ['u'], none, none, false⟩

def ownCast : ChatInfo where
  feedId := txt ['f']
  owner := owner.uid
  feedName := txt ['A']
  castType := 0
  castId := txt ['a']
  avatarUri := none
  startedAt := .ms 0

/-- The password is changed to `q`, with a character that is stripped, and the echo comes back. -/
def orderlyEdit : List Event :=
  [.snapshot, .feed (some ownCast), .toggleChangeInput, .changeText (txt ['q', '.']), .timer,
    .toggleChangeInput, .snapshot]

theorem commitsTyped_of_inTurn_edit :
    (run step (mount owner (txt ['a']) (some (txt ['p']))) orderlyEdit).isSome ∧
      Along step CommitsTyped (mount owner (txt ['a']) (some (txt ['p']))) orderlyEdit :=
  ⟨by decide, commitsTyped_of_inTurn owner (txt ['a']) (some (txt ['p'])) orderlyEdit (by decide)⟩

/-- `q` is typed, and before the button is pressed another device changes the password to `r`. -/
def overwrittenEdit : List Event :=
  [.snapshot, .feed (some ownCast), .toggleChangeInput, .changeText (txt ['q']),
    .remote (some (txt ['r'])), .snapshot, .toggleChangeInput]

/-- **The edit is lost.** The snapshot overwrites the draft, and `r` is stored again. -/
theorem not_always_commitsTyped :
    ¬∀ (u : User) (castId : Text) (stored : Option Text) (es : List Event),
      Along step CommitsTyped (mount u castId stored) es := by
  intro h
  have hrun := h owner (txt ['a']) (some (txt ['p'])) overwrittenEdit
  revert hrun
  decide

end Wedcast.WeddingDetails
