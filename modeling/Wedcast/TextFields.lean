import Wedcast.CreateFeedFields
import Wedcast.Lib.Delayed

/-!
What a sanitising text field stores in the end.

Every such field stores a clean text at once and lets a zero-delay timer replace a dirty one by its
sanitised form. A timer does not look at the field when it fires, so a text that came after it was
started is lost. The three screens with one field are cells of their own; the four fields of the
wizard share one queue of timers, and each of them is a cell too.
-/

namespace Wedcast

open Runs Delayed

/-! ### The screens with one field -/

namespace PrivateFeed

/-- `state.password`, with the timers of its field. -/
def mount : Cell Text := ⟨[], []⟩

def sanitizePassword (text : Text) : Cell Text → Cell Text :=
  .put withSpace (removeAll forbidden text) text

end PrivateFeed

namespace LoginName

/-- `state.name`, with the timers of its field. -/
def mount : Cell Text := ⟨[], []⟩

def sanitizeName (text : Text) : Cell Text → Cell Text :=
  .put withSpace (removeAll forbiddenInName text) text

end LoginName

namespace Menu

/-- `state.feedId`, with the timers of its field. -/
def mountSearch : Cell Text := ⟨[], []⟩

/-- The sanitised form of what is typed into the search, with a `#` in front of it. -/
def hashTag (L : LowerCase) (castId : Text) : Text :=
  let sanitizedCastId := L.toLowerCase (removeAll forbidden castId)
  if sanitizedCastId ≠ [] ∧ sanitizedCastId.head? ≠ some (ch '#') then ch '#' :: sanitizedCastId
  else sanitizedCastId

/-- The handler also sets a `disableNext` that the screen never reads. -/
def addHashTag (L : LowerCase) (castId : Text) : Cell Text → Cell Text :=
  .put withSpace (hashTag L castId) castId

end Menu

/-- The three fields. -/
inductive Input where
  | searchedCastId
  | privateFeedPassword
  | loginName
  deriving DecidableEq

def Input.mount : Input → Cell Text
  | .searchedCastId => Menu.mountSearch
  | .privateFeedPassword => PrivateFeed.mount
  | .loginName => LoginName.mount

def Input.onChangeText (L : LowerCase) : Input → Text → Cell Text → Cell Text
  | .searchedCastId => Menu.addHashTag L
  | .privateFeedPassword => PrivateFeed.sanitizePassword
  | .loginName => LoginName.sanitizeName

def Input.sanitize (L : LowerCase) : Input → Text → Text
  | .searchedCastId => Menu.hashTag L
  | .privateFeedPassword => removeAll forbidden
  | .loginName => removeAll forbiddenInName

lemma Input.onChangeText_eq (L : LowerCase) (field : Input) (text : Text) :
    field.onChangeText L text = .put withSpace (field.sanitize L text) text := by
  cases field <;> rfl

/-! ### The fields of the wizard -/

namespace CreateFeed

variable {L : LowerCase} {f : Field}

/-- A field of the wizard, with its own timers. -/
def State.cell (s : State) (f : Field) : Cell Text :=
  ⟨s.field f, (s.timers.filter (·.1 = f)).map (·.2)⟩

/-- The event stores another text in the field: one that is typed, or a verified code. -/
def Event.Writes (f : Field) : Event → Prop
  | .changeText g _ => g = f
  | .phoneAuth _ (.autoVerified _) => f = .verificationCode
  | _ => False

instance (f : Field) : (e : Event) → Decidable (e.Writes f)
  | .changeText _ _ | .phoneAuth _ (.autoVerified _) => inferInstanceAs (Decidable (_ = _))
  | .phoneAuth _ .codeSent | .phoneAuth _ .error | .phoneAuth _ .autoVerifyTimeout
  | .timer | .next | .previous | .answer _ _ | .reply _ | .readFailed _ | .linkPhone _ | .confirm
  | .finish _ | .linked _ _ | .linkFailed _ _ | .signIn | .returnData _
  | .changePhoneNumber _ => isFalse id

lemma eq_changeText_of_writes {e : Event} (hf : f ≠ .verificationCode) (h : e.Writes f) :
    ∃ text, e = .changeText f text := by
  cases e with
  | changeText g text =>
    obtain rfl : g = f := h
    exact ⟨text, rfl⟩
  | phoneAuth i st =>
    cases st with
    | autoVerified code => exact absurd h hf
    | _ => exact h.elim
  | _ => exact h.elim

lemma cell_changeText_self (s : State) (text : Text) :
    (onChangeText L f text s).cell f = (s.cell f).put withSpace (sanitize L f text) text := by
  rw [onChangeText_eq]
  by_cases h : sanitize L f text = text <;> simp [State.cell, Cell.put, withSpace, h]

lemma cell_changeText_of_ne {g : Field} (hg : g ≠ f) (s : State) (text : Text) :
    (onChangeText L g text s).cell f = s.cell f := by
  rw [onChangeText_eq]
  by_cases h : sanitize L g text = text <;> simp [State.cell, Ne.symm hg, hg, h]

/-- A timer fires in the field it was started for. -/
lemma cell_timer {s : State} {g : Field} {t : Text} {rest : List (Field × Text)}
    (heq : s.timers = (g, t) :: rest) :
    let s' := State.setField { s with timers := rest } g t
    s'.cell f = s.cell f ∨ (s.cell f).fire = some (s'.cell f) := by
  have hfield := field_with s rest s.disableNext
  by_cases hg : g = f
  · subst hg
    right
    simp [State.cell, Cell.fire, heq]
  · left
    simp [State.cell, heq, hg, Ne.symm hg, hfield]

lemma goToNextPage_cell (s : State) : (goToNextPage s).cell f = s.cell f := by
  rw [goToNextPage_frame]
  cases f <;> rfl

lemma goToPreviousPage_cell (s : State) : (goToPreviousPage s).cell f = s.cell f := by
  rw [goToPreviousPage_frame]
  cases f <;> rfl

lemma confirmVerification_cell (s : State) : (confirmVerification s).cell f = s.cell f := by
  rw [confirmVerification_frame]
  cases f <;> rfl

/-- An event that does not write the field leaves it alone, or fires one of its timers. -/
lemma cell_step {s s' : State} {e : Event} (hs : step L s e = some s') (he : ¬e.Writes f) :
    s'.cell f = s.cell f ∨ (s.cell f).fire = some (s'.cell f) := by
  cases e with
  | timer =>
    obtain ⟨g, t, rest, heq, rfl⟩ := step_cases hs
    exact cell_timer heq
  | changeText g text =>
    obtain ⟨-, rfl⟩ := step_cases hs
    exact .inl (cell_changeText_of_ne he s text)
  | next =>
    obtain ⟨-, rfl⟩ := step_cases hs
    exact .inl (goToNextPage_cell s)
  | previous =>
    obtain ⟨-, rfl⟩ := step_cases hs
    exact .inl (goToPreviousPage_cell s)
  | changePhoneNumber n =>
    obtain ⟨-, rfl⟩ := step_cases hs
    cases f <;> exact .inl rfl
  | answer i taken =>
    obtain ⟨castId, edition, -, rfl⟩ := step_cases hs
    cases f <;> exact .inl rfl
  | reply i =>
    obtain ⟨r, taken, -, -, rfl⟩ := step_cases hs
    cases taken <;> cases f <;> exact .inl rfl
  | linkPhone valid =>
    obtain ⟨-, -, -, rfl⟩ := step_cases hs
    cases valid <;> cases f <;> exact .inl rfl
  | confirm =>
    obtain ⟨-, -, -, rfl⟩ := step_cases hs
    exact .inl (confirmVerification_cell s)
  | phoneAuth i st =>
    obtain ⟨-, rfl⟩ := step_cases hs
    cases st with
    | codeSent | error | autoVerifyTimeout => cases f <;> exact .inl rfl
    | autoVerified code =>
      left
      rw [onStateChanged, confirmVerification_cell]
      cases f with
      | verificationCode => exact absurd rfl he
      | feedName | castId | password => rfl
  | finish newFeedId =>
    obtain ⟨-, -, rfl⟩ := step_cases hs
    exact .inl rfl
  | readFailed i | linked i _ | linkFailed i _ =>
    obtain ⟨-, rfl⟩ := step_cases hs
    cases f <;> exact .inl rfl
  | signIn | returnData avatarUri =>
    cases step_cases hs
    cases f <;> exact .inl rfl

lemma settled_run {s s' : State} {es : List Event} (h : run (step L) s es = some s')
    (hes : ∀ e ∈ es, ¬e.Writes f) : (s'.cell f).settled = (s.cell f).settled := by
  induction es generalizing s with
  | nil =>
    cases h
    rfl
  | cons e es ih =>
    obtain ⟨s₁, hs, hrest⟩ := run_cons_some h
    rw [ih hrest fun e' he' => hes e' (by simp [he'])]
    rcases cell_step hs (hes e (by simp)) with hsame | hfire
    · rw [hsame]
    · exact Cell.settled_fire hfire

end CreateFeed

/-! ### The text that came last -/

/-- The text is not clean, or no timer of the field is pending, or the last one pending is to store
the same text. -/
def Unhurried (sanitizedText text : Text) (pending : List Text) : Prop :=
  sanitizedText ≠ text ∨ ∀ t ∈ pending.getLast?, t = sanitizedText

instance (sanitizedText text : Text) (pending : List Text) :
    Decidable (Unhurried sanitizedText text pending) :=
  inferInstanceAs (Decidable (_ ∨ ∀ t ∈ _, _))

/-- **What a field stores in the end.** After the last text typed into one of the seven fields, and
once its timers have fired, the field stores the sanitised form of that text exactly when the text
did not overtake a timer. -/
theorem stored_eq_iff_unhurried (L : LowerCase) :
    (∀ (field : Input) (es es' : List (Delayed.Event Text)) (text : Text) (c c' : Cell Text),
      run (Delayed.step (field.onChangeText L)) field.mount es = some c →
      run (Delayed.step (field.onChangeText L)) c (.changeText text :: es') = some c' →
      (∀ e ∈ es', e = .timer) → c'.timers = [] →
      (c'.value = field.sanitize L text ↔ Unhurried (field.sanitize L text) text c.timers)) ∧
    ∀ (u : User) (f : CreateFeed.Field) (es es' : List CreateFeed.Event) (text : Text)
      (s s' : CreateFeed.State),
      run (CreateFeed.step L) (CreateFeed.mount u) es = some s →
      run (CreateFeed.step L) s (.changeText f text :: es') = some s' →
      (∀ e ∈ es', ¬e.Writes f) → (s'.cell f).timers = [] →
      (s'.field f = CreateFeed.sanitize L f text ↔
        Unhurried (CreateFeed.sanitize L f text) text (s.cell f).timers) := by
  constructor
  · intro field es es' text c c' _ h htimers hnil
    obtain ⟨c₁, hput, hrest⟩ := run_cons_some h
    obtain rfl : field.onChangeText L text c = c₁ := Option.some.inj hput
    rw [← Cell.settled_of_nil hnil, settled_run_timers hrest htimers, Input.onChangeText_eq]
    exact Cell.settled_put_eq_iff
  · intro u f es es' text s s' _ h hes hnil
    obtain ⟨s₁, hput, hrest⟩ := run_cons_some h
    obtain ⟨-, rfl⟩ := CreateFeed.step_cases hput
    have hvalue : s'.field f = (s'.cell f).settled := (Cell.settled_of_nil hnil).symm
    rw [hvalue, CreateFeed.settled_run hrest hes, CreateFeed.cell_changeText_self]
    exact Cell.settled_put_eq_iff

/-- A dirty text, its timer, and another dirty text. -/
theorem stored_eq_iff_unhurried_typed :
    (∃ c c', run (Delayed.step (Input.loginName.onChangeText asciiLowerCase)) Input.loginName.mount
        [.changeText (txt ['A', '.']), .timer] = some c ∧
      run (Delayed.step (Input.loginName.onChangeText asciiLowerCase)) c
        [.changeText (txt ['A', 'n', '.']), .timer] = some c' ∧ c'.value = txt ['A', 'n']) ∧
    ∃ s s', run (CreateFeed.step asciiLowerCase) (CreateFeed.mount CreateFeed.host)
        [.changeText .password (txt ['p', ' ']), .timer] = some s ∧
      run (CreateFeed.step asciiLowerCase) s
        [.changeText .password (txt ['p', 'q'])] = some s' ∧ s'.password = txt ['p', 'q'] := by
  have h := stored_eq_iff_unhurried asciiLowerCase
  refine ⟨⟨_, _, rfl, rfl, ?_⟩, ⟨_, _, rfl, rfl, ?_⟩⟩
  · exact (h.1 .loginName [.changeText (txt ['A', '.']), .timer] [.timer] (txt ['A', 'n', '.']) _ _
      rfl rfl (by simp) rfl).mpr (by decide)
  · exact (h.2 CreateFeed.host .password [.changeText .password (txt ['p', ' ']), .timer] []
      (txt ['p', 'q']) _ _ rfl rfl (by simp) rfl).mpr (by decide)

/-- **The older text wins.** `ab.` is typed and corrected to `abc` before its timer fires, which
then stores `ab`. -/
theorem not_always_stored :
    ¬∀ (L : LowerCase) (field : Input) (es es' : List (Delayed.Event Text)) (text : Text)
      (c c' : Cell Text), run (Delayed.step (field.onChangeText L)) field.mount es = some c →
      run (Delayed.step (field.onChangeText L)) c (.changeText text :: es') = some c' →
      (∀ e ∈ es', e = .timer) → c'.timers = [] → c'.value = field.sanitize L text := by
  intro h
  have hrun := h asciiLowerCase .privateFeedPassword [.changeText (txt ['a', 'b', '.'])] [.timer]
    (txt ['a', 'b', 'c']) _ _ rfl rfl (by simp) (by decide)
  revert hrun
  decide

end Wedcast
