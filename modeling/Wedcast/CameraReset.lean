import Wedcast.Camera

/-!
What the editor shows of an earlier photo.

`reset` empties the list of stickers and leaves the text and its overlay as they are, so the next
photo comes up clean as long as a photo is only given up or stored with the text removed, and as
long as no second capture replaces a photo under its edits.
-/

namespace Wedcast.Camera

open Runs

/-- The text overlay is hidden and empty. -/
def NoText (s : State) : Prop := s.userOverlayText = [] ∧ s.showTextOverlay = false

/-- There is nothing to compose with a photo. -/
def Clean (s : State) : Prop := s.stickerList = [] ∧ NoText s

/-- The step has brought up a photo: the first one in the editor, or another one. -/
def ComesUp (s s' : State) : Prop :=
  s'.imageTaken = true ∧ (s.imageTaken = false ∨ s'.imagePreview ≠ s.imagePreview)

/-- What the editor promises of a step: a photo comes up without edits. -/
def StartsClean (platform : Platform) (s : State) (e : Event) : Prop :=
  ∀ s' ∈ step platform s e, ComesUp s s' → Clean s'

/-- The steps that leave nothing behind. The editor is reset without a text; a photo that comes
while another one is in the editor finds it without edits. -/
def Tidy (s : State) : Event → Prop
  | .captured => s.imageTaken = true → Clean s
  | .reset => NoText s
  | .proceed i => s.imageTaken = true → ∀ p ∈ s.pipelines[i]?, p.ends → NoText s
  | _ => True

instance (s : State) : Decidable (NoText s) := inferInstanceAs (Decidable (_ ∧ _))

instance (s : State) : Decidable (Clean s) := inferInstanceAs (Decidable (_ ∧ _))

instance (s s' : State) : Decidable (ComesUp s s') := inferInstanceAs (Decidable (_ ∧ _))

instance (platform : Platform) (s : State) (e : Event) : Decidable (StartsClean platform s e) :=
  inferInstanceAs (Decidable (∀ s' ∈ _, _ → _))

instance (s : State) : (e : Event) → Decidable (Tidy s e)
  | .captured => inferInstanceAs (Decidable (_ → _))
  | .reset => inferInstanceAs (Decidable (NoText s))
  | .proceed _ => inferInstanceAs (Decidable (_ → ∀ p ∈ _, _))
  | .takePicture | .captureFailed | .checkmark _ | .cover | .download | .checked _ | .saved _
  | .timer | .addSticker _ | .toggleStickers | .toggleText | .changeText _ | .focusText
  | .backdrop => isTrue trivial

variable {platform : Platform}

/-- Without a photo there is nothing in the editor. -/
def Emptied (s : State) : Prop := s.imageTaken = false → Clean s

lemma emptied_of_taken {s : State} (h : s.imageTaken = true) : Emptied s := fun hno => by
  simp [h] at hno

lemma emptied_reset {s : State} (h : NoText s) : Emptied (reset s) := fun _ => ⟨rfl, h⟩

/-- A step of the camera or of an upload that leaves the edits. -/
lemma emptied_congr {s s' : State} (h : Emptied s) (htaken : s'.imageTaken = s.imageTaken)
    (hstickers : s'.stickerList = s.stickerList) (htext : s'.userOverlayText = s.userOverlayText)
    (hshow : s'.showTextOverlay = s.showTextOverlay) : Emptied s' := by
  rw [Emptied, Clean, NoText, htaken, hstickers, htext, hshow]
  exact h

lemma emptied_proceed {s : State} (h : Emptied s) {i : ℕ} {p : Pipeline}
    (hp : s.pipelines[i]? = some p) (hg : Tidy s (.proceed i)) : Emptied (proceed i p s) := by
  by_cases hends : p.ends = true
  · rw [proceed_of_ends hends]
    refine emptied_reset ?_
    cases htaken : s.imageTaken with
    | true => exact hg htaken p hp hends
    | false => exact (h htaken).2
  · rw [proceed_of_not_ends hends]
    exact h

/-- One tidy step. -/
lemma emptied_step {s s' : State} {e : Event} (h : Emptied s) (hg : Tidy s e)
    (hs : step platform s e = some s') : Emptied s' := by
  cases e with
  | proceed i =>
    obtain ⟨p, hp, rfl⟩ := step_cases hs
    exact emptied_proceed h hp hg
  | reset =>
    cases step_cases hs
    exact emptied_reset hg
  | checkmark fails =>
    obtain ⟨htaken, photo, -, rfl⟩ := step_cases hs
    refine emptied_of_taken ?_
    unfold Camera.checkmark
    split_ifs <;> exact htaken
  | captured =>
    cases step_cases hs
    exact emptied_of_taken rfl
  | addSticker | toggleText | changeText | backdrop =>
    obtain ⟨htaken, rfl⟩ := step_cases hs
    exact emptied_of_taken htaken
  | checked response =>
    cases step_cases hs
    rw [onPermission_frame]
    exact emptied_congr h rfl rfl rfl rfl
  | takePicture | captureFailed | cover | download | saved | timer | toggleStickers | focusText =>
    cases step_cases hs
    exact emptied_congr h rfl rfl rfl rfl

def emptying (platform : Platform) : Invariant (step platform) Tidy where
  holds := Emptied
  preserved := emptied_step

/-- Any other step keeps the photo in the editor, or takes it away. -/
lemma photo_step {s s' : State} {e : Event} (hs : step platform s e = some s')
    (he : e ≠ .captured) : s'.imageTaken = false ∨
      s'.imageTaken = s.imageTaken ∧ s'.imagePreview = s.imagePreview := by
  cases e with
  | captured => exact absurd rfl he
  | proceed i =>
    obtain ⟨p, -, rfl⟩ := step_cases hs
    by_cases hends : p.ends = true
    · rw [proceed_of_ends hends]
      exact .inl rfl
    · rw [proceed_of_not_ends hends]
      exact .inr ⟨rfl, rfl⟩
  | reset =>
    cases step_cases hs
    exact .inl rfl
  | checkmark fails =>
    obtain ⟨-, photo, -, rfl⟩ := step_cases hs
    unfold Camera.checkmark
    split_ifs <;> exact .inr ⟨rfl, rfl⟩
  | checked response =>
    cases step_cases hs
    rw [onPermission_frame]
    exact .inr ⟨rfl, rfl⟩
  | addSticker | toggleText | changeText | backdrop =>
    obtain ⟨-, rfl⟩ := step_cases hs
    exact .inr ⟨rfl, rfl⟩
  | takePicture | captureFailed | cover | download | saved | timer | toggleStickers | focusText =>
    cases step_cases hs
    exact .inr ⟨rfl, rfl⟩

/-- Only a capture brings up a photo. -/
lemma captured_of_comesUp {s s' : State} {e : Event} (hs : step platform s e = some s')
    (hup : ComesUp s s') : e = .captured := by
  by_contra he
  obtain ⟨htaken, hnew⟩ := hup
  rcases photo_step hs he with hgone | ⟨hsame, hpreview⟩
  · simp [hgone] at htaken
  · rcases hnew with hnone | hother
    · simp [hsame, hnone] at htaken
    · exact hother hpreview

/-- **A photo comes up clean.** On a run of tidy steps, no sticker and no text of an earlier photo
is in the editor when a photo has come up. -/
theorem startsClean_of_tidy (platform : Platform) (es : List Event)
    (h : Along (step platform) Tidy mount es) :
    Along (step platform) (StartsClean platform) mount es := by
  refine (emptying platform).along (fun s e _ hs hg _ s' hs' hup => ?_)
    (fun _ => ⟨rfl, rfl, rfl⟩) h
  obtain rfl := captured_of_comesUp hs' hup
  have hclean : Clean s := by
    cases htaken : s.imageTaken with
    | true => exact hg htaken
    | false => exact hs htaken
  cases step_cases hs'
  exact hclean

/-- A photo gets a sticker and a text, the text is removed, and the photo is stored; another one is
taken. -/
def removedText : List Event :=
  [.takePicture, .captured, .toggleStickers, .addSticker 0, .toggleText, .changeText (txt ['x']),
    .changeText [], .checkmark none, .cover, .proceed 0, .proceed 0, .proceed 0, .proceed 0,
    .proceed 0, .takePicture, .captured]

theorem startsClean_of_tidy_removedText :
    (run (step .ios) mount removedText).isSome ∧
      Along (step .ios) (StartsClean .ios) mount removedText :=
  ⟨by decide, startsClean_of_tidy .ios removedText (by decide)⟩

/-- A photo with a text is given up, and another one is taken. -/
def keptText : List Event :=
  [.takePicture, .captured, .toggleText, .changeText (txt ['x']), .reset, .takePicture, .captured]

/-- **The text of the earlier photo is back.** -/
theorem not_always_startsClean :
    ¬∀ (platform : Platform) (es : List Event),
      Along (step platform) (StartsClean platform) mount es := by
  intro h
  have hrun := h .ios keptText
  revert hrun
  decide

end Wedcast.Camera
