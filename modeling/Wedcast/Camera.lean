import Mathlib.Tactic.SplitIfs
import Mathlib.Tactic.Tauto
import Wedcast.CameraRoll
import Wedcast.Lib.Runs
import Wedcast.Text

/-!
The editor of `CameraComponent` and the upload of a photo by `Main`.

A photo is known by the order of its capture. A tap on the checkmark that gets through starts a
pipeline of five asynchronous steps across the two components; its last step stores the record and
resets the editor. A step that fails ends its pipeline, and nothing else. The download button puts
up the same spinner, and takes it down one second after its save. What the overlays about the
permissions do is in `Permissions`.
-/

namespace Wedcast.Camera

/-- The asynchronous steps from the checkmark to the record of the photo. -/
inductive Stage where
  | capture | put | getDownloadURL | getSize | push
  deriving DecidableEq

/-- An upload under way; `fails` is the step that is going to fail, if any. -/
structure Pipeline where
  photo : ℕ
  stage : Stage
  fails : Option Stage
  deriving DecidableEq

/-- "", "Uploading image..." or "Downloading image..." -/
inductive OverlayText where
  | empty
  | uploading
  | downloading
  deriving DecidableEq

structure State where
  imagePreview : Option ℕ
  imageTaken : Bool
  savingPhoto : Bool
  showOverlay : Bool
  overlayText : OverlayText
  stickerList : List ℕ
  stickerMenuVisible : Bool
  textOverlayFocused : Bool
  showTextOverlay : Bool
  userOverlayText : Text
  /-- The spinner has appeared over the screen. -/
  covered : Bool
  /-- Captures of the camera not finished yet. -/
  captures : ℕ
  nextPhoto : ℕ
  /-- The permission checks of the download button not answered yet. -/
  checks : ℕ
  /-- The saves to the camera roll that `saveToCameraRoll` waits for. -/
  saves : ℕ
  /-- The one-second timers of the downloads. -/
  timers : ℕ
  pipelines : List Pipeline
  /-- The photos of the records under `uploads`, the last one in front. -/
  uploads : List ℕ
  /-- History: the taps on the checkmark that got through, the last one in front. -/
  taps : List (ℕ × Option Stage)
  deriving DecidableEq

def mount : State where
  imagePreview := none
  imageTaken := false
  savingPhoto := false
  showOverlay := false
  overlayText := .empty
  stickerList := []
  stickerMenuVisible := false
  textOverlayFocused := false
  showTextOverlay := false
  userOverlayText := []
  covered := false
  captures := 0
  nextPhoto := 0
  checks := 0
  saves := 0
  timers := 0
  pipelines := []
  uploads := []
  taps := []

/-- `this.userTextOverlay`, which is null while the text input is not rendered. -/
def State.hasTextInput (s : State) : Bool := s.imageTaken && s.showTextOverlay

def reset (s : State) : State :=
  { s with
    imagePreview := none
    imageTaken := false
    savingPhoto := false
    showOverlay := false
    covered := false
    stickerList := [] }

/-- `returnImage`: `viewShot` captures the photo on the screen. -/
def returnImage (photo : ℕ) (fails : Option Stage) (s : State) : State :=
  { s with
    savingPhoto := true
    showOverlay := true
    overlayText := .uploading
    pipelines := s.pipelines ++ [⟨photo, .capture, fails⟩]
    taps := (photo, fails) :: s.taps }

/-- The tap on the backdrop of the focused text input. -/
def backdrop (s : State) : State :=
  { s with
    textOverlayFocused := false
    showTextOverlay := if s.userOverlayText = [] then false else s.showTextOverlay }

/-- The tap on the checkmark: the same statements, and then `returnImage`. Without a text input
the call of `blur()` throws. -/
def checkmark (photo : ℕ) (fails : Option Stage) (s : State) : State :=
  if s.hasTextInput then returnImage photo fails (backdrop s)
  else { s with textOverlayFocused := false }

def toggleText (s : State) : State :=
  { s with
    textOverlayFocused := true
    showTextOverlay := !s.showTextOverlay
    overlayText := .empty }

def Stage.next : Stage → Option Stage
  | .capture => some .put
  | .put => some .getDownloadURL
  | .getDownloadURL => some .getSize
  | .getSize => some .push
  | .push => none

/-- The next step of the `i`-th pipeline ends. -/
def proceed (i : ℕ) (p : Pipeline) (s : State) : State :=
  if p.fails = some p.stage then { s with pipelines := s.pipelines.eraseIdx i }
  else match p.stage.next with
    | some stage => { s with pipelines := s.pipelines.set i { p with stage } }
    | none =>
      reset { s with pipelines := s.pipelines.eraseIdx i, uploads := p.photo :: s.uploads }

/-- The pipeline is about to store its record, and to reset the editor. -/
def Pipeline.ends (p : Pipeline) : Bool := p.stage.next = none ∧ p.fails ≠ some p.stage

lemma proceed_of_ends {p : Pipeline} (h : p.ends) (i : ℕ) (s : State) :
    proceed i p s =
      reset { s with pipelines := s.pipelines.eraseIdx i, uploads := p.photo :: s.uploads } := by
  obtain ⟨hnext, hfails⟩ := of_decide_eq_true h
  simp only [proceed, if_neg hfails, hnext]

lemma proceed_of_not_ends {p : Pipeline} (h : ¬p.ends) (i : ℕ) (s : State) :
    proceed i p s = { s with pipelines := (proceed i p s).pipelines } := by
  unfold proceed
  split_ifs with hfails
  · rfl
  · cases hnext : p.stage.next with
    | some stage => rfl
    | none => exact absurd (decide_eq_true ⟨hnext, hfails⟩) h

/-- The response to the check of the download button. On Android `saveToCameraRoll` waits for
nothing, and its promise is fulfilled at once. -/
def onPermission (platform : Platform) (response : Permission) (s : State) : State :=
  match response with
  | .authorized =>
    let s := { s with showOverlay := true, overlayText := .downloading }
    match platform with
    | .ios => { s with saves := s.saves + 1 }
    | .android => { s with timers := s.timers + 1 }
  | _ => s

/-- A response leaves everything but the spinner and the save alone. -/
lemma onPermission_frame (platform : Platform) (response : Permission) (s : State) :
    onPermission platform response s = { s with
      showOverlay := (onPermission platform response s).showOverlay
      overlayText := (onPermission platform response s).overlayText
      saves := (onPermission platform response s).saves
      timers := (onPermission platform response s).timers } := by
  cases response <;> cases platform <;> rfl

/-- The callback of the one-second timer. -/
def onTimer (s : State) : State :=
  { s with showOverlay := false, covered := false, overlayText := .empty }

inductive Event where
  | takePicture
  | captured
  | captureFailed
  /-- A tap on the checkmark, with the step that is going to fail if it gets through. -/
  | checkmark (fails : Option Stage)
  /-- The spinner appears. -/
  | cover
  | proceed (i : ℕ)
  | reset
  /-- A tap on the download button, and the response to its check. -/
  | download
  | checked (response : Permission)
  /-- A save that was waited for ends. -/
  | saved (ok : Bool)
  | timer
  | addSticker (sticker : ℕ)
  | toggleStickers
  | toggleText
  | changeText (text : Text)
  | focusText
  | backdrop
  deriving DecidableEq

/-- The spinner keeps the taps away once it has appeared. -/
def step (platform : Platform) (s : State) : Event → Option State
  | .takePicture =>
    if !s.imageTaken && !s.covered then some { s with captures := s.captures + 1 } else none
  | .captured =>
    if 0 < s.captures then
      some { s with
        captures := s.captures - 1
        imagePreview := some s.nextPhoto
        imageTaken := true
        nextPhoto := s.nextPhoto + 1 }
    else none
  | .captureFailed => if 0 < s.captures then some { s with captures := s.captures - 1 } else none
  | .checkmark fails =>
    if s.imageTaken && !s.covered then s.imagePreview.map (Camera.checkmark · fails s) else none
  | .cover => if s.showOverlay then some { s with covered := true } else none
  | .proceed i => (s.pipelines[i]?).map (Camera.proceed i · s)
  | .reset => if s.imageTaken && !s.covered then some (Camera.reset s) else none
  | .download =>
    if s.imageTaken && !s.covered then some { s with checks := s.checks + 1 } else none
  | .checked response =>
    if 0 < s.checks then some (onPermission platform response { s with checks := s.checks - 1 })
    else none
  | .saved ok =>
    if 0 < s.saves then some { s with saves := s.saves - 1, timers := s.timers + ok.toNat }
    else none
  | .timer => if 0 < s.timers then some (onTimer { s with timers := s.timers - 1 }) else none
  | .addSticker sticker =>
    if s.imageTaken && s.stickerMenuVisible && !s.covered then
      some { s with stickerList := s.stickerList ++ [sticker] }
    else none
  | .toggleStickers =>
    if s.imageTaken && !s.covered then
      some { s with stickerMenuVisible := !s.stickerMenuVisible }
    else none
  | .toggleText => if s.imageTaken && !s.covered then some (Camera.toggleText s) else none
  -- what is typed reaches the input that has the focus
  | .changeText text => if s.hasTextInput then some { s with userOverlayText := text } else none
  | .focusText =>
    if s.hasTextInput && !s.covered then some { s with textOverlayFocused := true } else none
  | .backdrop =>
    if s.hasTextInput && s.textOverlayFocused && !s.covered then some (Camera.backdrop s)
    else none

/-- What a step does. -/
lemma step_cases {platform : Platform} {s s' : State} {e : Event}
    (h : step platform s e = some s') :
    match e with
    | .takePicture => s' = { s with captures := s.captures + 1 }
    | .captured => s' = { s with
        captures := s.captures - 1
        imagePreview := some s.nextPhoto
        imageTaken := true
        nextPhoto := s.nextPhoto + 1 }
    | .captureFailed => s' = { s with captures := s.captures - 1 }
    | .checkmark fails => s.imageTaken ∧
        ∃ photo, s.imagePreview = some photo ∧ s' = Camera.checkmark photo fails s
    | .cover => s' = { s with covered := true }
    | .proceed i => ∃ p, s.pipelines[i]? = some p ∧ s' = Camera.proceed i p s
    | .reset => s' = Camera.reset s
    | .download => s' = { s with checks := s.checks + 1 }
    | .checked response => s' = onPermission platform response { s with checks := s.checks - 1 }
    | .saved ok => s' = { s with saves := s.saves - 1, timers := s.timers + ok.toNat }
    | .timer => s' = onTimer { s with timers := s.timers - 1 }
    | .addSticker sticker => s.imageTaken ∧ s' = { s with stickerList := s.stickerList ++ [sticker] }
    | .toggleStickers => s' = { s with stickerMenuVisible := !s.stickerMenuVisible }
    | .toggleText => s.imageTaken ∧ s' = Camera.toggleText s
    | .changeText text => s.imageTaken ∧ s' = { s with userOverlayText := text }
    | .focusText => s' = { s with textOverlayFocused := true }
    | .backdrop => s.imageTaken ∧ s' = Camera.backdrop s := by
  cases e with
  | proceed i =>
    obtain ⟨p, hp, rfl⟩ := Option.map_eq_some_iff.mp h
    exact ⟨p, hp, rfl⟩
  | checkmark fails =>
    simp only [step] at h
    split_ifs at h with hon
    obtain ⟨photo, hphoto, rfl⟩ := Option.map_eq_some_iff.mp h
    exact ⟨(Bool.and_eq_true_iff.mp hon).1, photo, hphoto, rfl⟩
  | addSticker | toggleText | changeText | backdrop =>
    simp only [step] at h
    split_ifs at h with hon
    cases h
    simp only [State.hasTextInput, Bool.and_eq_true] at hon
    exact ⟨by tauto, rfl⟩
  | takePicture | captured | captureFailed | cover | reset | download | checked | saved | timer
  | toggleStickers | focusText =>
    simp only [step] at h
    split_ifs at h
    cases h
    rfl

end Wedcast.Camera
