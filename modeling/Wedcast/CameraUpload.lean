import Wedcast.Camera
import Wedcast.Lib.History
import Wedcast.Lib.Indexed

/-!
What becomes of a confirmed photo.

No tap on the checkmark looks at `savingPhoto`, and only a pipeline that reaches its end resets the
editor. A photo with one tap whose pipeline does not fail gets its one record, and every further one
stores a further record. With no such tap the spinner stays, unless a download takes it down that
has nothing to do with the upload.
-/

namespace Wedcast.Camera

open Runs Indexed

variable {platform : Platform}

/-! ### The run so far -/

/-- The editor as `reset` is to leave it. -/
def IsReset (s : State) : Prop :=
  s.imagePreview = none ∧ s.imageTaken = false ∧ s.savingPhoto = false ∧ s.showOverlay = false ∧
    s.stickerList = []

instance (s : State) : Decidable (IsReset s) := inferInstanceAs (Decidable (_ ∧ _))

/-- What puts the spinner up or takes it down over a photo: a tap on the checkmark, the start of a
download, and its timer. -/
inductive Mark where
  | tap | download | timer
  deriving DecidableEq

structure Notes where
  /-- The photos that had their record when the editor was last found reset. -/
  emptied : List ℕ
  /-- The photo that came up last, if it has neither been closed nor stored since. -/
  kept : Option ℕ
  last : Option Mark
  deriving DecidableEq

def Notes.init : Notes := ⟨[], none, none⟩

def note (x : State × Notes) (e : Event) (s' : State) : Notes where
  emptied := if IsReset s' then s'.uploads else x.2.emptied
  kept :=
    match e with
    | .captured => some x.1.nextPhoto
    | .reset => none
    | .proceed i => if (x.1.pipelines[i]?).any Pipeline.ends then none else x.2.kept
    | _ => x.2.kept
  last :=
    match e with
    | .checkmark _ => if x.1.hasTextInput then some .tap else x.2.last
    | .checked .authorized => some .download
    | .timer => some .timer
    | _ => x.2.last

/-- One record and an editor that has been reset since, or no record and an editor that still shows
the photo. -/
def Handled (x : State × Notes) (photo : ℕ) : Prop :=
  x.1.uploads.count photo = 1 ∧ photo ∈ x.2.emptied ∨
    photo ∉ x.1.uploads ∧ x.1.showOverlay = false ∧ x.1.imagePreview = some photo

/-- The number of taps on the photo whose pipelines do not fail. -/
def goodTaps (s : State) (photo : ℕ) : ℕ := s.taps.countP (· = (photo, none))

/-- One tap whose pipeline does not fail; or none, on a photo that is kept, with the timer of a
download after the last tap and the last start of a download. -/
def OneTapOrTimer (x : State × Notes) (photo : ℕ) : Prop :=
  goodTaps x.1 photo = 1 ∨
    goodTaps x.1 photo = 0 ∧ x.2.kept = some photo ∧ x.2.last = some .timer

instance (x : State × Notes) (photo : ℕ) : Decidable (Handled x photo) :=
  inferInstanceAs (Decidable (_ ∨ _))

/-! ### The pipelines -/

/-- A pipeline of the photo in which nothing fails. -/
def Pipeline.good (photo : ℕ) (p : Pipeline) : Bool := p.photo = photo ∧ p.fails = none

def Stage.index : Stage → ℕ
  | .capture => 0
  | .put => 1
  | .getDownloadURL => 2
  | .getSize => 3
  | .push => 4

lemma Stage.index_next {st next : Stage} (h : st.next = some next) :
    next.index = st.index + 1 := by
  cases st <;> cases h <;> rfl

lemma Stage.index_le_of_next {st : Stage} (h : st.next = none) (st' : Stage) :
    st'.index ≤ st.index := by
  cases st <;> cases h
  cases st' <;> decide

lemma Stage.index_injective {st st' : Stage} (h : st.index = st'.index) : st = st' := by
  cases st <;> cases st' <;> first | rfl | cases h

/-- What holds along every run. -/
structure Accounted (s : State) : Prop where
  /-- Every tap whose pipeline does not fail is on its way or has stored its record. -/
  count : ∀ photo, s.uploads.count photo + s.pipelines.countP (·.good photo) = goodTaps s photo
  /-- The step that is going to fail is still to come. -/
  ahead : ∀ p ∈ s.pipelines, ∀ st ∈ p.fails, p.stage.index ≤ st.index
  old : ∀ t ∈ s.taps, t.1 < s.nextPhoto
  preview : ∀ photo ∈ s.imagePreview, photo < s.nextPhoto

lemma accounted_mount : Accounted mount := by
  constructor <;> simp [mount, goodTaps]

/-- A step of the editor that takes no photo and starts no upload. -/
lemma accounted_congr {s s' : State} (h : Accounted s)
    (hpreview : ∀ photo ∈ s'.imagePreview, photo < s.nextPhoto)
    (hpipes : s'.pipelines = s.pipelines) (huploads : s'.uploads = s.uploads)
    (htaps : s'.taps = s.taps) (hnext : s'.nextPhoto = s.nextPhoto) : Accounted s' where
  count := by simpa only [goodTaps, hpipes, huploads, htaps] using h.count
  ahead := by rw [hpipes]; exact h.ahead
  old := by rw [htaps, hnext]; exact h.old
  preview := by rw [hnext]; exact hpreview

lemma Accounted.reset {s : State} (h : Accounted s) : Accounted (reset s) :=
  accounted_congr h (by simp [Camera.reset]) rfl rfl rfl rfl

lemma Accounted.captured {s : State} (h : Accounted s) : Accounted { s with
    captures := s.captures - 1
    imagePreview := some s.nextPhoto
    imageTaken := true
    nextPhoto := s.nextPhoto + 1 } where
  count := h.count
  ahead := h.ahead
  old t ht := Nat.lt_succ_of_lt (h.old t ht)
  preview := by simp

lemma Accounted.returnImage {s : State} (h : Accounted s) {photo : ℕ}
    (hpreview : s.imagePreview = some photo) (fails : Option Stage) :
    Accounted (returnImage photo fails s) where
  count p := by
    have hold := h.count p
    simp only [Camera.returnImage, goodTaps, List.countP_append, List.countP_nil,
      List.countP_cons, Pipeline.good, Prod.mk.injEq, decide_eq_true_eq] at hold ⊢
    split_ifs <;> omega
  ahead p hp := by
    rcases List.mem_append.mp hp with hp | hp
    · exact h.ahead p hp
    · rw [List.mem_singleton.mp hp]
      exact fun st _ => Nat.zero_le _
  old t ht := by
    rcases List.mem_cons.mp ht with rfl | ht
    · exact h.preview photo hpreview
    · exact h.old t ht
  preview := h.preview

/-- A pipeline fails or goes on. -/
lemma Accounted.proceed_on {s : State} (h : Accounted s) {i : ℕ} {p : Pipeline}
    (hp : s.pipelines[i]? = some p) (hends : ¬p.ends) : Accounted (proceed i p s) := by
  have hmem : p ∈ s.pipelines := List.mem_of_getElem? hp
  unfold proceed
  split_ifs with hfails
  · refine ⟨fun photo => ?_, fun p' hp' => h.ahead p' (List.mem_of_mem_eraseIdx hp'), h.old,
      h.preview⟩
    have hold := h.count photo
    rw [countP_eraseIdx _ hp] at hold
    simpa [Pipeline.good, hfails, goodTaps] using hold
  cases hnext : p.stage.next with
  | none => exact absurd (decide_eq_true ⟨hnext, hfails⟩) hends
  | some stage =>
    refine ⟨fun photo => ?_, ?_, h.old, h.preview⟩
    · have hsame : Pipeline.good photo { p with stage } = p.good photo := rfl
      rw [countP_set_of_eq _ hp hsame]
      exact h.count photo
    · intro p' hp'
      rcases List.mem_or_eq_of_mem_set hp' with hp' | rfl
      · exact h.ahead p' hp'
      · intro st hst
        have hle := h.ahead p hmem st hst
        have hne : p.stage.index ≠ st.index := fun he =>
          hfails (Stage.index_injective he ▸ hst)
        have hnext := Stage.index_next hnext
        change stage.index ≤ st.index
        omega

/-- A pipeline that has come to its last step without failing is a good one. -/
lemma Accounted.good_of_ends {s : State} (h : Accounted s) {p : Pipeline} (hp : p ∈ s.pipelines)
    (hends : p.ends) : p.fails = none := by
  obtain ⟨hnext, hfails⟩ := of_decide_eq_true hends
  cases hf : p.fails with
  | none => rfl
  | some st =>
    have hle := h.ahead p hp st hf
    have hge := Stage.index_le_of_next hnext st
    exact absurd (Stage.index_injective (Nat.le_antisymm hge hle) ▸ hf) hfails

/-- A pipeline stores its record. -/
lemma Accounted.stored {s : State} (h : Accounted s) {i : ℕ} {p : Pipeline}
    (hp : s.pipelines[i]? = some p) (hends : p.ends) :
    Accounted { s with pipelines := s.pipelines.eraseIdx i, uploads := p.photo :: s.uploads } := by
  refine ⟨fun photo => ?_, fun p' hp' => h.ahead p' (List.mem_of_mem_eraseIdx hp'), h.old,
    h.preview⟩
  have hgood := h.good_of_ends (List.mem_of_getElem? hp) hends
  have hold := h.count photo
  rw [countP_eraseIdx _ hp] at hold
  simp only [goodTaps, List.count_cons, Pipeline.good, hgood, and_true, decide_eq_true_eq,
    beq_iff_eq] at hold ⊢
  omega

/-! ### The steps -/

lemma accounted_step {s s' : State} {e : Event} (h : Accounted s)
    (hs : step platform s e = some s') : Accounted s' := by
  cases e with
  | proceed i =>
    obtain ⟨p, hp, rfl⟩ := step_cases hs
    by_cases hends : p.ends = true
    · rw [proceed_of_ends hends]
      exact (h.stored hp hends).reset
    · exact h.proceed_on hp hends
  | checkmark fails =>
    obtain ⟨-, photo, hphoto, rfl⟩ := step_cases hs
    unfold Camera.checkmark
    split_ifs
    · have hblurred : Accounted (backdrop s) := accounted_congr h h.preview rfl rfl rfl rfl
      exact hblurred.returnImage hphoto fails
    · exact accounted_congr h h.preview rfl rfl rfl rfl
  | captured =>
    cases step_cases hs
    exact h.captured
  | reset =>
    cases step_cases hs
    exact h.reset
  | checked response =>
    cases step_cases hs
    rw [onPermission_frame]
    exact accounted_congr h h.preview rfl rfl rfl rfl
  | addSticker | toggleText | changeText | backdrop =>
    obtain ⟨-, rfl⟩ := step_cases hs
    exact accounted_congr h h.preview rfl rfl rfl rfl
  | takePicture | captureFailed | cover | download | saved | timer | toggleStickers | focusText =>
    cases step_cases hs
    exact accounted_congr h h.preview rfl rfl rfl rfl

/-- A record is stored by a step that leaves the editor reset. -/
lemma uploads_step {s s' : State} {e : Event} (hs : step platform s e = some s') :
    s'.uploads = s.uploads ∨ IsReset s' := by
  cases e with
  | proceed i =>
    obtain ⟨p, -, rfl⟩ := step_cases hs
    by_cases hends : p.ends = true
    · right
      rw [proceed_of_ends hends]
      exact ⟨rfl, rfl, rfl, rfl, rfl⟩
    · left
      rw [proceed_of_not_ends hends]
  | checkmark fails =>
    obtain ⟨-, photo, -, rfl⟩ := step_cases hs
    left
    unfold Camera.checkmark
    split_ifs <;> rfl
  | checked response =>
    cases step_cases hs
    left
    rw [onPermission_frame]
  | addSticker | toggleText | changeText | backdrop =>
    obtain ⟨-, rfl⟩ := step_cases hs
    exact .inl rfl
  | takePicture | captured | captureFailed | cover | reset | download | saved | timer
  | toggleStickers | focusText =>
    cases step_cases hs
    exact .inl rfl

/-- The photo in the editor, from the one before and the event. -/
lemma kept_step {x : State × Notes} {s' : State} {e : Event} (h : x.2.kept = x.1.imagePreview)
    (hs : step platform x.1 e = some s') : (note x e s').kept = s'.imagePreview := by
  cases e with
  | proceed i =>
    obtain ⟨p, hp, rfl⟩ := step_cases hs
    by_cases hends : p.ends = true
    · rw [proceed_of_ends hends]
      simp [note, hp, hends, Camera.reset]
    · rw [proceed_of_not_ends hends]
      simpa [note, hp, hends] using h
  | checkmark fails =>
    obtain ⟨-, photo, -, rfl⟩ := step_cases hs
    unfold Camera.checkmark
    split_ifs <;> exact h
  | captured | reset =>
    cases step_cases hs
    rfl
  | checked response =>
    cases step_cases hs
    rw [onPermission_frame]
    exact h
  | addSticker | toggleText | changeText | backdrop =>
    obtain ⟨-, rfl⟩ := step_cases hs
    exact h
  | takePicture | captureFailed | cover | download | saved | timer | toggleStickers | focusText =>
    cases step_cases hs
    exact h

/-- Over a photo with a tap, the spinner is down exactly after a timer. -/
def Spun (x : State × Notes) : Prop :=
  ∀ t ∈ x.1.taps, x.1.imagePreview = some t.1 → (x.1.showOverlay = false ↔ x.2.last = some .timer)

lemma spun_step {x : State × Notes} {s' : State} {e : Event} (h : Spun x) (hacc : Accounted x.1)
    (hs : step platform x.1 e = some s') : Spun (s', note x e s') := by
  cases e with
  | proceed i =>
    obtain ⟨p, -, rfl⟩ := step_cases hs
    by_cases hends : p.ends = true
    · rw [proceed_of_ends hends]
      intro t _ he
      simp [Camera.reset] at he
    · rw [proceed_of_not_ends hends]
      exact h
  | checkmark fails =>
    obtain ⟨-, photo, hphoto, rfl⟩ := step_cases hs
    by_cases hinput : x.1.hasTextInput = true
    · intro t _ _
      simp [note, hinput, Camera.checkmark, returnImage]
    · rw [Camera.checkmark, if_neg hinput]
      intro t ht he
      simpa [note, hinput] using h t ht he
  | captured =>
    cases step_cases hs
    intro t ht he
    -- the photo is new, so no tap was on it
    have hold := hacc.old t ht
    simp only [Option.some.injEq] at he
    omega
  | reset =>
    cases step_cases hs
    intro t _ he
    simp [Camera.reset] at he
  | checked response =>
    cases step_cases hs
    cases response with
    | authorized =>
      intro t _ _
      cases platform <;> simp [note, onPermission]
    | denied | restricted | undetermined => exact h
  | timer =>
    cases step_cases hs
    exact fun t _ _ => iff_of_true rfl rfl
  | addSticker | toggleText | changeText | backdrop =>
    obtain ⟨-, rfl⟩ := step_cases hs
    exact h
  | takePicture | captureFailed | cover | download | saved | toggleStickers | focusText =>
    cases step_cases hs
    exact h

/-! ### Whole runs -/

structure Tracked (x : State × Notes) : Prop where
  accounted : Accounted x.1
  stored : ∀ photo ∈ x.1.uploads, photo ∈ x.2.emptied
  kept : x.2.kept = x.1.imagePreview
  spun : Spun x

lemma tracked_mount : Tracked (mount, .init) where
  accounted := accounted_mount
  stored := by simp [mount]
  kept := rfl
  spun := by simp [Spun, mount]

/-- One step. -/
lemma tracked_step {x y : State × Notes} {e : Event} (h : Tracked x)
    (hs : noting (step platform) note x e = some y) : Tracked y := by
  obtain ⟨s', n'⟩ := y
  obtain ⟨hs, hnote⟩ := noting_some hs
  obtain rfl : n' = note x e s' := hnote
  have hacc := accounted_step h.accounted hs
  refine ⟨hacc, fun photo hphoto => ?_, kept_step h.kept hs, spun_step h.spun h.accounted hs⟩
  change photo ∈ if IsReset s' then s'.uploads else x.2.emptied
  split_ifs with hreset
  · exact hphoto
  · rcases uploads_step hs with heq | hreset'
    · exact h.stored photo (heq ▸ hphoto)
    · exact absurd hreset' hreset

def tracking (platform : Platform) :
    Invariant (noting (step platform) note) (fun _ _ => True) where
  holds := Tracked
  preserved h _ hs := tracked_step h hs

lemma Tracked.handled_iff {x : State × Notes} (h : Tracked x) (hidle : x.1.pipelines = [])
    {t : ℕ × Option Stage} (ht : t ∈ x.1.taps) : Handled x t.1 ↔ OneTapOrTimer x t.1 := by
  have hcount : x.1.uploads.count t.1 = goodTaps x.1 t.1 := by
    simpa [hidle] using h.accounted.count t.1
  have hmem : t.1 ∉ x.1.uploads ↔ goodTaps x.1 t.1 = 0 := by
    rw [← hcount, List.count_eq_zero]
  have hstored : goodTaps x.1 t.1 = 1 → t.1 ∈ x.2.emptied := by
    intro hone
    refine h.stored t.1 (List.count_pos_iff.mp ?_)
    omega
  have hspun : x.1.showOverlay = false ∧ x.1.imagePreview = some t.1 ↔
      x.2.kept = some t.1 ∧ x.2.last = some .timer := by
    rw [h.kept, and_comm]
    exact and_congr_right fun hpreview => h.spun t ht hpreview
  rw [Handled, OneTapOrTimer, hcount, hmem, hspun]
  exact or_congr_left (and_iff_left_of_imp hstored)

/-- **A confirmed photo is handled by one good tap.** Whenever no upload is under way, a photo
whose checkmark got through has one record and an editor that has been reset, or no record and a
usable editor, exactly when one of the taps on it started a pipeline in which nothing fails, or none
did and the timer of a download has taken the spinner down over the photo. -/
theorem handled_iff_oneTapOrTimer (platform : Platform) (es : List Event) :
    Throughout (noting (step platform) note)
      (fun x => x.1.pipelines = [] → ∀ t ∈ x.1.taps, Handled x t.1 ↔ OneTapOrTimer x t.1)
      (mount, .init) es :=
  (tracking platform).throughout (fun _ hx hidle _ ht => hx.handled_iff hidle ht) tracked_mount
    (along_true _ es)

/-- A photo with a text is confirmed, and the upload of the file fails. -/
def failedRun : List Event :=
  [.takePicture, .captured, .toggleText, .changeText (txt ['x']), .checkmark (some .put), .cover,
    .proceed 0, .proceed 0]

/-- **The spinner stays.** A failed step leaves the editor covered. -/
theorem not_always_handled :
    ¬∀ (platform : Platform) (es : List Event), Throughout (noting (step platform) note)
      (fun x => x.1.pipelines = [] → ∀ t ∈ x.1.taps, Handled x t.1) (mount, .init) es := by
  intro h
  have hrun := h .ios failedRun
  revert hrun
  decide

end Wedcast.Camera
