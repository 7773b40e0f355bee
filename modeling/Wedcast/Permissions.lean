import Mathlib.Logic.Function.Basic
import Mathlib.Tactic.SplitIfs
import Wedcast.CameraRoll
import Wedcast.Lib.Indexed
import Wedcast.Lib.Runs

/-!
Asking for the camera and for the photo library.

`CameraComponent` asks for both, `Feed` and `ImageView` for the library. Every screen holds a
response of its own, while the system has one answer for the whole app, and the responses reach the
screens in any order. What a screen does goes by the response it holds: so the app takes pictures
and saves photos only where the system allows it, but it can send a user to the settings who has
never been asked.
-/

namespace Wedcast.Permissions

open Runs

/-- `"camera"` and `"photo"` -/
inductive Kind where
  | camera | photo
  deriving DecidableEq

/-- A promise of `Permissions` that has not been handled. -/
inductive Pending where
  /-- `check`, with what the system has said -/
  | checked (response : Permission)
  /-- `request`, while the system asks the user -/
  | request
  | requested (response : Permission)
  deriving DecidableEq

def Pending.response? : Pending → Option Permission
  | .checked response | .requested response => some response
  | .request => none

/-- What a screen keeps for one kind: `cameraPermission` and `showCameraPermissionOverlay`, or
`downloadPermission` and `showDownloadPermissionOverlay`. -/
structure Prompt where
  permission : Option Permission
  showOverlay : Bool
  pending : List Pending
  deriving DecidableEq

def Prompt.init : Prompt := ⟨none, false, []⟩

/-- `alertForPhotosPermission` or `alertForDownloadPermission` -/
def Prompt.alert (p : Prompt) : Prompt := { p with showOverlay := true }

/-- The callback of `check`, up to what is done with the permission. -/
def Prompt.onCheck (response : Permission) (p : Prompt) : Prompt :=
  let p := { p with permission := some response }
  if response = .undetermined then p.alert else p

/-- The callback of `request` in `requestPermission` or `requestDownloadPermission`. -/
def Prompt.onRequest (response : Permission) (p : Prompt) : Prompt :=
  { p with permission := some response, showOverlay := false }

variable {ι : Type*}

structure World (ι : Type*) where
  /-- What the system says. -/
  os : Kind → Permission
  prompt : ι → Prompt

def World.init (os : Kind → Permission) : World ι := ⟨os, fun _ => .init⟩

variable [DecidableEq ι]

def World.setPrompt (w : World ι) (i : ι) (p : Prompt) : World ι :=
  { w with prompt := Function.update w.prompt i p }

/-- A call of `check`: the system says at once what it knows. -/
def World.check (kind : ι → Kind) (w : World ι) (i : ι) : World ι :=
  let p := w.prompt i
  w.setPrompt i { p with pending := p.pending ++ [.checked (w.os (kind i))] }

inductive Event (ι : Type*) where
  /-- `componentDidMount` of the camera -/
  | mount (i : ι)
  /-- The button of the camera, or a download button. -/
  | press (i : ι)
  /-- "Not now" -/
  | notNow (i : ι)
  /-- "OK!" -/
  | ok (i : ι)
  /-- The user answers the `k`-th promise, if the system has to ask. -/
  | answer (i : ι) (k : ℕ) (granted : Bool)
  /-- The callback of the `k`-th promise runs. -/
  | arrive (i : ι) (k : ℕ)
  /-- The user changes the settings of the app. -/
  | settings (kind : Kind) (response : Permission)
  deriving DecidableEq

/-- What the system says once it has been asked. -/
def asked (os : Permission) (granted : Bool) : Permission :=
  if os = .undetermined then (if granted then .authorized else .denied) else os

def step (kind : ι → Kind) (w : World ι) : Event ι → Option (World ι)
  | .mount i => if kind i = .camera then some (w.check kind i) else none
  | .press i =>
    match kind i with
    | .photo => some (w.check kind i)
    | .camera =>
      -- `takePicture`, or the overlay
      if (w.prompt i).permission = some .authorized then some w
      else some (w.setPrompt i (w.prompt i).alert)
  | .notNow i =>
    if (w.prompt i).showOverlay then
      some (w.setPrompt i { w.prompt i with showOverlay := false })
    else none
  | .ok i =>
    let p := w.prompt i
    if p.showOverlay then
      if p.permission = some .undetermined then
        some (w.setPrompt i { p with pending := p.pending ++ [.request] })
      -- `openSettings`
      else some w
    else none
  | .answer i k granted =>
    let p := w.prompt i
    match p.pending[k]? with
    | some .request =>
      let response := asked (w.os (kind i)) granted
      some ({ w with os := Function.update w.os (kind i) response }.setPrompt i
        { p with pending := p.pending.set k (.requested response) })
    | _ => none
  | .arrive i k =>
    let p := { w.prompt i with pending := (w.prompt i).pending.eraseIdx k }
    match (w.prompt i).pending[k]? with
    | some (.checked response) => some (w.setPrompt i (p.onCheck response))
    | some (.requested response) => some (w.setPrompt i (p.onRequest response))
    | _ => none
  | .settings k response =>
    if response = .undetermined then none
    else some { w with os := Function.update w.os k response }

/-- The kind of which the step makes use: it takes a picture, or saves a photo. -/
def used (kind : ι → Kind) (w : World ι) : Event ι → Option Kind
  | .press i =>
    if kind i = .camera ∧ (w.prompt i).permission = some .authorized then some .camera else none
  | .arrive i k =>
    if kind i = .photo ∧ (w.prompt i).pending[k]? = some (.checked .authorized) then some .photo
    else none
  | _ => none

/-- The kind for which the step opens the settings. -/
def opened (kind : ι → Kind) (w : World ι) : Event ι → Option Kind
  | .ok i =>
    if (w.prompt i).showOverlay ∧ (w.prompt i).permission ≠ some .undetermined then some (kind i)
    else none
  | _ => none

/-! ### The responses and the system -/

/-- Every response that a screen holds or is about to get is related to what the system says. -/
structure Told (kind : ι → Kind) (R : Permission → Permission → Prop) (w : World ι) : Prop where
  held : ∀ i, ∀ response ∈ (w.prompt i).permission, R (w.os (kind i)) response
  pending : ∀ i, ∀ p ∈ (w.prompt i).pending, ∀ response ∈ p.response?, R (w.os (kind i)) response

variable {kind : ι → Kind} {R : Permission → Permission → Prop} {w : World ι}

omit [DecidableEq ι] in
lemma told_init (os : Kind → Permission) : Told kind R (World.init os) :=
  ⟨by simp [World.init, Prompt.init], by simp [World.init, Prompt.init]⟩

lemma Told.setPrompt (h : Told kind R w) {i : ι} {p : Prompt}
    (hheld : ∀ response ∈ p.permission, R (w.os (kind i)) response)
    (hpending : ∀ q ∈ p.pending, ∀ response ∈ q.response?, R (w.os (kind i)) response) :
    Told kind R (w.setPrompt i p) := by
  constructor
  · intro j
    by_cases hj : j = i
    · subst hj
      simpa [World.setPrompt] using hheld
    · simpa [World.setPrompt, hj] using h.held j
  · intro j
    by_cases hj : j = i
    · subst hj
      simpa [World.setPrompt] using hpending
    · simpa [World.setPrompt, hj] using h.pending j

/-- The screen keeps its response, and waits for some promises. -/
lemma Told.wait (h : Told kind R w) {i : ι} {showOverlay : Bool} {pending : List Pending}
    (hpending : ∀ q ∈ pending, q ∈ (w.prompt i).pending ∨
      ∀ response ∈ q.response?, R (w.os (kind i)) response) :
    Told kind R (w.setPrompt i ⟨(w.prompt i).permission, showOverlay, pending⟩) :=
  h.setPrompt (h.held i) fun q hq => (hpending q hq).elim (h.pending i q) id

/-- A callback hands over its response. -/
lemma Told.take (h : Told kind R w) {i : ι} {k : ℕ} {q : Pending} {response : Permission}
    (hq : (w.prompt i).pending[k]? = some q) (hresponse : q.response? = some response)
    (showOverlay : Bool) : Told kind R (w.setPrompt i
      ⟨some response, showOverlay, (w.prompt i).pending.eraseIdx k⟩) := by
  refine h.setPrompt (fun response' hr => ?_) fun q' hq' => h.pending i q' ?_
  · obtain rfl := Option.some.inj hr
    exact h.pending i q (List.mem_of_getElem? hq) response hresponse
  · exact List.mem_of_mem_eraseIdx hq'

omit [DecidableEq ι] in
/-- The system changes what it says. -/
lemma Told.setOs (h : Told kind R w) {os : Kind → Permission}
    (hos : ∀ k response, R (w.os k) response → R (os k) response) :
    Told kind R { w with os } :=
  ⟨fun i response hr => hos _ _ (h.held i response hr),
    fun i q hq response hr => hos _ _ (h.pending i q hq response hr)⟩

/-- **One step** keeps a relation that holds of what the system says and that its changes keep. -/
lemma told_step {w' : World ι} {e : Event ι} (hR : ∀ os, R os os)
    (hos : ∀ k response, R (w.os k) response → R (w'.os k) response) (h : Told kind R w)
    (hs : step kind w e = some w') : Told kind R w' := by
  have hcheck : ∀ i, Told kind R (w.check kind i) := by
    intro i
    refine h.wait fun q hq => ?_
    rcases List.mem_append.mp hq with hq | hq
    · exact .inl hq
    · obtain rfl := List.mem_singleton.mp hq
      exact .inr fun response hr => Option.some.inj hr ▸ hR _
  have hsame : ∀ i showOverlay, Told kind R (w.setPrompt i
      ⟨(w.prompt i).permission, showOverlay, (w.prompt i).pending⟩) :=
    fun i showOverlay => h.wait fun q hq => .inl hq
  cases e with
  | mount i =>
    simp only [step] at hs
    split_ifs at hs
    cases hs
    exact hcheck i
  | press i =>
    simp only [step] at hs
    split at hs
    · cases hs
      exact hcheck i
    · split_ifs at hs <;> cases hs
      · exact h
      · exact hsame i true
  | notNow i =>
    simp only [step] at hs
    split_ifs at hs
    cases hs
    exact hsame i false
  | ok i =>
    simp only [step] at hs
    split_ifs at hs <;> cases hs
    · refine h.wait fun q hq => ?_
      rcases List.mem_append.mp hq with hq | hq
      · exact .inl hq
      · obtain rfl := List.mem_singleton.mp hq
        exact .inr fun response hr => nomatch hr
    · exact h
  | answer i k granted =>
    simp only [step] at hs
    split at hs
    · cases hs
      have hupdate : Told kind R
          { w with os := Function.update w.os (kind i) (asked (w.os (kind i)) granted) } :=
        h.setOs hos
      refine hupdate.wait fun q hq => ?_
      rcases List.mem_or_eq_of_mem_set hq with hq | rfl
      · exact .inl hq
      · refine .inr fun response hr => ?_
        obtain rfl := Option.some.inj hr
        simpa using hR _
    · cases hs
  | arrive i k =>
    simp only [step] at hs
    split at hs
    · rename_i response hq
      cases hs
      simp only [Prompt.onCheck, Prompt.alert]
      split_ifs
      · exact h.take hq rfl true
      · exact h.take hq rfl (w.prompt i).showOverlay
    · rename_i response hq
      cases hs
      exact h.take hq rfl false
    · cases hs
  | settings k response =>
    simp only [step] at hs
    split_ifs at hs
    cases hs
    exact h.setOs hos

/-- The system changes its answer when it has asked the user, or in the settings. -/
lemma os_step {w' : World ι} {e : Event ι} (hs : step kind w e = some w') (k : Kind) :
    w'.os k = w.os k ∨
      w'.os k ≠ .undetermined ∧ (w.os k = .undetermined ∨ e = .settings k (w'.os k)) := by
  cases e with
  | answer i j granted =>
    simp only [step] at hs
    split at hs
    · cases hs
      by_cases hk : k = kind i
      · subst hk
        simp only [World.setPrompt, Function.update_self, asked]
        split_ifs with hos hgranted
        · simp [hos]
        · simp [hos]
        · exact .inl rfl
      · exact .inl (by simp [World.setPrompt, hk])
    · cases hs
  | settings k' response =>
    simp only [step] at hs
    split_ifs at hs with hresponse
    cases hs
    by_cases hk : k = k'
    · subst hk
      exact .inr ⟨by simpa using hresponse, .inr (by simp)⟩
    · exact .inl (by simp [hk])
  | mount | press | notNow | ok | arrive =>
    left
    simp only [step] at hs
    repeat' split at hs
    all_goals cases hs <;> rfl

/-! ### Pictures are taken and photos saved with permission -/

/-- The permission is not withdrawn in the settings. -/
def Kept (w : World ι) : Event ι → Prop
  | .settings k response => w.os k = .authorized → response = .authorized
  | _ => True

instance (w : World ι) : (e : Event ι) → Decidable (Kept w e)
  | .settings _ _ => inferInstanceAs (Decidable (_ → _))
  | .mount _ | .press _ | .notNow _ | .ok _ | .answer _ _ _ | .arrive _ _ => isTrue trivial

/-- A response that allows something is what the system says. -/
def Allows (os response : Permission) : Prop := response = .authorized → os = .authorized

def keeping (kind : ι → Kind) : Invariant (step kind) Kept where
  holds := Told kind Allows
  preserved {w w' e} h hg hs := by
    refine told_step (fun os hos => hos) (fun k response hallows hresponse => ?_) h hs
    have hauthorized := hallows hresponse
    rcases os_step hs k with hsame | ⟨-, hunasked | rfl⟩
    · rw [hsame, hauthorized]
    · rw [hunasked] at hauthorized
      cases hauthorized
    · exact hg hauthorized

/-- **Nothing without permission.** As long as the permission is not withdrawn, no screen takes a
picture or saves a photo unless the system allows it, in whatever order its responses reach the
screens. -/
theorem used_authorized (kind : ι → Kind) (os : Kind → Permission) {es : List (Event ι)}
    (h : Along (step kind) Kept (World.init os) es) :
    Along (step kind) (fun w e => ∀ k ∈ used kind w e, w.os k = .authorized) (World.init os) es := by
  refine (keeping kind).along (fun w e w' htold _ hs k hk => ?_) (told_init os) h
  cases e with
  | press i =>
    obtain ⟨⟨hkind, hheld⟩, rfl⟩ : (kind i = .camera ∧ (w.prompt i).permission = some .authorized) ∧
        Kind.camera = k := by simpa [used] using hk
    rw [← hkind]
    exact htold.held i _ hheld rfl
  | arrive i j =>
    obtain ⟨⟨hkind, hget⟩, rfl⟩ : (kind i = .photo ∧
        (w.prompt i).pending[j]? = some (.checked .authorized)) ∧ Kind.photo = k := by
      simpa [used] using hk
    rw [← hkind]
    exact htold.pending i _ (List.mem_of_getElem? hget) _ rfl rfl
  | mount | notNow | ok | answer | settings => cases hk

/-- A user allows the camera and takes a picture, but does not want it in the library. -/
def pictureRun : List (Event Kind) :=
  [.mount .camera, .arrive .camera 0, .ok .camera, .answer .camera 0 true, .arrive .camera 0,
    .press .camera, .press .photo, .arrive .photo 0, .notNow .photo]

theorem used_authorized_picture :
    (run (step id) (World.init fun _ => .undetermined) pictureRun).isSome ∧
      Along (step id) (fun w e => ∀ k ∈ used id w e, w.os k = .authorized)
        (World.init fun _ => .undetermined) pictureRun :=
  ⟨by decide, used_authorized id (fun _ => .undetermined) (by decide)⟩

/-! ### The settings are for users who have been asked -/

/-- The camera's button is not pressed before the first response. -/
def Waits (kind : ι → Kind) (w : World ι) : Event ι → Prop
  | .press i => kind i = .camera → (w.prompt i).permission ≠ none
  | _ => True

instance (kind : ι → Kind) (w : World ι) : (e : Event ι) → Decidable (Waits kind w e)
  | .press _ => inferInstanceAs (Decidable (_ → _))
  | .mount _ | .notNow _ | .ok _ | .answer _ _ _ | .arrive _ _ | .settings _ _ => isTrue trivial

/-- Where the system has not been asked, so says the response. -/
def Unasked (os response : Permission) : Prop := os = .undetermined → response = .undetermined

/-- The overlay is shown by a screen that has had a response. -/
def Shown (w : World ι) : Prop :=
  ∀ i, (w.prompt i).showOverlay → (w.prompt i).permission ≠ none

lemma Shown.setPrompt (h : Shown w) {i : ι} {p : Prompt}
    (hp : p.showOverlay → p.permission ≠ none) : Shown (w.setPrompt i p) := by
  intro j
  by_cases hj : j = i
  · subst hj
    simpa [World.setPrompt] using hp
  · simpa [World.setPrompt, hj] using h j

lemma shown_step {w' : World ι} {e : Event ι} (h : Shown w) (hg : Waits kind w e)
    (hs : step kind w e = some w') : Shown w' := by
  cases e with
  | mount i =>
    simp only [step] at hs
    split_ifs at hs
    cases hs
    exact h.setPrompt (h i)
  | press i =>
    simp only [step] at hs
    split at hs
    · cases hs
      exact h.setPrompt (h i)
    · rename_i hkind
      split_ifs at hs <;> cases hs
      · exact h
      · exact h.setPrompt fun _ => hg hkind
  | notNow i =>
    simp only [step] at hs
    split_ifs at hs
    cases hs
    exact h.setPrompt fun hfalse => nomatch hfalse
  | ok i =>
    simp only [step] at hs
    split_ifs at hs <;> cases hs
    · exact h.setPrompt (h i)
    · exact h
  | answer i k granted =>
    simp only [step] at hs
    split at hs
    · cases hs
      exact Shown.setPrompt (w := { w with os := _ }) h (h i)
    · cases hs
  | arrive i k =>
    simp only [step] at hs
    split at hs
    · cases hs
      refine h.setPrompt fun _ => ?_
      simp only [Prompt.onCheck, Prompt.alert]
      split_ifs <;> simp
    · cases hs
      exact h.setPrompt fun _ => by simp [Prompt.onRequest]
    · cases hs
  | settings k response =>
    simp only [step] at hs
    split_ifs at hs
    cases hs
    exact h

def waiting (kind : ι → Kind) : Invariant (step kind) (Waits kind) where
  holds w := Told kind Unasked w ∧ Shown w
  preserved {w w' e} h hg hs := by
    refine ⟨told_step (fun os hos => hos) (fun k response htold hos => ?_) h.1 hs,
      shown_step h.2 hg hs⟩
    rcases os_step hs k with hsame | ⟨hasked, -⟩
    · exact htold (hsame ▸ hos)
    · exact absurd hos hasked

/-- The camera's button is pressed at once. -/
example : ¬Along (step id) (fun w e => ∀ k ∈ opened id w e, w.os k ≠ .undetermined)
    (World.init fun _ => .undetermined) [.mount .camera, .press .camera, .ok .camera] := by
  decide

end Wedcast.Permissions
