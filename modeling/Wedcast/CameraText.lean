import Wedcast.Camera
import Wedcast.Lib.History

/-!
The ref of the text input in the editor, and the taps that use it.

The checkmark is on the screen whenever a photo is, but the input only while the text overlay is
shown. The handler of the text button looks whether the ref is there; the checkmark's does not, so
it gets through exactly when the overlay is shown. The backdrop is shown over the input only.
-/

namespace Wedcast.Camera

open Runs

/-- `this.userTextOverlay` -/
inductive Ref where
  | undefined
  | null
  | input
  deriving DecidableEq

/-- The ref after an event has been rendered: set on mounting the input, null on unmounting it. -/
def rendered (x : State × Ref) (_ : Event) (s' : State) : Ref :=
  if s'.hasTextInput then .input
  else if x.2 = .undefined then .undefined
  else .null

/-- `this.userTextOverlay.blur()`, which throws without an input. -/
def Ref.blur : Ref → Option Unit
  | .input => some ()
  | .undefined | .null => none

/-- The tap on the backdrop, none if it throws. -/
def tapBackdrop (ref : Ref) (s : State) : Option State := ref.blur.map fun _ => backdrop s

/-- The tap on the checkmark, none if it throws before it reaches `returnImage`. -/
def tapCheckmark (ref : Ref) (photo : ℕ) (fails : Option Stage) (s : State) : Option State :=
  ref.blur.map fun _ => returnImage photo fails (backdrop s)

/-- The backdrop is rendered. -/
def State.showsBackdrop (s : State) : Bool :=
  s.imageTaken && s.textOverlayFocused && s.showTextOverlay

lemma Ref.blur_isSome (ref : Ref) : ref.blur.isSome ↔ ref = .input := by
  cases ref <;> simp [Ref.blur]

/-- The ref is there exactly while the input is. -/
def RefMounted (x : State × Ref) : Prop := x.2 = .input ↔ x.1.hasTextInput

lemma refMounted_rendered (x : State × Ref) (e : Event) (s' : State) :
    RefMounted (s', rendered x e s') := by
  unfold RefMounted rendered
  split_ifs <;> simp_all

def mounting (platform : Platform) :
    Invariant (noting (step platform) rendered) (fun _ _ => True) where
  holds := RefMounted
  preserved {x y e} _ _ hs := by
    obtain ⟨-, hnote⟩ := noting_some hs
    have hmounted := refMounted_rendered x e y.1
    rwa [← hnote] at hmounted

/-- The machine's own checkmark is this tap: what has been set before the exception stays. -/
theorem checkmark_eq_tap {x : State × Ref} (h : RefMounted x) (photo : ℕ) (fails : Option Stage) :
    checkmark photo fails x.1 =
      (tapCheckmark x.2 photo fails x.1).getD { x.1 with textOverlayFocused := false } := by
  unfold checkmark tapCheckmark
  by_cases hinput : x.1.hasTextInput = true
  · rw [if_pos hinput, h.mpr hinput]
    rfl
  · have hne : x.2.blur = none := by
      rw [← Option.not_isSome_iff_eq_none, Ref.blur_isSome]
      exact fun heq => hinput (h.mp heq)
    rw [if_neg hinput, hne]
    rfl

/-- **The checkmark gets through with the overlay.** While a photo is on the screen, a tap on the
checkmark reaches `returnImage` exactly when the text overlay is shown, and a tap on the backdrop
never throws. -/
theorem checkmark_reaches_iff (platform : Platform) (es : List Event) :
    Throughout (noting (step platform) rendered)
      (fun x => x.1.imageTaken = true →
        ((∀ photo fails, (tapCheckmark x.2 photo fails x.1).isSome) ↔ x.1.showTextOverlay = true) ∧
          (x.1.showsBackdrop → (tapBackdrop x.2 x.1).isSome))
      (mount, .undefined) es := by
  refine (mounting platform).throughout (fun x hx htaken => ?_) (by simp [mounting, RefMounted,
    mount, State.hasTextInput]) (along_true _ es)
  have hblur : x.2.blur.isSome ↔ x.1.showTextOverlay = true := by
    have href : x.2 = .input ↔ x.1.hasTextInput := hx
    rw [Ref.blur_isSome, href, State.hasTextInput, htaken, Bool.true_and]
  constructor
  · simp only [tapCheckmark, Option.isSome_map, forall_const]
    exact hblur
  · intro hshows
    simp only [State.showsBackdrop, Bool.and_eq_true] at hshows
    rw [tapBackdrop, Option.isSome_map]
    exact hblur.mpr hshows.2

/-- **The checkmark throws.** A photo is taken and confirmed as it is. -/
theorem not_always_reaches :
    ¬∀ (platform : Platform) (es : List Event), Throughout (noting (step platform) rendered)
      (fun x => x.1.imageTaken = true →
        (∀ photo fails, (tapCheckmark x.2 photo fails x.1).isSome) ∧
          (x.1.showsBackdrop → (tapBackdrop x.2 x.1).isSome))
      (mount, .undefined) es := by
  intro h
  have htaken := ((h .ios [.takePicture, .captured]).2 _ rfl).2 _ rfl
  have htap := (htaken rfl).1 0 none
  revert htap
  decide

end Wedcast.Camera
