import Wedcast.Feed
import Wedcast.Lib.Indexed

/-!
The spinner of the `Feed` screen.

Both ways of downloading put the spinner up, and a one-second timer takes it down. A single download
starts its timer when its save has succeeded, on Android when the fetch has, and has no handler for
one that fails; the download of the selection starts one timer at once and does not wait for its
saves. No timer looks at what else is going on, so the spinner is right as long as the last thing to
end is always a timer.
-/

namespace Wedcast.Feed

open Runs Indexed

/-- The spinner is up exactly while a save is in flight or a timer is pending. -/
def Overlaid (s : State) : Prop := s.showOverlay = true ↔ s.saves ≠ [] ∨ s.timers ≠ []

/-- After its step the save goes on, or its timer starts. -/
def Save.Leads (platform : Platform) (ok : Bool) (save : Save) : Prop :=
  ok = true ∧
    (save.stage = .fetch ∨ save.stage = platform.firstStage ∧ save.download ≠ .selected)

/-- A save that ends and starts no timer is not the last thing going on, and a timer is. -/
def TimerLast (platform : Platform) (s : State) : Event → Prop
  | .saved i ok =>
    (∃ save ∈ s.saves[i]?, save.Leads platform ok) ∨ s.timers ≠ [] ∨ s.saves.length ≠ 1
  | .timer _ => s.saves = [] ∧ s.timers.length = 1
  | _ => True

instance (s : State) : Decidable (Overlaid s) := inferInstanceAs (Decidable (_ ↔ _))

instance (platform : Platform) (ok : Bool) (save : Save) : Decidable (save.Leads platform ok) :=
  inferInstanceAs (Decidable (_ ∧ _))

instance (platform : Platform) (s : State) : (e : Event) → Decidable (TimerLast platform s e)
  | .saved _ _ => inferInstanceAs (Decidable ((∃ save ∈ _, _) ∨ _))
  | .timer _ => inferInstanceAs (Decidable (_ ∧ _))
  | .snapshot _ | .addDownload _ | .selectAll | .toggleSelectMode | .download _ | .downloadSelected
  | .checked _ _ | .requestDownloadPermission | .notNow | .responded _ => isTrue trivial

variable {platform : Platform}

lemma overlaid_congr {s s' : State} (h : Overlaid s) (hshow : s'.showOverlay = s.showOverlay)
    (hsaves : s'.saves = s.saves) (htimers : s'.timers = s.timers) : Overlaid s' := by
  rw [Overlaid, hshow, hsaves, htimers]
  exact h

lemma addIsDownloading_showOverlay (image : Image) (s : State) :
    (addIsDownloading image s).showOverlay = true := by
  unfold addIsDownloading
  split_ifs <;> rfl

/-- A permission starts a download, or changes nothing the spinner depends on. -/
lemma overlaid_onPermission {s : State} (h : Overlaid s) (d : Download) (response : Permission) :
    Overlaid (onPermission platform d response s) := by
  cases response with
  | authorized =>
    cases d with
    | single image => simp [onPermission, Overlaid, addIsDownloading_showOverlay]
    | selected =>
      simp only [onPermission]
      split_ifs with hpos
      · simp [Overlaid, saveSelected]
      · exact h
  | undetermined | denied | restricted => exact h

/-- The save goes on, or its timer starts. -/
lemma overlaid_onSaved_of_leads {s : State} (hup : s.showOverlay = true) {i : ℕ} {save : Save}
    (hsave : s.saves[i]? = some save) {ok : Bool} (hleads : save.Leads platform ok) :
    Overlaid (onSaved platform i save ok s) := by
  have hne : s.saves ≠ [] := by
    rintro hnil
    simp [hnil] at hsave
  refine iff_of_true hup ?_
  obtain ⟨hok, hfetch | hfirst⟩ := hleads
  · left
    simpa [onSaved, hok, hfetch] using hne
  · right
    simp [onSaved, hok, hfirst]

/-- The save has ended, and nothing comes after it. -/
lemma onSaved_of_not_leads {i : ℕ} {save : Save} {ok : Bool} (h : ¬save.Leads platform ok)
    (s : State) : onSaved platform i save ok s = { s with saves := s.saves.eraseIdx i } := by
  have hend : ¬(ok = true ∧ save.stage = .fetch) := fun hgo => h ⟨hgo.1, .inl hgo.2⟩
  have hsilent : ¬(ok = true ∧ save.stage = platform.firstStage ∧ save.download ≠ .selected) :=
    fun htimer => h ⟨htimer.1, .inr htimer.2⟩
  rw [onSaved, if_neg hend, if_neg hsilent]

/-- The end of a step of a save. -/
lemma overlaid_onSaved {s : State} (h : Overlaid s) {i : ℕ} {save : Save}
    (hsave : s.saves[i]? = some save) (ok : Bool) :
    Overlaid (onSaved platform i save ok s) ↔ TimerLast platform s (.saved i ok) := by
  have hi := (List.getElem?_eq_some_iff.mp hsave).1
  have hup : s.showOverlay = true := h.mpr (.inl (List.ne_nil_of_length_pos (by omega)))
  by_cases hleads : save.Leads platform ok
  · exact iff_of_true (overlaid_onSaved_of_leads hup hsave hleads) (.inl ⟨save, hsave, hleads⟩)
  · have hlast : TimerLast platform s (.saved i ok) ↔ s.timers ≠ [] ∨ s.saves.length ≠ 1 := by
      simp [TimerLast, hsave, hleads]
    rw [hlast, onSaved_of_not_leads hleads, Overlaid, ne_eq, ne_eq, eraseIdx_eq_nil_iff hi,
      iff_true_left hup, or_comm]

/-- A timer takes the spinner down. -/
lemma overlaid_timer {s : State} {i : ℕ} {d : Download} (hd : s.timers[i]? = some d) {s' : State}
    (hs : handle platform s (.timer i) = some s') : Overlaid s' ↔ TimerLast platform s (.timer i) := by
  simp only [handle, hd, Option.map_some, Option.some.injEq] at hs
  have hdown : s'.showOverlay = false ∧ s'.saves = s.saves ∧ s'.timers = s.timers.eraseIdx i := by
    subst hs
    cases d <;> exact ⟨rfl, rfl, rfl⟩
  have hi := (List.getElem?_eq_some_iff.mp hd).1
  rw [Overlaid, hdown.1, hdown.2.1, hdown.2.2, TimerLast, ne_eq, ne_eq, eraseIdx_eq_nil_iff hi,
    iff_false_left Bool.false_ne_true, not_or, not_not, not_not]

/-- **One step.** It leaves the spinner right exactly when the last thing to end is a timer. -/
lemma overlaid_step {s s' : State} {e : Event} (h : Overlaid s) (hs : step platform s e = some s') :
    Overlaid s' ↔ TimerLast platform s e := by
  replace hs := handle_of_step hs
  cases e with
  | saved i ok =>
    obtain ⟨save, hsave, rfl⟩ := Option.map_eq_some_iff.mp hs
    exact overlaid_onSaved h hsave ok
  | timer i =>
    obtain ⟨d, hd, -⟩ := Option.map_eq_some_iff.mp hs
    exact overlaid_timer hd hs
  | checked i response =>
    obtain ⟨d, -, rfl⟩ := Option.map_eq_some_iff.mp hs
    have herase : Overlaid { s with checks := s.checks.eraseIdx i } := overlaid_congr h rfl rfl rfl
    exact iff_of_true (overlaid_onPermission herase d response) trivial
  | addDownload i =>
    simp only [handle] at hs
    split_ifs at hs
    obtain ⟨item, -, rfl⟩ := Option.map_eq_some_iff.mp hs
    refine iff_of_true ?_ trivial
    unfold Feed.addDownload
    split_ifs <;> exact overlaid_congr h rfl rfl rfl
  | download i =>
    obtain ⟨item, -, rfl⟩ := Option.map_eq_some_iff.mp hs
    exact iff_of_true (overlaid_congr h rfl rfl rfl) trivial
  | snapshot data | toggleSelectMode =>
    cases hs
    exact iff_of_true (overlaid_congr h rfl rfl rfl) trivial
  | requestDownloadPermission =>
    simp only [handle] at hs
    split_ifs at hs <;> cases hs <;> exact iff_of_true (overlaid_congr h rfl rfl rfl) trivial
  | selectAll | downloadSelected | notNow | responded =>
    simp only [handle] at hs
    split_ifs at hs
    cases hs
    exact iff_of_true (overlaid_congr h rfl rfl rfl) trivial

def overlaying (platform : Platform) : Invariant (step platform) (TimerLast platform) where
  holds := Overlaid
  preserved h hg hs := (overlaid_step h hs).mpr hg

/-- **The spinner is right.** On either platform it is so in every state of a run exactly when no
save without a timer ends last, and no timer fires while a save or another timer is outstanding. -/
theorem overlaid_iff_timerLast (platform : Platform) (es : List Event) :
    Throughout (step platform) Overlaid mount es ↔
      Along (step platform) (TimerLast platform) mount es :=
  (overlaying platform).throughout_iff (fun _ hs => hs) (fun _ _ _ h hs => (overlaid_step h hs).mp)
    (by simp [overlaying, Overlaid, mount])

/-- A photo is downloaded, and it cannot be saved. -/
def failedSave : List Event :=
  [.snapshot ⟨[(txt ['k'], [])], by decide⟩, .download 0, .checked 0 .authorized, .saved 0 false]

/-- **The spinner stays.** Nothing is going on after a failed save, and nothing takes it down. -/
theorem not_always_overlaid :
    ¬∀ (platform : Platform) (es : List Event), Throughout (step platform) Overlaid mount es := by
  intro h
  have hrun := h .ios failedSave
  revert hrun
  decide

end Wedcast.Feed
