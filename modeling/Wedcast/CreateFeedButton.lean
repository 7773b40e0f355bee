import Wedcast.Lib.Indexed
import Wedcast.TextFields

/-!
Whether the wizard lets the host go on once the input of a page is filled in.

The button of every page is disabled by the one flag `disableNext`, which the text handlers, the
page turns and the verification events write. A writer looks at the text it was given or at the
page it expects next, so the flag can be wrong about the page that shows afterwards. What counts is
what the inputs hold once their timers have fired, which an event can be judged by beforehand.
-/

namespace Wedcast.CreateFeed

open Runs Delayed

variable {L : LowerCase}

/-- The sanitised field whose input a page shows. -/
def fieldOn (page : ℕ) (phoneSubmitted : Bool) : Option Field :=
  match page with
  | 0 => some .feedName
  | 1 => some .castId
  | 2 => some .password
  | 4 => if phoneSubmitted then some .verificationCode else none
  | _ => none

/-- The text in the input of the current page; the input of page 4 is at first the one of the phone
number, and page 3 has none. -/
def State.input (s : State) : Text :=
  match fieldOn s.currentPage s.phoneSubmitted with
  | some f => s.field f
  | none => if s.currentPage = 4 then s.phoneNumber else []

/-- The button is not left disabled with its input filled in, unless a read or a timer is
pending. -/
def Enabled (s : State) : Prop :=
  s.reads = [] → s.timers = [] → s.input ≠ [] → s.disableNext = false

/-- Nor when the pending timers have fired, or some of them. -/
def SettlesEnabled (L : LowerCase) (s : State) : Prop :=
  ∀ n s', run (step L) s (List.replicate n .timer) = some s' → Enabled s'

instance (s : State) : Decidable (Enabled s) := inferInstanceAs (Decidable (_ → _ → _ → _))

/-- What the field holds in the end if it gets the text `t` now. -/
def State.settledWith (s : State) (f : Field) (t : Text) : Text :=
  Cell.settled ⟨t, (s.cell f).timers⟩

/-- What the input of a page holds in the end. -/
def State.holds (s : State) (page : ℕ) (phoneSubmitted : Bool) : Text :=
  match fieldOn page phoneSubmitted with
  | some f => (s.cell f).settled
  | none => if page = 4 then s.phoneNumber else []

/-- The flag is right about what the current page holds in the end. -/
def FlagRight (s : State) : Prop :=
  s.reads = [] → s.disableNext → s.holds s.currentPage s.phoneSubmitted = []

/-- The steps that leave the flag right, when no read is pending after them. A text is cleared in
the page's own field, with no timer to refill it, or while that field is empty. A page is turned to
with the text it settles on. A read is answered, a code is sent or verified and a verification fails
when the flag suits the input that shows then, and so is a submitted number taken back. -/
def FlagKept (s : State) : Event → Prop
  | .changeText f text => s.reads = [] → text = [] →
    (if fieldOn s.currentPage s.phoneSubmitted = some f then s.settledWith f []
      else s.holds s.currentPage s.phoneSubmitted) = []
  | .changePhoneNumber n => s.reads = [] → n = [] → s.currentPage ≠ 4 →
    s.holds s.currentPage s.phoneSubmitted = []
  | .next => s.reads = [] →
    (s.currentPage = 0 → s.castId = [] → s.settledWith .castId [] = []) ∧
      (s.currentPage = 3 → s.phoneSubmitted → s.verificationCode = some [] →
        s.settledWith .verificationCode [] = [])
  | .previous => s.reads = [] → s.currentPage = 4 → s.phoneSubmitted → s.disableNext →
    s.phoneNumber = []
  | .reply i => s.reads.length = 1 → s.disableNext →
    s.holds (if s.reads[i]?.bind Read.answer = some true then s.currentPage else s.currentPage + 1)
      s.phoneSubmitted = []
  | .readFailed _ => s.reads.length = 1 → s.disableNext →
    s.holds s.currentPage s.phoneSubmitted = []
  | .phoneAuth _ .codeSent => s.reads = [] → s.holds s.currentPage true = []
  | .phoneAuth _ .error => s.reads = [] → s.disableNext → s.holds s.currentPage false = []
  | .phoneAuth _ (.autoVerified code) => s.reads = [] → s.currentPage = 4 → s.phoneSubmitted →
    s.disableNext → s.settledWith .verificationCode (code.getD []) = []
  | _ => True

instance (s : State) : (e : Event) → Decidable (FlagKept s e)
  | .changeText _ _ | .phoneAuth _ .codeSent => inferInstanceAs (Decidable (_ → _))
  | .changePhoneNumber _ | .reply _ | .readFailed _ | .phoneAuth _ .error =>
    inferInstanceAs (Decidable (_ → _ → _))
  | .next => inferInstanceAs (Decidable (_ → (_ → _ → _) ∧ (_ → _ → _ → _)))
  | .previous | .phoneAuth _ (.autoVerified _) => inferInstanceAs (Decidable (_ → _ → _ → _ → _))
  | .phoneAuth _ .autoVerifyTimeout | .timer | .answer _ _ | .linkPhone _ | .confirm
  | .finish _ | .linked _ _ | .linkFailed _ _ | .signIn | .returnData _ => isTrue trivial

/-! ### What the inputs hold in the end -/

lemma holds_congr {s s' : State} (hcell : ∀ f, (s'.cell f).settled = (s.cell f).settled)
    (hphone : s'.phoneNumber = s.phoneNumber) (page : ℕ) (phoneSubmitted : Bool) :
    s'.holds page phoneSubmitted = s.holds page phoneSubmitted := by
  unfold State.holds
  cases fieldOn page phoneSubmitted with
  | some f => exact hcell f
  | none => rw [hphone]

lemma holds_of_fieldOn {s : State} {page : ℕ} {b : Bool} {f : Field} (h : fieldOn page b = some f) :
    s.holds page b = (s.cell f).settled := by
  rw [State.holds, h]

/-- Of the fields that a page does not show, its input knows nothing. -/
lemma holds_congr_of_ne {s s' : State} {page : ℕ} {b : Bool} {f : Field}
    (hf : fieldOn page b ≠ some f) (hcell : ∀ g ≠ f, s'.cell g = s.cell g)
    (hphone : s'.phoneNumber = s.phoneNumber) : s'.holds page b = s.holds page b := by
  unfold State.holds
  cases hg : fieldOn page b with
  | some g =>
    have hgf : g ≠ f := by
      rintro rfl
      exact hf hg
    simp only [hcell g hgf]
  | none => rw [hphone]

lemma fieldOn_eq_code {page : ℕ} {b : Bool} :
    fieldOn page b = some .verificationCode ↔ page = 4 ∧ b := by
  unfold fieldOn
  split <;> simp_all

/-- The input of a page without a sanitised field. -/
lemma holds_of_ge {s : State} {page : ℕ} (h : 5 ≤ page) (b : Bool) : s.holds page b = [] := by
  have hfield : fieldOn page b = none := by
    unfold fieldOn
    split <;> first | rfl | omega
  have hpage : page ≠ 4 := by omega
  simp [State.holds, hfield, hpage]

/-- Once everything has settled, the input holds what it will. -/
lemma holds_of_timers {s : State} (h : s.timers = []) :
    s.holds s.currentPage s.phoneSubmitted = s.input := by
  unfold State.holds State.input
  cases fieldOn s.currentPage s.phoneSubmitted with
  | some f => exact Cell.settled_of_nil (by simp [State.cell, h])
  | none => rfl

lemma enabled_of_flagRight {s : State} (h : FlagRight s) : Enabled s := by
  intro hreads htimers hinput
  rw [← holds_of_timers htimers] at hinput
  simpa using mt (h hreads) hinput

/-! ### One step -/

/-- Updates that leave the flag, the page, and what its input holds in the end. -/
lemma flagRight_congr {s s' : State} (hpage : s'.currentPage = s.currentPage)
    (hsub : s'.phoneSubmitted = s.phoneSubmitted) (hflag : s'.disableNext = s.disableNext)
    (hreads : s'.reads = s.reads)
    (hholds : s'.holds s.currentPage s.phoneSubmitted = s.holds s.currentPage s.phoneSubmitted) :
    FlagRight s' ↔ FlagRight s := by
  unfold FlagRight
  rw [hpage, hsub, hflag, hreads, hholds]

/-- The same for updates that leave all the inputs alone. -/
lemma FlagRight.congr {s s' : State} (h : FlagRight s)
    (hcell : ∀ f, (s'.cell f).settled = (s.cell f).settled)
    (hphone : s'.phoneNumber = s.phoneNumber) (hpage : s'.currentPage = s.currentPage)
    (hsub : s'.phoneSubmitted = s.phoneSubmitted) (hflag : s'.disableNext = s.disableNext)
    (hreads : s'.reads = s.reads) : FlagRight s' :=
  (flagRight_congr hpage hsub hflag hreads (holds_congr hcell hphone _ _)).mpr h

lemma settled_changeText (hL : L.toLowerCase [] = []) (f : Field) (s : State) :
    ((onChangeText L f [] s).cell f).settled = s.settledWith f [] := by
  have hclean : sanitize L f [] = [] := by
    cases f with
    | castId => exact hL
    | feedName | password | verificationCode => rfl
  rw [cell_changeText_self, hclean, Cell.settled_put, if_neg (not_not.mpr rfl)]
  rfl

lemma flagRight_changeText (hL : L.toLowerCase [] = []) (f : Field) (text : Text) (s : State) :
    FlagRight (onChangeText L f text s) ↔ FlagKept s (.changeText f text) := by
  have hframe := changeText_frame f (sanitize L f text) text s
  rw [← onChangeText_eq] at hframe
  have hreads : (onChangeText L f text s).reads = s.reads := by rw [hframe]
  have hpage : (onChangeText L f text s).currentPage = s.currentPage := by rw [hframe]
  have hsub : (onChangeText L f text s).phoneSubmitted = s.phoneSubmitted := by rw [hframe]
  have hphone : (onChangeText L f text s).phoneNumber = s.phoneNumber := by rw [hframe]
  have hflag : (onChangeText L f text s).disableNext = text.isEmpty := by rw [hframe]
  unfold FlagRight FlagKept
  rw [hreads, hpage, hsub, hflag, List.isEmpty_iff]
  refine imp_congr_right fun _ => imp_congr_right fun hnil => ?_
  subst hnil
  split_ifs with hf
  · rw [holds_of_fieldOn hf, settled_changeText hL]
  · rw [holds_congr_of_ne hf (fun g hg => cell_changeText_of_ne (Ne.symm hg) s _) hphone]

/-- The flag is right about a number; on another page it is right if nothing is left there. -/
lemma flagRight_changePhoneNumber {s : State} (hsub : s.phoneSubmitted = false) (n : Text) :
    FlagRight (onChangePhoneNumber n s) ↔ FlagKept s (.changePhoneNumber n) := by
  have hflag : (onChangePhoneNumber n s).disableNext ↔ n = [] := List.isEmpty_iff
  unfold FlagRight
  rw [hflag]
  refine imp_congr_right fun _ => imp_congr_right fun hnil => ?_
  by_cases hp : s.currentPage = 4
  · simp [onChangePhoneNumber, State.holds, fieldOn, hp, hsub, hnil]
  · have hholds : (onChangePhoneNumber n s).holds s.currentPage s.phoneSubmitted =
        s.holds s.currentPage s.phoneSubmitted := by
      unfold State.holds
      cases fieldOn s.currentPage s.phoneSubmitted with
      | some f => cases f <;> rfl
      | none => rw [if_neg hp, if_neg hp]
    exact ⟨fun hnone _ => hholds.symm.trans hnone, fun hnone => hholds.trans (hnone hp)⟩

/-- A page is turned to with the flag of the text in its field. -/
lemma holds_turn {s : State} {page : ℕ} {b : Bool} {f : Field} (h : fieldOn page b = some f) :
    (s.field f = [] → s.holds page b = []) ↔ (s.field f = [] → s.settledWith f [] = []) := by
  rw [holds_of_fieldOn h]
  refine imp_congr_right fun hnil => ?_
  rw [State.settledWith, ← hnil]
  rfl

lemma flagRight_next {s : State} (h : FlagRight s) :
    FlagRight (goToNextPage s) ↔ FlagKept s .next := by
  have hholds : ∀ page b, (goToNextPage s).holds page b = s.holds page b :=
    holds_congr (fun f => by rw [goToNextPage_cell]) (by rw [goToNextPage_frame])
  unfold goToNextPage at hholds ⊢
  simp only [FlagKept]
  split at hholds
  · rename_i hp
    have hturn := holds_turn (s := s) (rfl : fieldOn 1 s.phoneSubmitted = some .castId)
    simp only [FlagRight, hp, hholds, List.isEmpty_iff]
    refine imp_congr_right fun _ => ?_
    simpa [State.field] using hturn
  · rename_i hp
    simp [FlagRight, hp]
  · rename_i hp
    simp only [FlagRight, hp, hholds]
    simp [State.holds, fieldOn]
  · rename_i hp
    by_cases hsub : s.phoneSubmitted
    · cases hcode : s.verificationCode with
      | none => simpa [hp, hsub, hcode] using h
      | some code =>
        have hturn := holds_turn (s := s) (rfl : fieldOn 4 true = some .verificationCode)
        have hfield : s.field .verificationCode = code := by simp [State.field, hcode]
        simp only [hsub, hcode, Bool.not_true, Bool.false_eq_true, if_false] at hholds ⊢
        simp only [FlagRight, hp, hholds, List.isEmpty_iff]
        refine imp_congr_right fun _ => ?_
        rw [hfield] at hturn
        simpa using hturn
    · simp only [hsub, Bool.not_false, if_true] at hholds ⊢
      simp only [FlagRight, hp, hholds]
      simp [State.holds, fieldOn]
  · rename_i h0 h1 h2 h3
    have hpage : 5 ≤ s.currentPage + 1 := by
      have h0 : s.currentPage ≠ 0 := h0
      have h1 : s.currentPage ≠ 1 := h1
      have h2 : s.currentPage ≠ 2 := h2
      have h3 : s.currentPage ≠ 3 := h3
      omega
    refine iff_of_true (fun _ _ => ?_) fun _ =>
      ⟨fun hp => (h0 hp).elim, fun hp => (h3 hp).elim⟩
    rw [hholds]
    exact holds_of_ge hpage _

lemma flagRight_previous {s : State} (h : FlagRight s) :
    FlagRight (goToPreviousPage s) ↔ FlagKept s .previous := by
  have hholds : ∀ page b, (goToPreviousPage s).holds page b = s.holds page b :=
    holds_congr (fun f => by rw [goToPreviousPage_cell]) (by rw [goToPreviousPage_frame])
  unfold goToPreviousPage at hholds ⊢
  simp only [FlagKept]
  split_ifs at hholds ⊢ with hp hsub hp'
  · simp only [FlagRight, hholds]
    simp [State.holds, fieldOn, hp, hsub]
  · simp [FlagRight, hp, hsub]
  · simp [FlagRight, hp]
  · simpa [hp] using h

/-- A read is over, and the page is the same or the next one. -/
lemma flagRight_eraseRead {s : State} {i page : ℕ} (hi : i < s.reads.length)
    (vs : List (Text × ℕ)) :
    FlagRight { s with reads := s.reads.eraseIdx i, currentPage := page, verified := vs } ↔
      (s.reads.length = 1 → s.disableNext → s.holds page s.phoneSubmitted = []) := by
  have hholds : ∀ p b, State.holds
      { s with reads := s.reads.eraseIdx i, currentPage := page, verified := vs } p b =
        s.holds p b :=
    holds_congr (fun f => by cases f <;> rfl) rfl
  unfold FlagRight
  rw [Indexed.eraseIdx_eq_nil_iff hi, hholds]

lemma flagRight_reply {s s' : State} {i : ℕ} (hs : step L s (.reply i) = some s') :
    FlagRight s' ↔ FlagKept s (.reply i) := by
  obtain ⟨r, taken, hr, hans, rfl⟩ := step_cases hs
  obtain ⟨hi, -⟩ := List.getElem?_eq_some_iff.mp hr
  have hbind : s.reads[i]?.bind Read.answer = some taken := by rw [hr]; exact hans
  simp only [FlagKept, hbind, Option.some.injEq]
  cases taken with
  | true => exact flagRight_eraseRead hi s.verified
  | false => exact flagRight_eraseRead hi _

/-- A verified code is stored whatever the page shows, and matters where it shows. -/
lemma flagRight_autoVerified {s : State} (h : FlagRight s) (i : ℕ) (code : Option Text) :
    FlagRight (onStateChanged i s (.autoVerified code)) ↔
      FlagKept s (.phoneAuth i (.autoVerified code)) := by
  have hframe : onStateChanged i s (.autoVerified code) =
      { s with
        confirmResult := some ⟨i, code⟩
        verificationCode := code
        links := (onStateChanged i s (.autoVerified code)).links } := by
    rw [onStateChanged, confirmVerification_frame]
  have hpage : (onStateChanged i s (.autoVerified code)).currentPage = s.currentPage := by
    rw [hframe]
  have hsub : (onStateChanged i s (.autoVerified code)).phoneSubmitted = s.phoneSubmitted := by
    rw [hframe]
  have hflag : (onStateChanged i s (.autoVerified code)).disableNext = s.disableNext := by
    rw [hframe]
  have hreads : (onStateChanged i s (.autoVerified code)).reads = s.reads := by rw [hframe]
  by_cases hcode : fieldOn s.currentPage s.phoneSubmitted = some .verificationCode
  · obtain ⟨hp, hp'⟩ := fieldOn_eq_code.mp hcode
    have hholds : (onStateChanged i s (.autoVerified code)).holds 4 true =
        s.settledWith .verificationCode (code.getD []) := by
      rw [hframe]
      rfl
    unfold FlagRight FlagKept
    rw [hpage, hsub, hflag, hreads, hp, hp', hholds]
    simp only [true_imp_iff]
  · have hcell : ∀ f ≠ .verificationCode, (onStateChanged i s (.autoVerified code)).cell f =
        s.cell f := by
      intro f hf
      rw [onStateChanged, confirmVerification_cell]
      cases f with
      | verificationCode => exact absurd rfl hf
      | feedName | castId | password => rfl
    have hholds := holds_congr_of_ne hcode hcell (by rw [hframe])
    have hright := (flagRight_congr hpage hsub hflag hreads hholds).mpr h
    rw [fieldOn_eq_code] at hcode
    exact iff_of_true hright fun _ hp hp' => absurd ⟨hp, hp'⟩ hcode

lemma flagRight_phoneAuth {s : State} (h : FlagRight s) (i : ℕ) (st : PhoneAuthState) :
    FlagRight (onStateChanged i s st) ↔ FlagKept s (.phoneAuth i st) := by
  cases st with
  | codeSent =>
    have hholds : ∀ page b, (onStateChanged i s .codeSent).holds page b = s.holds page b :=
      holds_congr (fun f => by cases f <;> rfl) rfl
    simp only [FlagRight, hholds]
    simp [onStateChanged, FlagKept]
  | error =>
    have hholds : ∀ page b, (onStateChanged i s .error).holds page b = s.holds page b :=
      holds_congr (fun f => by cases f <;> rfl) rfl
    simp only [FlagRight, hholds]
    simp [onStateChanged, FlagKept]
  | autoVerifyTimeout => simpa [onStateChanged, FlagKept] using h
  | autoVerified code => exact flagRight_autoVerified h i code

/-- Every step keeps the flag right exactly when it is one of those described. -/
lemma flagRight_step_iff (hL : L.toLowerCase [] = []) {s s' : State} {e : Event} (h : FlagRight s)
    (hs : step L s e = some s') : FlagRight s' ↔ FlagKept s e := by
  cases e with
  | changeText f text =>
    obtain ⟨-, rfl⟩ := step_cases hs
    exact flagRight_changeText hL f text s
  | timer =>
    have hrun : run (step L) s [.timer] = some s' := by simp [hs]
    have hcell : ∀ f, (s'.cell f).settled = (s.cell f).settled :=
      fun f => settled_run hrun (by simp [Event.Writes])
    obtain ⟨f, t, rest, -, rfl⟩ := step_cases hs
    have hframe := setField_frame { s with timers := rest } f t
    refine iff_of_true (h.congr hcell ?_ ?_ ?_ ?_ ?_) trivial <;> rw [hframe]
  | changePhoneNumber n =>
    obtain ⟨hsub, rfl⟩ := step_cases hs
    exact flagRight_changePhoneNumber hsub n
  | next =>
    obtain ⟨-, rfl⟩ := step_cases hs
    exact flagRight_next h
  | previous =>
    obtain ⟨-, rfl⟩ := step_cases hs
    exact flagRight_previous h
  | answer i taken =>
    obtain ⟨castId, edition, hr, rfl⟩ := step_cases hs
    refine iff_of_true (fun hreads => ?_) trivial
    have hnil : s.reads = [] := (List.set_eq_nil_iff _ _).mp hreads
    simp [hnil] at hr
  | reply i => exact flagRight_reply hs
  | readFailed i =>
    obtain ⟨hi, rfl⟩ := step_cases hs
    exact flagRight_eraseRead hi s.verified
  | linkPhone valid =>
    obtain ⟨-, -, -, rfl⟩ := step_cases hs
    rw [linkPhone_frame]
    exact iff_of_true (h.congr (fun f => by cases f <;> rfl) rfl rfl rfl rfl rfl) trivial
  | confirm =>
    obtain ⟨-, -, -, rfl⟩ := step_cases hs
    rw [confirmVerification_frame]
    exact iff_of_true (h.congr (fun f => by cases f <;> rfl) rfl rfl rfl rfl rfl) trivial
  | phoneAuth i st =>
    obtain ⟨-, rfl⟩ := step_cases hs
    exact flagRight_phoneAuth h i st
  | finish newFeedId =>
    obtain ⟨-, -, rfl⟩ := step_cases hs
    exact iff_of_true h trivial
  | linked i _ | linkFailed i _ =>
    obtain ⟨-, rfl⟩ := step_cases hs
    exact iff_of_true (h.congr (fun f => by cases f <;> rfl) rfl rfl rfl rfl rfl) trivial
  | signIn | returnData avatarUri =>
    cases step_cases hs
    exact iff_of_true (h.congr (fun f => by cases f <;> rfl) rfl rfl rfl rfl rfl) trivial

/-! ### Whole runs -/

def flagging (hL : L.toLowerCase [] = []) : Invariant (step L) FlagKept where
  holds := FlagRight
  preserved h hg hs := (flagRight_step_iff hL h hs).mpr hg

lemma flagRight_mount (u : User) : FlagRight (mount u) := fun _ _ => rfl

/-- All pending timers can fire, and none is left then. -/
lemma run_timers (L : LowerCase) (s : State) : ∃ s',
    run (step L) s (List.replicate s.timers.length .timer) = some s' ∧ s'.timers = [] ∧
      s'.currentPage = s.currentPage ∧ s'.phoneSubmitted = s.phoneSubmitted ∧
      s'.disableNext = s.disableNext ∧ s'.reads = s.reads ∧ s'.phoneNumber = s.phoneNumber := by
  generalize hts : s.timers = ts
  induction ts generalizing s with
  | nil => exact ⟨s, rfl, hts, rfl, rfl, rfl, rfl, rfl⟩
  | cons x rest ih =>
    obtain ⟨f, t⟩ := x
    have hframe := setField_frame { s with timers := rest } f t
    obtain ⟨s', hrun, hnil, hpage, hsub, hflag, hreads, hphone⟩ :=
      ih (State.setField { s with timers := rest } f t) (setField_timers _ f t)
    refine ⟨s', ?_, hnil, ?_, ?_, ?_, ?_, ?_⟩
    · simpa [List.replicate_succ, step, onTimer, hts] using hrun
    · rw [hpage, hframe]
    · rw [hsub, hframe]
    · rw [hflag, hframe]
    · rw [hreads, hframe]
    · rw [hphone, hframe]

lemma not_writes_of_timers {f : Field} {n : ℕ} :
    ∀ e ∈ List.replicate n Event.timer, ¬e.Writes f := by
  intro e he
  rw [List.eq_of_mem_replicate he]
  exact id

/-- The flag is right exactly when the button is enabled once the pending timers have fired. -/
lemma flagRight_iff_settlesEnabled (hL : L.toLowerCase [] = []) (s : State) :
    FlagRight s ↔ SettlesEnabled L s := by
  constructor
  · intro h n s' hrun
    refine enabled_of_flagRight ((flagging hL).of_run h (along_of_forall ?_) hrun)
    intro e he s
    rw [List.eq_of_mem_replicate he]
    trivial
  · intro h hreads hflag
    obtain ⟨s', hrun, hnil, hpage, hsub, hflag', hreads', hphone⟩ := run_timers L s
    have henabled := h _ s' hrun (hreads'.trans hreads) hnil
    have hholds := holds_congr (fun f => settled_run (f := f) hrun not_writes_of_timers) hphone
    rw [hflag', hflag, ← holds_of_timers hnil, hholds, hpage, hsub] at henabled
    simpa using henabled

/-- **The button is enabled** on an input that is filled in, in every state that steps of this kind
lead to. Any other step leads to one in which it is not, once the timers have fired. -/
theorem enabled_of_flagKept (L : LowerCase) (hL : L.toLowerCase [] = []) (u : User)
    (es : List Event) :
    (Along (step L) FlagKept (mount u) es → Throughout (step L) Enabled (mount u) es) ∧
      (Throughout (step L) (SettlesEnabled L) (mount u) es ↔
        Along (step L) FlagKept (mount u) es) := by
  have hmount := flagRight_mount u
  refine ⟨(flagging hL).throughout (fun _ => enabled_of_flagRight) hmount, ?_⟩
  refine (flagging hL).throughout_iff (fun s => (flagRight_iff_settlesEnabled hL s).mp) ?_ hmount
  intro s e s' hs hstep hsettles
  exact (flagRight_step_iff hL hs hstep).mp ((flagRight_iff_settlesEnabled hL s').mpr hsettles)

theorem enabled_of_flagKept_orderly :
    (run (step asciiLowerCase) (mount host) orderlyRun).isSome ∧
      Throughout (step asciiLowerCase) Enabled (mount host) orderlyRun :=
  ⟨by decide, (enabled_of_flagKept asciiLowerCase rfl host orderlyRun).1 (by decide)⟩

/-- The host asks about a castId that turns out to be taken, with no password typed yet. -/
def takenRun : List Event :=
  [.changeText .feedName (txt ['A']), .next, .changeText .castId (txt ['a', 'b']), .next,
    .answer 0 true, .reply 0]

/-- **The button is left disabled** on a castId that is taken. -/
theorem not_always_enabled :
    ¬∀ (L : LowerCase) (_ : L.toLowerCase [] = []) (u : User) (es : List Event),
      Throughout (step L) Enabled (mount u) es := by
  intro h
  have hrun := h asciiLowerCase rfl host takenRun
  revert hrun
  decide

end Wedcast.CreateFeed
