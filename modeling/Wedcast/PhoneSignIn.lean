import Wedcast.PhoneLink

/-!
The whole LoginPhone screen: linking a number, and signing in with one.

A user who is signed in links; nobody signed in signs in, and the buttons of the screen follow
`state.currentUser`. Signing out of an account that cannot be linked turns the one into the other
while attempts to link are still on their way. Both keep their answer in the one `confirmResult`,
as different kinds of object, and neither is cancelled.
-/

namespace Wedcast.LoginPhone

open Runs Indexed

/-! ### The screen -/

structure Screen where
  /-- The screen without what belongs to signing in; its `confirmResult` is a snapshot of
  `linkPhone`. -/
  linking : State
  /-- The `confirmResult` if it is one of `signInWithPhoneNumber`: the call it is from. -/
  confirmation : Option ℕ
  /-- The numbers of the calls of `signInWithPhoneNumber`. -/
  requests : List Text
  /-- The calls that are not settled. -/
  waiting : List ℕ
  /-- The calls of `confirm` that are not settled, with the code. -/
  confirms : List (ℕ × Text)
  deriving DecidableEq

/-- The constructor. -/
def Screen.mount (currentUser : Option User) : Screen :=
  ⟨LoginPhone.mount currentUser, none, [], [], []⟩

inductive ScreenEvent where
  /-- What the screen has for both, and what linking alone has. -/
  | linking (e : Event)
  | goToVerification (isValidNumber : Bool)
  /-- The call of `signInWithPhoneNumber` is settled. -/
  | sent (i : ℕ)
  | notSent (i : ℕ)
  | confirmVerification
  /-- The call of `confirm` at the index is settled; the screen is left if it went well. -/
  | confirmed (i : ℕ)
  deriving DecidableEq

namespace Screen

def goToVerification (isValidNumber : Bool) (s : Screen) : Screen :=
  if !isValidNumber then
    { s with linking := { s.linking with errorMessage := some "Invalid phone number" } }
  else
    { s with
      requests := s.requests ++ [s.linking.phoneNumber]
      waiting := s.waiting ++ [s.requests.length] }

/-- The `then` of `signInWithPhoneNumber`. -/
def onSent (i : ℕ) (s : Screen) : Screen :=
  { s with
    linking := { s.linking with confirmResult := none, phoneSubmitted := true }
    confirmation := some i
    waiting := s.waiting.erase i }

/-- A snapshot has no `confirm`: the call throws, and changes nothing. -/
def confirmVerification (s : Screen) : Screen :=
  match s.confirmation with
  | some i => { s with confirms := s.confirms ++ [(i, s.linking.verificationCode)] }
  | none => s

def step (s : Screen) : ScreenEvent → Option Screen
  | .linking e => (LoginPhone.step s.linking e).map fun linking =>
    match e with
    | .complete _ _ | .signedOut => { s with linking := linking, confirmation := none }
    | _ => { s with linking := linking }
  | .goToVerification valid =>
    if !s.linking.phoneSubmitted && s.linking.phoneNumber ≠ [] && s.linking.currentUser.isNone then
      some (s.goToVerification valid)
    else none
  | .sent i => if i ∈ s.waiting then some (s.onSent i) else none
  | .notSent i => if i ∈ s.waiting then some { s with waiting := s.waiting.erase i } else none
  | .confirmVerification =>
    if s.linking.phoneSubmitted && s.linking.verificationCode ≠ [] && s.linking.currentUser.isNone
    then some s.confirmVerification
    else none
  | .confirmed i =>
    if i < s.confirms.length then some { s with confirms := s.confirms.eraseIdx i } else none

/-! ### The answer in hand -/

/-- The answer in hand is of the kind the button takes, it answers the last call, and the number on
the screen is the one of that call. -/
def Answered (s : Screen) : Option User → Prop
  | some _ => ∃ r ∈ s.linking.confirmResult,
      IsLast s.linking.attempts s.linking.phoneNumber r.verificationId
  | none => ∃ i ∈ s.confirmation, IsLast s.requests s.linking.phoneNumber i

/-- So it is while the code is asked for. -/
def Matched (s : Screen) : Prop :=
  s.linking.phoneSubmitted → s.Answered s.linking.currentUser

/-- Only the last call is answered, with the number as it was then, and an attempt to link only
while the user is signed in. -/
def Timely (s : Screen) : ScreenEvent → Prop
  | .linking (.complete i _) =>
    s.linking.currentUser.isSome ∧ IsLast s.linking.attempts s.linking.phoneNumber i
  | .sent i => IsLast s.requests s.linking.phoneNumber i
  | _ => True

instance (s : Screen) : (currentUser : Option User) → Decidable (s.Answered currentUser)
  | some _ => inferInstanceAs (Decidable (∃ r ∈ s.linking.confirmResult, _))
  | none => inferInstanceAs (Decidable (∃ i ∈ s.confirmation, _))

instance (s : Screen) : Decidable s.Matched := inferInstanceAs (Decidable (_ → _))

instance (s : Screen) : (e : ScreenEvent) → Decidable (Timely s e)
  | .linking (.complete _ _) | .sent _ => inferInstanceAs (Decidable (_ ∧ _))
  | .linking (.changePhoneNumber _) | .linking (.changeVerificationCode _)
  | .linking (.linkPhone _) | .linking (.phoneAuth _ _) | .linking .confirm | .linking .back
  | .linking (.linked _) | .linking (.linkFailed _) | .linking .signedOut | .goToVerification _
  | .notSent _ | .confirmVerification | .confirmed _ => isTrue trivial

end Screen

/-! ### Steps -/

/-- Signing out is the only way from linking to signing in, and there is none back. -/
lemma currentUser_of_step {s s' : State} {e : Event} (hs : step s e = some s')
    (he : e ≠ .signedOut) : s'.currentUser = s.currentUser := by
  cases e with
  | linkPhone valid =>
    obtain ⟨-, -, -, rfl⟩ := step_cases hs
    cases valid <;> rfl
  | confirm =>
    obtain ⟨-, -, -, rfl⟩ := step_cases hs
    rcases confirmLinkAccount_cases s with heq | ⟨r, -, heq⟩ <;> rw [heq]
  | phoneAuth i st => rw [step_cases hs]
  | signedOut => exact absurd rfl he
  | changePhoneNumber n | changeVerificationCode code | complete i code | back | linked i
  | linkFailed i =>
    obtain ⟨-, rfl⟩ := step_cases hs
    rfl

/-- Only an answer leads to the question for the code, and the number stays as it is there. -/
lemma submitted_of_step {s s' : State} {e : Event} (hs : step s e = some s')
    (hsub : s'.phoneSubmitted) (he : ∀ i code, e ≠ .complete i code) :
    s.phoneSubmitted ∧ s'.phoneNumber = s.phoneNumber := by
  cases e with
  | changePhoneNumber n =>
    obtain ⟨hnot, rfl⟩ := step_cases hs
    exact absurd hsub (by simp [hnot])
  | linkPhone valid =>
    obtain ⟨hnot, -, -, rfl⟩ := step_cases hs
    cases valid <;> exact absurd hsub (by simp [linkPhone, hnot])
  | back =>
    obtain ⟨-, rfl⟩ := step_cases hs
    cases hsub
  | signedOut =>
    cases step_cases hs
    cases hsub
  | confirm =>
    obtain ⟨hask, -, -, rfl⟩ := step_cases hs
    rcases confirmLinkAccount_cases s with heq | ⟨r, -, heq⟩ <;> rw [heq] <;> exact ⟨hask, rfl⟩
  | phoneAuth i st =>
    cases step_cases hs
    exact ⟨hsub, rfl⟩
  | changeVerificationCode code | linked i | linkFailed i =>
    obtain ⟨-, rfl⟩ := step_cases hs
    exact ⟨hsub, rfl⟩
  | complete i code => exact absurd rfl (he i code)

namespace Screen

/-- The answer in hand, for one who signs in. -/
def Requested (s : Screen) : Prop :=
  s.linking.currentUser = none → s.linking.phoneSubmitted →
    ∃ i ∈ s.confirmation, IsLast s.requests s.linking.phoneNumber i

lemma matched_iff {s : Screen} : s.Matched ↔ Asking s.linking ∧ s.Requested := by
  unfold Matched Asking Requested
  cases s.linking.currentUser <;> simp [Answered]

/-- Nobody signs in while signed in. -/
def Exclusive (s : Screen) : Prop := s.linking.currentUser.isSome → s.waiting = []

lemma exclusive_of_none {s : Screen} (h : s.linking.currentUser = none) : s.Exclusive := by
  intro huser
  rw [h] at huser
  cases huser

lemma user_none_of_waiting {s : Screen} (h : s.Exclusive) {i : ℕ} (hi : i ∈ s.waiting) :
    s.linking.currentUser = none := by
  cases huser : s.linking.currentUser with
  | none => rfl
  | some u =>
    rw [h (by simp [huser])] at hi
    cases hi

/-- A step of the linking part. -/
lemma step_linking {s s' : Screen} {e : Event} (hs : s.step (.linking e) = some s') :
    LoginPhone.step s.linking e = some s'.linking ∧ s'.requests = s.requests ∧
      s'.waiting = s.waiting ∧
      (s'.confirmation = s.confirmation ∨ (∃ i code, e = .complete i code) ∨ e = .signedOut) := by
  obtain ⟨linking, hlinking, rfl⟩ := Option.map_eq_some_iff.mp hs
  cases e <;> simp [hlinking]

lemma exclusive_step {s s' : Screen} {e : ScreenEvent} (h : s.Exclusive)
    (hs : s.step e = some s') : s'.Exclusive := by
  cases e with
  | linking e =>
    obtain ⟨hlinking, -, hwaiting, -⟩ := step_linking hs
    by_cases he : e = .signedOut
    · subst he
      refine exclusive_of_none ?_
      rw [step_cases hlinking]
      rfl
    · intro huser
      rw [currentUser_of_step hlinking he] at huser
      rw [hwaiting]
      exact h huser
  | goToVerification valid =>
    simp only [step] at hs
    split_ifs at hs with hg
    obtain rfl := Option.some.inj hs
    simp only [Bool.and_eq_true, Option.isNone_iff_eq_none] at hg
    refine exclusive_of_none ?_
    cases valid <;> exact hg.2
  | sent i | notSent i =>
    simp only [step] at hs
    split_ifs at hs with hi
    have huser := user_none_of_waiting h hi
    obtain rfl := Option.some.inj hs
    exact exclusive_of_none huser
  | confirmVerification =>
    simp only [step] at hs
    split_ifs at hs with hg
    obtain rfl := Option.some.inj hs
    unfold confirmVerification
    split <;> exact h
  | confirmed i =>
    simp only [step] at hs
    split_ifs at hs
    obtain rfl := Option.some.inj hs
    exact h

/-- The answer to an attempt to link. -/
lemma matched_complete {s s' : Screen} {i : ℕ} {code : Option Text}
    (hs : s.step (.linking (.complete i code)) = some s') :
    s'.Matched ↔ s.Timely (.linking (.complete i code)) := by
  obtain ⟨linking, hlinking, rfl⟩ := Option.map_eq_some_iff.mp hs
  obtain ⟨-, rfl⟩ := step_cases hlinking
  simp only [Matched, Timely, onComplete]
  cases s.linking.currentUser <;> simp [Answered]

/-- The answer to a request to sign in. -/
lemma matched_sent {s s' : Screen} {i : ℕ} (hex : s.Exclusive) (hs : s.step (.sent i) = some s') :
    s'.Matched ↔ s.Timely (.sent i) := by
  simp only [step] at hs
  split_ifs at hs with hi
  obtain rfl := Option.some.inj hs
  simp [Matched, Answered, Timely, onSent, user_none_of_waiting hex hi]

/-- The other steps of the linking part. -/
lemma matched_linking {s s' : Screen} {e : Event} (h : s.Matched)
    (he : ∀ i code, e ≠ .complete i code) (hs : s.step (.linking e) = some s') : s'.Matched := by
  obtain ⟨hasking, hrequested⟩ := matched_iff.mp h
  obtain ⟨hlinking, hrequests, -, hconfirmation⟩ := step_linking hs
  have htimely : LoginPhone.Timely s.linking e := by
    cases e with
    | complete i code => exact absurd rfl (he i code)
    | _ => trivial
  refine matched_iff.mpr ⟨asking_step hasking htimely hlinking, fun huser hsub => ?_⟩
  obtain ⟨hask, hnumber⟩ := submitted_of_step hlinking hsub he
  have hout : e ≠ .signedOut := by
    rintro rfl
    rw [step_cases hlinking] at hsub
    cases hsub
  rw [currentUser_of_step hlinking hout] at huser
  rcases hconfirmation with hconfirmation | ⟨i, code, rfl⟩ | rfl
  · rw [hconfirmation, hrequests, hnumber]
    exact hrequested huser hask
  · exact absurd rfl (he i code)
  · exact absurd rfl hout

/-- **One step** keeps the answer in hand the right one exactly if it is timely. -/
lemma matched_step {s s' : Screen} {e : ScreenEvent} (h : s.Matched) (hex : s.Exclusive)
    (hs : s.step e = some s') : s'.Matched ↔ s.Timely e := by
  cases e with
  | linking e =>
    by_cases he : ∃ i code, e = .complete i code
    · obtain ⟨i, code, rfl⟩ := he
      exact matched_complete hs
    · have hne : ∀ i code, e ≠ .complete i code := fun i code heq => he ⟨i, code, heq⟩
      refine iff_of_true (matched_linking h hne hs) ?_
      cases e with
      | complete i code => exact absurd rfl (hne i code)
      | _ => trivial
  | sent i => exact matched_sent hex hs
  | goToVerification valid =>
    -- the code is not asked for, neither before nor after
    simp only [step] at hs
    split_ifs at hs with hg
    obtain rfl := Option.some.inj hs
    have hnot : s.linking.phoneSubmitted = false := by simp_all
    refine iff_of_true (fun hsub => ?_) trivial
    cases valid <;> exact absurd hsub (by simp [goToVerification, hnot])
  | notSent i =>
    simp only [step] at hs
    split_ifs at hs
    obtain rfl := Option.some.inj hs
    exact iff_of_true h trivial
  | confirmVerification =>
    simp only [step] at hs
    split_ifs at hs
    obtain rfl := Option.some.inj hs
    refine iff_of_true ?_ trivial
    unfold confirmVerification
    split <;> exact h
  | confirmed i =>
    simp only [step] at hs
    split_ifs at hs
    obtain rfl := Option.some.inj hs
    exact iff_of_true h trivial

/-- What is confirmed is the last request, made for the number on the screen. -/
lemma Matched.confirms {s s' : Screen} (h : s.Matched) (hs : s.step .confirmVerification = some s') :
    ∃ i, s'.confirms = s.confirms ++ [(i, s.linking.verificationCode)] ∧
      IsLast s.requests s.linking.phoneNumber i := by
  simp only [step] at hs
  split_ifs at hs with hg
  obtain rfl := Option.some.inj hs
  simp only [Bool.and_eq_true, Option.isNone_iff_eq_none] at hg
  obtain ⟨i, hi, hlast⟩ := (matched_iff.mp h).2 hg.2 hg.1.1
  exact ⟨i, by rw [confirmVerification, Option.mem_def.mp hi], hlast⟩

def matching : Invariant step Timely where
  holds s := s.Matched ∧ s.Exclusive
  preserved h hg hs := ⟨(matched_step h.1 h.2 hs).mpr hg, exclusive_step h.2 hs⟩

/-- **Linking and signing in do not get mixed up.** Whatever the user does on the screen, signing
out in between included: whenever it asks for the code, the answer in hand is of the right kind,
for the last call and for the number shown, exactly if every answer comes to the user it was asked
by, while it is the last one's and the number has not been edited. -/
theorem matched_iff_timely (currentUser : Option User) (es : List ScreenEvent) :
    Throughout step Matched (mount currentUser) es ↔
      Along step Timely (mount currentUser) es := by
  refine matching.throughout_iff (fun _ h => h.1) (fun s e s' h hs h' => ?_) ?_
  · exact (matched_step h.1 h.2 hs).mp h'
  · refine ⟨fun hsub => ?_, fun _ => rfl⟩
    cases hsub

/-- An attempt to link completes after the user has signed out. -/
example : ¬Throughout step Matched (mount (some guest))
    [.linking (.changePhoneNumber (txt ['1'])), .linking (.linkPhone true), .linking .signedOut,
      .linking (.complete 0 none)] := by
  decide

end Screen

end Wedcast.LoginPhone
