import Wedcast.CreateFeedFields
import Wedcast.Lib.History
import Wedcast.Lib.Indexed
import Wedcast.LoginPhone

/-!
Which verification attempt a phone number is linked with.

An attempt is never cancelled, and the number can be edited while one is on its way. Both screens
store the snapshot that comes in and build the credential from it when the code is confirmed. The
right attempt is confirmed as long as the snapshots that come in are those of the attempt started
last, and the number has not been edited since.
-/

namespace Wedcast

open Runs Indexed

/-! ### The wizard -/

namespace CreateFeed

variable {L : LowerCase}

/-- Noted: the attempt that filled in the verification code, none while the user has typed it. -/
def noteFilled (x : State × Option ℕ) (e : Event) (_ : State) : Option ℕ :=
  match e with
  | .changeText .verificationCode _ => none
  | .timer => if (x.1.timers.head?.map Prod.fst) = some .verificationCode then none else x.2
  | .phoneAuth i (.autoVerified code) => code.map fun _ => i
  | _ => x.2

/-- The credential is one of the attempt started last, and so is its code if an attempt has filled
it in; the number on the screen is the one that attempt was started with. -/
def LinksLast (attempts : List Text) (phoneNumber : Text) (filled : Option ℕ) (c : Credential) :
    Prop :=
  IsLast attempts phoneNumber c.verificationId ∧ ∀ j ∈ filled, j = c.verificationId

/-- If the step builds a credential, it is the right one. -/
def BuildsLast (L : LowerCase) (x : State × Option ℕ) (e : Event) : Prop :=
  ∀ s' ∈ step L x.1 e, x.1.links.length < s'.links.length →
    ∀ c ∈ s'.links.getLast?, LinksLast s'.attempts s'.phoneNumber (noteFilled x e s') c

/-- A snapshot that can lead to a credential comes from the attempt started last, with the number
as it was then. One that asks for the code moreover finds no code filled in by another attempt. -/
def Timely (x : State × Option ℕ) : Event → Prop
  | .phoneAuth i .codeSent => IsLast x.1.attempts x.1.phoneNumber i ∧
      (x.1.verificationCode.getD [] ≠ [] → ∀ j ∈ x.2, j = i)
  | .phoneAuth i (.autoVerified code) => x.1.phoneSubmitted ∨ code.getD [] ≠ [] →
      IsLast x.1.attempts x.1.phoneNumber i
  | _ => True

instance (attempts : List Text) (phoneNumber : Text) (filled : Option ℕ) (c : Credential) :
    Decidable (LinksLast attempts phoneNumber filled c) :=
  inferInstanceAs (Decidable (_ ∧ ∀ j ∈ filled, _))

instance (x : State × Option ℕ) (e : Event) : Decidable (BuildsLast L x e) :=
  inferInstanceAs (Decidable (∀ s' ∈ step L x.1 e, _ → ∀ c ∈ s'.links.getLast?, _))

instance (x : State × Option ℕ) : (e : Event) → Decidable (Timely x e)
  | .phoneAuth _ .codeSent => inferInstanceAs (Decidable (_ ∧ (_ → ∀ j ∈ _, _)))
  | .phoneAuth _ (.autoVerified _) => inferInstanceAs (Decidable (_ → _))
  | .phoneAuth _ .error | .phoneAuth _ .autoVerifyTimeout | .changeText _ _ | .timer
  | .changePhoneNumber _ | .next | .previous | .answer _ _ | .reply _ | .readFailed _
  | .linkPhone _ | .confirm | .finish _ | .linked _ _ | .linkFailed _ _ | .signIn
  | .returnData _ =>
    isTrue trivial

/-- The stored snapshot is the right one, and no other attempt has filled in the code. -/
def Holding (s : State) (filled : Option ℕ) : Prop :=
  ∃ r ∈ s.confirmResult, IsLast s.attempts s.phoneNumber r.verificationId ∧
    (s.verificationCode.getD [] ≠ [] → ∀ j ∈ filled, j = r.verificationId)

/-- What holds along such steps, while the code is asked for. -/
def Asking (x : State × Option ℕ) : Prop := x.1.phoneSubmitted → Holding x.1 x.2

/-! ### What a step does to the verification -/

def State.phone (s : State) :
    Bool × Option PhoneAuthSnapshot × List Text × Text × Option Text :=
  (s.phoneSubmitted, s.confirmResult, s.attempts, s.phoneNumber, s.verificationCode)

/-- The event is about the verification. -/
def Event.verifies : Event → Bool
  | .changeText .verificationCode _ | .timer | .changePhoneNumber _ | .previous | .linkPhone _
  | .confirm | .phoneAuth _ _ => true
  | _ => false

/-- Going back either takes the question for the code off the screen, or leaves it alone. -/
lemma goToPreviousPage_phone (s : State) :
    (goToPreviousPage s).phoneSubmitted = false ∨ (goToPreviousPage s).phone = s.phone := by
  unfold goToPreviousPage
  split_ifs
  · exact .inl rfl
  · exact .inr rfl
  · exact .inr rfl
  · exact .inr rfl

lemma changeText_code {f : Field} (hf : f ≠ .verificationCode) (san text : Text) (s : State) :
    (changeText f san text s).verificationCode = s.verificationCode := by
  unfold changeText
  split_ifs <;> cases f <;> first | rfl | exact absurd rfl hf

/-- The other events leave the verification alone. -/
lemma step_phone {s s' : State} {e : Event} (hs : step L s e = some s') (he : e.verifies = false) :
    s'.phone = s.phone := by
  cases e with
  | changeText f text =>
    obtain ⟨-, rfl⟩ := step_cases hs
    cases f with
    | verificationCode => simp [Event.verifies] at he
    | feedName | castId | password =>
      rw [onChangeText_eq, changeText_frame, changeText_code]
      · rfl
      · decide
  | next =>
    obtain ⟨-, rfl⟩ := step_cases hs
    rw [goToNextPage_frame]
    rfl
  | answer i taken =>
    obtain ⟨_, _, -, rfl⟩ := step_cases hs
    rfl
  | reply i =>
    obtain ⟨_, taken, -, -, rfl⟩ := step_cases hs
    cases taken <;> rfl
  | finish newFeedId =>
    obtain ⟨-, -, rfl⟩ := step_cases hs
    rfl
  | readFailed i | linked i newFeedId | linkFailed i error =>
    obtain ⟨-, rfl⟩ := step_cases hs
    rfl
  | signIn | returnData avatarUri =>
    cases step_cases hs
    rfl
  | _ => simp [Event.verifies] at he

lemma Holding.congr {s s' : State} {filled : Option ℕ} (h : Holding s filled)
    (hphone : s'.phone = s.phone) : Holding s' filled := by
  simp only [State.phone, Prod.mk.injEq] at hphone
  obtain ⟨-, hres, hatt, hnum, hcode⟩ := hphone
  unfold Holding
  rw [hres, hatt, hnum, hcode]
  exact h

lemma Asking.congr {x : State × Option ℕ} (h : Asking x) {s' : State}
    (hphone : s'.phone = x.1.phone) : Asking (s', x.2) := by
  intro hsub
  have hsame : s'.phoneSubmitted = x.1.phoneSubmitted := congrArg Prod.fst hphone
  exact (h (hsame ▸ hsub)).congr hphone

/-- Before the code is asked for. -/
lemma asking_of_not {x : State × Option ℕ} (h : x.1.phoneSubmitted = false) : Asking x := by
  intro hsub
  have hfalse : false = true := h.symm.trans hsub
  cases hfalse

/-- A typed code has been filled in by no attempt. -/
lemma Asking.typed {x : State × Option ℕ} (h : Asking x) {s' : State} (code : Option Text)
    (hphone : s'.phone = State.phone { x.1 with verificationCode := code }) :
    Asking (s', none) := by
  intro hsub
  have hsame : s'.phoneSubmitted = x.1.phoneSubmitted := congrArg Prod.fst hphone
  obtain ⟨r, hr, hlast, -⟩ := h (hsame ▸ hsub)
  have hholding : Holding { x.1 with verificationCode := code } none := ⟨r, hr, hlast, by simp⟩
  exact hholding.congr hphone

/-! ### Building a credential -/

lemma confirmVerification_phone (s : State) : (confirmVerification s).phone = s.phone := by
  rw [confirmVerification_frame]
  rfl

/-- The event may build a credential. -/
def Event.builds : Event → Bool
  | .confirm | .phoneAuth _ (.autoVerified _) => true
  | _ => false

/-- The other events build none. -/
lemma links_le_of_step {s s' : State} {e : Event} (hs : step L s e = some s')
    (he : e.builds = false) : s'.links.length ≤ s.links.length := by
  have hsame : s'.links = s.links → s'.links.length ≤ s.links.length := fun heq =>
    Nat.le_of_eq (congrArg List.length heq)
  cases e with
  | changeText f text =>
    obtain ⟨-, rfl⟩ := step_cases hs
    exact hsame (by rw [onChangeText_eq, changeText_links])
  | timer =>
    obtain ⟨f, t, rest, -, rfl⟩ := step_cases hs
    exact hsame (by rw [setField_frame])
  | next =>
    obtain ⟨-, rfl⟩ := step_cases hs
    exact hsame (by rw [goToNextPage_frame])
  | previous =>
    obtain ⟨-, rfl⟩ := step_cases hs
    exact hsame (by rw [goToPreviousPage_frame])
  | linkPhone valid =>
    obtain ⟨-, -, -, rfl⟩ := step_cases hs
    exact hsame (by rw [linkPhone_frame])
  | phoneAuth i st =>
    obtain ⟨-, rfl⟩ := step_cases hs
    cases st with
    | autoVerified code => simp [Event.builds] at he
    | codeSent | error | autoVerifyTimeout => exact hsame rfl
  | answer i taken =>
    obtain ⟨_, _, -, rfl⟩ := step_cases hs
    exact hsame rfl
  | reply i =>
    obtain ⟨_, taken, -, -, rfl⟩ := step_cases hs
    cases taken <;> exact hsame rfl
  | finish newFeedId =>
    obtain ⟨-, -, rfl⟩ := step_cases hs
    exact hsame rfl
  | changePhoneNumber n | readFailed i =>
    obtain ⟨-, rfl⟩ := step_cases hs
    exact hsame rfl
  | linked i newFeedId | linkFailed i error =>
    obtain ⟨-, rfl⟩ := step_cases hs
    exact List.length_eraseIdx_le _ _
  | signIn | returnData avatarUri =>
    cases step_cases hs
    exact hsame rfl
  | confirm => simp [Event.builds] at he

/-- Without a code, no credential is built. -/
lemma code_of_confirmVerification {s : State}
    (h : s.links.length < (confirmVerification s).links.length) :
    s.verificationCode.getD [] ≠ [] := by
  rcases confirmVerification_cases s with heq | ⟨r, -, code, hne, hcode, -⟩
  · rw [heq] at h
    omega
  · rw [hcode]
    exact hne

lemma Holding.linksLast {s : State} {filled : Option ℕ} (h : Holding s filled) {c : Credential}
    (hgrow : s.links.length < (confirmVerification s).links.length)
    (hc : c ∈ (confirmVerification s).links.getLast?) :
    LinksLast (confirmVerification s).attempts (confirmVerification s).phoneNumber filled c := by
  obtain ⟨r, hr, hlast, hfilled⟩ := h
  rcases confirmVerification_cases s with heq | ⟨r', hr', code, hne, hcode, -, heq⟩
  · rw [heq] at hgrow
    omega
  · obtain rfl : r = r' := Option.mem_unique hr hr'
    rw [heq] at hc ⊢
    obtain rfl : c = ⟨r.verificationId, code⟩ := by simpa using hc.symm
    exact ⟨hlast, hfilled (by rw [hcode]; exact hne)⟩

/-- The snapshot of an attempt that has verified itself is the right one, with its own code. -/
lemma holding_autoVerified {s : State} {i : ℕ} (h : IsLast s.attempts s.phoneNumber i)
    (code : Option Text) :
    Holding { s with confirmResult := some ⟨i, code⟩, verificationCode := code }
      (code.map fun _ => i) := by
  refine ⟨⟨i, code⟩, rfl, h, fun _ j hj => ?_⟩
  obtain ⟨_, -, rfl⟩ := Option.map_eq_some_iff.mp hj
  rfl

/-- A timely step keeps the right attempt in the state. -/
lemma asking_step {x y : State × Option ℕ} {e : Event} (h : Asking x) (hg : Timely x e)
    (hs : noting (step L) noteFilled x e = some y) : Asking y := by
  obtain ⟨hstep, hnote⟩ := noting_some hs
  obtain ⟨s', n'⟩ := y
  obtain rfl : n' = noteFilled x e s' := hnote
  by_cases hv : e.verifies
  swap
  · have hkeep : noteFilled x e s' = x.2 := by
      cases e with
      | changeText f text => cases f <;> first | rfl | simp [Event.verifies] at hv
      | timer | phoneAuth i st => simp [Event.verifies] at hv
      | _ => rfl
    rw [hkeep]
    exact h.congr (step_phone hstep (by simpa using hv))
  cases e with
  | changeText f text =>
    obtain ⟨-, rfl⟩ := step_cases hstep
    cases f with
    | verificationCode =>
      refine h.typed (onChangeText L .verificationCode text x.1).verificationCode ?_
      rw [onChangeText_eq, changeText_frame]
      rfl
    | feedName | castId | password => simp [Event.verifies] at hv
  | timer =>
    obtain ⟨f, t, rest, htimers, rfl⟩ := step_cases hstep
    cases f with
    | verificationCode =>
      have hnote : noteFilled x .timer (State.setField { x.1 with timers := rest }
          .verificationCode t) = none := by
        simp [noteFilled, htimers]
      rw [hnote]
      exact h.typed (some t) rfl
    | feedName | castId | password =>
      simp only [noteFilled, htimers, List.head?_cons, Option.map_some]
      exact h.congr rfl
  | changePhoneNumber n =>
    obtain ⟨hsub, rfl⟩ := step_cases hstep
    exact asking_of_not hsub
  | previous =>
    obtain ⟨-, rfl⟩ := step_cases hstep
    rcases goToPreviousPage_phone x.1 with hsub | hphone
    · exact asking_of_not hsub
    · exact h.congr hphone
  | linkPhone valid =>
    obtain ⟨-, -, hsub, rfl⟩ := step_cases hstep
    rw [linkPhone_frame]
    exact asking_of_not hsub
  | confirm =>
    obtain ⟨-, -, -, rfl⟩ := step_cases hstep
    exact h.congr (confirmVerification_phone x.1)
  | phoneAuth i st =>
    obtain ⟨-, rfl⟩ := step_cases hstep
    cases st with
    | codeSent => exact fun _ => ⟨⟨i, none⟩, rfl, hg.1, hg.2⟩
    | error => exact asking_of_not rfl
    | autoVerifyTimeout => exact h
    | autoVerified code =>
      intro hsub
      have hphone := confirmVerification_phone
        { x.1 with confirmResult := some ⟨i, code⟩, verificationCode := code }
      have hsame : x.1.phoneSubmitted = true := (congrArg Prod.fst hphone).symm.trans hsub
      exact (holding_autoVerified (hg (.inl hsame)) code).congr hphone
  | _ => simp [Event.verifies] at hv

/-- A credential is the right one. -/
lemma Asking.buildsLast {x : State × Option ℕ} {e : Event} (h : Asking x) (hg : Timely x e) :
    BuildsLast L x e := by
  intro s' hs hgrow c hc
  by_cases hb : e.builds
  swap
  · have hle := links_le_of_step hs (by simpa using hb)
    omega
  cases e with
  | confirm =>
    obtain ⟨-, -, hsub, rfl⟩ := step_cases hs
    exact (h hsub).linksLast hgrow hc
  | phoneAuth i st =>
    obtain ⟨-, rfl⟩ := step_cases hs
    cases st with
    | autoVerified code =>
      have hcode := code_of_confirmVerification
        (s := { x.1 with confirmResult := some ⟨i, code⟩, verificationCode := code }) hgrow
      have hholding := holding_autoVerified (hg (.inr hcode)) code
      exact hholding.linksLast hgrow hc
    | codeSent | error | autoVerifyTimeout => simp [Event.builds] at hb
  | _ => simp [Event.builds] at hb

def verifying (L : LowerCase) : Invariant (noting (step L) noteFilled) Timely where
  holds := Asking
  preserved := asking_step

end CreateFeed

/-! ### LoginPhone -/

namespace LoginPhone

/-- If the step builds a credential, it is one of the attempt started last, with its number. The
code is always typed. -/
def BuildsLast (s : State) (e : Event) : Prop :=
  ∀ s' ∈ step s e, s.links.length < s'.links.length →
    ∀ c ∈ s'.links.getLast?, IsLast s'.attempts s'.phoneNumber c.verificationId

/-- Only the attempt started last completes, and with the number as it was then. -/
def Timely (s : State) : Event → Prop
  | .complete i _ => s.currentUser.isSome → IsLast s.attempts s.phoneNumber i
  | _ => True

instance (s : State) (e : Event) : Decidable (BuildsLast s e) :=
  inferInstanceAs (Decidable (∀ s' ∈ step s e, _ → ∀ c ∈ s'.links.getLast?, _))

instance (s : State) : (e : Event) → Decidable (Timely s e)
  | .complete _ _ => inferInstanceAs (Decidable (_ → _))
  | .changePhoneNumber _ | .changeVerificationCode _ | .linkPhone _ | .phoneAuth _ _ | .confirm
  | .back | .linked _ | .linkFailed _ | .signedOut => isTrue trivial

/-- What holds along such steps: while the code is asked for, the stored snapshot is the right
one. -/
def Asking (s : State) : Prop :=
  s.currentUser.isSome → s.phoneSubmitted → ∃ r ∈ s.confirmResult,
    IsLast s.attempts s.phoneNumber r.verificationId

/-- Before the code is asked for. -/
lemma asking_of_not {s : State} (h : s.phoneSubmitted = false) : Asking s := by
  intro _ hsub
  have hfalse : false = true := h.symm.trans hsub
  cases hfalse

/-- A credential is built from the stored snapshot. -/
lemma confirmLinkAccount_cases (s : State) : confirmLinkAccount s = s ∨
    ∃ r ∈ s.confirmResult, confirmLinkAccount s =
      { s with links := s.links ++ [⟨r.verificationId, s.verificationCode⟩] } := by
  unfold confirmLinkAccount
  split
  · rename_i r c code hr hcode
    exact .inr ⟨r, hr, by rw [hcode]⟩
  · exact .inl rfl

lemma asking_step {s s' : State} {e : Event} (h : Asking s) (hg : Timely s e)
    (hs : step s e = some s') : Asking s' := by
  cases e with
  | changePhoneNumber n =>
    obtain ⟨hsub, rfl⟩ := step_cases hs
    exact asking_of_not hsub
  | changeVerificationCode code =>
    obtain ⟨-, rfl⟩ := step_cases hs
    exact h
  | linkPhone valid =>
    obtain ⟨hsub, -, -, rfl⟩ := step_cases hs
    cases valid <;> exact asking_of_not hsub
  | phoneAuth i st =>
    cases step_cases hs
    exact h
  | complete i code =>
    obtain ⟨-, rfl⟩ := step_cases hs
    exact fun huser _ => ⟨⟨i, code⟩, rfl, hg huser⟩
  | confirm =>
    obtain ⟨-, -, -, rfl⟩ := step_cases hs
    rcases confirmLinkAccount_cases s with heq | ⟨r, -, heq⟩ <;> rw [heq] <;> exact h
  | back =>
    obtain ⟨-, rfl⟩ := step_cases hs
    exact asking_of_not rfl
  | linked i | linkFailed i =>
    obtain ⟨-, rfl⟩ := step_cases hs
    exact h
  | signedOut =>
    cases step_cases hs
    exact asking_of_not rfl

/-- Only a confirmation builds a credential. -/
lemma links_le_of_step {s s' : State} {e : Event} (hs : step s e = some s') (he : e ≠ .confirm) :
    s'.links.length ≤ s.links.length := by
  have hsame : s'.links = s.links → s'.links.length ≤ s.links.length := fun heq =>
    Nat.le_of_eq (congrArg List.length heq)
  cases e with
  | linkPhone valid =>
    obtain ⟨-, -, -, rfl⟩ := step_cases hs
    cases valid <;> exact hsame rfl
  | linked i | linkFailed i =>
    obtain ⟨-, rfl⟩ := step_cases hs
    exact List.length_eraseIdx_le _ _
  | phoneAuth i st | signedOut =>
    cases step_cases hs
    exact hsame rfl
  | changePhoneNumber n | changeVerificationCode code | complete i code | back =>
    obtain ⟨-, rfl⟩ := step_cases hs
    exact hsame rfl
  | confirm => exact absurd rfl he

lemma Asking.buildsLast {s : State} {e : Event} (h : Asking s) : BuildsLast s e := by
  intro s' hs hgrow c hc
  by_cases he : e = .confirm
  · subst he
    obtain ⟨hsub, -, huser, rfl⟩ := step_cases hs
    obtain ⟨r, hr, hlast⟩ := h huser hsub
    rcases confirmLinkAccount_cases s with heq | ⟨r', hr', heq⟩
    · rw [heq] at hgrow
      omega
    · obtain rfl : r = r' := Option.mem_unique hr hr'
      rw [heq] at hc ⊢
      obtain rfl : c = ⟨r.verificationId, s.verificationCode⟩ := by simpa using hc.symm
      exact hlast
  · have hle := links_le_of_step hs he
    omega

def verifying : Invariant step Timely where
  holds := Asking
  preserved := asking_step

end LoginPhone

/-- **The number that is linked.** On runs of timely steps, every credential that either screen
builds is one of the attempt started last, with that attempt's code if an attempt has filled one in,
and the number on the screen is the one the attempt was started with. -/
theorem buildsLast_of_timely (L : LowerCase) (u : User) (es : List CreateFeed.Event)
    (currentUser : Option User) (es' : List LoginPhone.Event) :
    (Along (noting (CreateFeed.step L) CreateFeed.noteFilled) CreateFeed.Timely
        (CreateFeed.mount u, none) es →
      Along (noting (CreateFeed.step L) CreateFeed.noteFilled) (CreateFeed.BuildsLast L)
        (CreateFeed.mount u, none) es) ∧
    (Along LoginPhone.step LoginPhone.Timely (LoginPhone.mount currentUser) es' →
      Along LoginPhone.step LoginPhone.BuildsLast (LoginPhone.mount currentUser) es') := by
  constructor
  · refine (CreateFeed.verifying L).along (fun x e y h hg _ => h.buildsLast hg) ?_
    exact CreateFeed.asking_of_not rfl
  · refine LoginPhone.verifying.along (fun s e s' h _ _ => h.buildsLast) ?_
    exact LoginPhone.asking_of_not rfl

/-- A guest's wizard up to page 4. -/
def toAccount : List CreateFeed.Event :=
  [.changeText .feedName (txt ['q']), .next, .changeText .castId (txt ['a']), .next,
    .answer 0 false, .reply 0, .changeText .password (txt ['p']), .next, .next]

/-- Somebody without an account. -/
def guest : User := ⟨txt ['u'], none, none, true⟩

/-- A code comes for the first number, which is then corrected and sent again. -/
def sentTwice : List CreateFeed.Event :=
  toAccount ++ [.changePhoneNumber (txt ['1']), .linkPhone true, .phoneAuth 0 .codeSent, .previous,
    .changePhoneNumber (txt ['2']), .linkPhone true, .phoneAuth 1 .codeSent,
    .changeText .verificationCode (txt ['9']), .confirm]

/-- The same on the other screen. -/
def sentTwice' : List LoginPhone.Event :=
  [.changePhoneNumber (txt ['1']), .linkPhone true, .complete 0 none, .back,
    .changePhoneNumber (txt ['2']), .linkPhone true, .complete 1 none,
    .changeVerificationCode (txt ['9']), .confirm]

theorem buildsLast_of_timely_sentTwice :
    ((run (CreateFeed.step asciiLowerCase) (CreateFeed.mount guest) sentTwice).isSome ∧
      Along (noting (CreateFeed.step asciiLowerCase) CreateFeed.noteFilled)
        (CreateFeed.BuildsLast asciiLowerCase) (CreateFeed.mount guest, none) sentTwice) ∧
    (run LoginPhone.step (LoginPhone.mount (some guest)) sentTwice').isSome ∧
      Along LoginPhone.step LoginPhone.BuildsLast (LoginPhone.mount (some guest)) sentTwice' := by
  have h := buildsLast_of_timely asciiLowerCase guest sentTwice (some guest) sentTwice'
  exact ⟨⟨by decide, h.1 (by decide)⟩, by decide, h.2 (by decide)⟩

/-- The number is edited before the code comes. -/
def editedNumber : List CreateFeed.Event :=
  toAccount ++ [.changePhoneNumber (txt ['1']), .linkPhone true, .changePhoneNumber (txt ['2']),
    .phoneAuth 0 .codeSent, .changeText .verificationCode (txt ['9']), .confirm]

/-- The same on the other screen. -/
def editedNumber' : List LoginPhone.Event :=
  [.changePhoneNumber (txt ['1']), .linkPhone true, .changePhoneNumber (txt ['2']),
    .complete 0 none, .changeVerificationCode (txt ['9']), .confirm]

/-- **Another number is linked.** The one on the screen has never been sent. -/
theorem not_always_buildsLast :
    (¬∀ (L : LowerCase) (u : User) (es : List CreateFeed.Event),
      Along (noting (CreateFeed.step L) CreateFeed.noteFilled) (CreateFeed.BuildsLast L)
        (CreateFeed.mount u, none) es) ∧
    ¬∀ (currentUser : Option User) (es : List LoginPhone.Event),
      Along LoginPhone.step LoginPhone.BuildsLast (LoginPhone.mount currentUser) es := by
  constructor
  · intro h
    have hrun := h asciiLowerCase guest editedNumber
    revert hrun
    decide
  · intro h
    have hrun := h (some guest) editedNumber'
    revert hrun
    decide

end Wedcast
