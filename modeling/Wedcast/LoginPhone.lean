import Wedcast.CreateFeed

/-!
The LoginPhone screen, for a user who links a phone number to the account.

Nobody signed in goes through `goToVerification` and `confirmVerification` instead, which build no
credential and are left out. `state.currentUser` is read once, so these two never come before or
after the calls modelled here, other than by signing out.
-/

namespace Wedcast.LoginPhone

open CreateFeed (PhoneAuthSnapshot PhoneAuthState Credential)

structure State where
  currentUser : Option User
  phoneNumber : Text
  phoneSubmitted : Bool
  verificationCode : Text
  confirmResult : Option PhoneAuthSnapshot
  errorMessage : Option String
  /-- The numbers the verification attempts were started with. -/
  attempts : List Text
  /-- The calls of `linkWithCredential` that are not settled. -/
  links : List Credential
  deriving DecidableEq

/-- `defaultState`, in a state with the given work not seen to its end. -/
def defaultState (attempts : List Text) (links : List Credential) : State where
  currentUser := none
  phoneNumber := []
  phoneSubmitted := false
  verificationCode := []
  confirmResult := none
  errorMessage := none
  attempts := attempts
  links := links

/-- The constructor. -/
def mount (currentUser : Option User) : State := { defaultState [] [] with currentUser }

def linkPhone (isValidNumber : Bool) (s : State) : State :=
  if !isValidNumber then { s with errorMessage := some "Invalid phone number" }
  else { s with attempts := s.attempts ++ [s.phoneNumber] }

/-- The observer of an attempt handles every case with a bare `break`. -/
def onStateChanged (s : State) : PhoneAuthState → State
  | .codeSent | .error | .autoVerifyTimeout | .autoVerified _ => s

/-- The `optionalCompleteCb` of attempt `i`. -/
def onComplete (i : ℕ) (code : Option Text) (s : State) : State :=
  { s with confirmResult := some ⟨i, code⟩, phoneSubmitted := true }

/-- A missing `confirmResult` throws, and changes nothing. -/
def confirmLinkAccount (s : State) : State :=
  match s.confirmResult, s.verificationCode with
  | some confirmResult, c :: code =>
    { s with links := s.links ++ [⟨confirmResult.verificationId, c :: code⟩] }
  | _, _ => s

inductive Event where
  | changePhoneNumber (phoneNumber : Text)
  | changeVerificationCode (verificationCode : Text)
  | linkPhone (isValidNumber : Bool)
  | phoneAuth (i : ℕ) (st : PhoneAuthState)
  | complete (i : ℕ) (code : Option Text)
  | confirm
  /-- The arrow, or the question whether a text has come. -/
  | back
  | linked (i : ℕ)
  | linkFailed (i : ℕ)
  /-- The user has signed out from the alert of a link that failed. -/
  | signedOut
  deriving DecidableEq

def step (s : State) : Event → Option State
  | .changePhoneNumber n =>
    if s.phoneSubmitted then none else some { s with errorMessage := none, phoneNumber := n }
  | .changeVerificationCode code =>
    if s.phoneSubmitted then some { s with verificationCode := code } else none
  | .linkPhone valid =>
    if !s.phoneSubmitted && s.phoneNumber ≠ [] && s.currentUser.isSome then
      some (LoginPhone.linkPhone valid s)
    else none
  | .phoneAuth i st => if i < s.attempts.length then some (onStateChanged s st) else none
  | .complete i code => if i < s.attempts.length then some (onComplete i code s) else none
  | .confirm =>
    if s.phoneSubmitted && s.verificationCode ≠ [] && s.currentUser.isSome then
      some (confirmLinkAccount s)
    else none
  | .back => if s.phoneSubmitted then some { s with phoneSubmitted := false } else none
  | .linked i | .linkFailed i =>
    if i < s.links.length then some { s with links := s.links.eraseIdx i } else none
  | .signedOut => some (defaultState s.attempts s.links)

lemma step_cases {s s' : State} {e : Event} (h : step s e = some s') :
    match e with
    | .changePhoneNumber n => s.phoneSubmitted = false ∧
        s' = { s with errorMessage := none, phoneNumber := n }
    | .changeVerificationCode code => s.phoneSubmitted ∧ s' = { s with verificationCode := code }
    | .linkPhone valid => s.phoneSubmitted = false ∧ s.phoneNumber ≠ [] ∧ s.currentUser.isSome ∧
        s' = LoginPhone.linkPhone valid s
    | .phoneAuth _ _ => s' = s
    | .complete i code => i < s.attempts.length ∧ s' = onComplete i code s
    | .confirm => s.phoneSubmitted ∧ s.verificationCode ≠ [] ∧ s.currentUser.isSome ∧
        s' = confirmLinkAccount s
    | .back => s.phoneSubmitted ∧ s' = { s with phoneSubmitted := false }
    | .linked i | .linkFailed i => i < s.links.length ∧ s' = { s with links := s.links.eraseIdx i }
    | .signedOut => s' = defaultState s.attempts s.links := by
  cases e with
  | signedOut => simpa [step] using h.symm
  | phoneAuth i st =>
    simp only [step] at h
    split_ifs at h
    cases st <;> exact (Option.some.inj h).symm
  | changePhoneNumber | changeVerificationCode | linkPhone | complete | confirm | back | linked
  | linkFailed =>
    simp only [step] at h
    split_ifs at h with hg
    cases h
    simpa [and_assoc] using hg

end Wedcast.LoginPhone
