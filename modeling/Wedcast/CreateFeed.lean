import Wedcast.Database
import Wedcast.Lib.Runs

/-!
The CreateFeed wizard.

The state is the component's state together with the work it has started and not seen the end of:
zero-delay timers, availability reads, phone verification attempts and account links. An event is
a call of one of its handlers, at a moment when the handler can be called. The pager reports the
page it was set to, which the state holds already, so its event is left out.
-/

namespace Wedcast.CreateFeed

/-- The text fields with a sanitiser. -/
inductive Field where
  | feedName | castId | password | verificationCode
  deriving DecidableEq

structure PhoneAuthSnapshot where
  verificationId : ℕ
  code : Option Text
  deriving DecidableEq

/-- A read of `feeds/feedNew/<castId>/chatInfo` whose callback has not run. -/
structure Read where
  castId : Text
  /-- Whether `chatInfo` existed, once the database has answered. -/
  answer : Option Bool
  /-- The edition of `state.castId` the read was issued for. -/
  edition : ℕ
  deriving DecidableEq

/-- A call of `linkAndRetrieveDataWithCredential` that is not settled. -/
structure Credential where
  verificationId : ℕ
  verificationCode : Text
  deriving DecidableEq

/-- Its errors, by code. -/
inductive LinkError where
  /-- `auth/provider-already-linked` -/
  | providerAlreadyLinked
  /-- `auth/credential-already-in-use` -/
  | credentialAlreadyInUse
  | other
  deriving DecidableEq

structure State where
  currentPage : ℕ
  currentUser : User
  castId : Text
  verificationCode : Option Text
  phoneNumber : Text
  password : Text
  feedName : Text
  castType : ℕ
  avatarUri : Option Text
  disableNext : Bool
  isAnonymous : Bool
  phoneSubmitted : Bool
  errorMessage : Option String
  confirmResult : Option PhoneAuthSnapshot
  /-- The pending timers, the one started first in front. -/
  timers : List (Field × Text)
  reads : List Read
  /-- The numbers the verification attempts were started with. -/
  attempts : List Text
  links : List Credential
  /-- `firebase.auth().currentUser` is not null. -/
  signedIn : Bool
  /-- The alerts that offer to sign in to the account a number is linked to. -/
  offers : ℕ
  /-- History: how often `castId` has changed. -/
  edition : ℕ
  /-- History: the reads that found no `chatInfo`, by castId and edition. -/
  verified : List (Text × ℕ)
  deriving DecidableEq

/-- The constructor and `componentDidMount`. -/
def mount (currentUser : User) : State where
  currentPage := 0
  currentUser := currentUser
  castId := []
  verificationCode := some []
  phoneNumber := []
  password := []
  feedName := []
  castType := 0
  avatarUri := none
  disableNext := true
  isAnonymous := currentUser.isAnonymous
  phoneSubmitted := false
  errorMessage := none
  confirmResult := none
  timers := []
  reads := []
  attempts := []
  links := []
  signedIn := true
  offers := 0
  edition := 0
  verified := []

/-! ### Text -/

def State.field (s : State) : Field → Text
  | .feedName => s.feedName
  | .castId => s.castId
  | .password => s.password
  | .verificationCode => s.verificationCode.getD []

def State.setField (s : State) : Field → Text → State
  | .feedName, t => { s with feedName := t }
  | .castId, t =>
    { s with castId := t, edition := if t = s.castId then s.edition else s.edition + 1 }
  | .password, t => { s with password := t }
  | .verificationCode, t => { s with verificationCode := some t }

/-- The body the four handlers share: a text that is not clean is shown with a trailing space
until the timer stores its sanitised form. -/
def changeText (f : Field) (sanitizedText text : Text) (s : State) : State :=
  let hasInput := text.isEmpty
  let s' :=
    if sanitizedText ≠ text then
      let s' := s.setField f (sanitizedText ++ [ch ' '])
      { s' with timers := s'.timers ++ [(f, sanitizedText)] }
    else s.setField f sanitizedText
  { s' with disableNext := hasInput }

def sanitizePassword (text : Text) : State → State :=
  changeText .password (removeAll forbidden text) text

def sanitizeVerification (text : Text) : State → State :=
  changeText .verificationCode (removeAll forbidden text) text

def sanitizeFeedName (text : Text) : State → State :=
  changeText .feedName (removeAll forbiddenInName text) text

def addHashTag (L : LowerCase) (castId : Text) : State → State :=
  changeText .castId (L.toLowerCase (removeAll forbidden castId)) castId

/-- `onChangeText` of the field's input. -/
def onChangeText (L : LowerCase) : Field → Text → State → State
  | .feedName => sanitizeFeedName
  | .castId => addHashTag L
  | .password => sanitizePassword
  | .verificationCode => sanitizeVerification

/-- The updater a sanitiser's timer passes to `setState`. -/
def onTimer (s : State) : Option State :=
  match s.timers with
  | [] => none
  | (f, sanitizedText) :: rest => some ({ s with timers := rest }.setField f sanitizedText)

def onChangePhoneNumber (phoneNumber : Text) (s : State) : State :=
  let hasInput := phoneNumber.isEmpty
  { s with phoneNumber := phoneNumber, errorMessage := none, disableNext := hasInput }

/-! ### Pages -/

/-- `!text.length > 0` is `true` on the empty text only. -/
def goToNextPage (s : State) : State :=
  match s.currentPage with
  | 0 => { s with disableNext := s.castId.isEmpty, currentPage := 1 }
  | 1 =>
    let castId := dropHash s.castId
    { s with disableNext := s.password.isEmpty, reads := s.reads ++ [⟨castId, none, s.edition⟩] }
  | 2 => { s with currentPage := 3 }
  | 3 =>
    if !s.phoneSubmitted then { s with disableNext := s.phoneNumber.isEmpty, currentPage := 4 }
    else match s.verificationCode with
      | none => s -- `null.length` throws before any update
      | some code => { s with disableNext := code.isEmpty, currentPage := 4 }
  | page => { s with currentPage := page + 1 }

/-- The callback of the availability read: an existing `chatInfo` raises an alert, a missing one
turns the page the wizard is on by then. -/
def onAvailability (r : Read) (taken : Bool) (s : State) : State :=
  if taken then s
  else { s with
    currentPage := s.currentPage + 1, verified := (r.castId, r.edition) :: s.verified }

def goToPreviousPage (s : State) : State :=
  if s.currentPage = 4 then
    if s.phoneSubmitted then { s with phoneSubmitted := false }
    else { s with disableNext := false, currentPage := s.currentPage - 1 }
  else if s.currentPage ≠ 0 then
    { s with disableNext := false, currentPage := s.currentPage - 1 }
  else s

/-! ### Phone verification -/

def linkPhone (isValidNumber : Bool) (s : State) : State :=
  if !isValidNumber then { s with errorMessage := some "Invalid phone number" }
  else { s with attempts := s.attempts ++ [s.phoneNumber] }

/-- A missing `confirmResult`, a `verificationCode` that is `null` and a `currentUser` that is null
throw, and change nothing. -/
def confirmVerification (s : State) : State :=
  match s.confirmResult, s.verificationCode with
  | some confirmResult, some (c :: code) =>
    if s.signedIn then
      { s with links := s.links ++ [⟨confirmResult.verificationId, c :: code⟩] }
    else s
  | _, _ => s

/-- The alert about the error; one of the three has a button "Sign in". -/
def onLinkError (error : LinkError) (s : State) : State :=
  { s with offers := if error = .credentialAlreadyInUse then s.offers + 1 else s.offers }

/-- "Sign in" signs the user out; there is no `defaultState` that could be set then. -/
def signIn (s : State) : State := { s with signedIn := false, offers := s.offers - 1 }

inductive PhoneAuthState where
  | codeSent
  | error
  | autoVerifyTimeout
  | autoVerified (code : Option Text)
  deriving DecidableEq

/-- The observer of attempt `i`; the case of an error falls through to the one of a timeout. -/
def onStateChanged (i : ℕ) (s : State) : PhoneAuthState → State
  | .codeSent =>
    { s with phoneSubmitted := true, disableNext := true, confirmResult := some ⟨i, none⟩ }
  | .error => { s with phoneSubmitted := false }
  | .autoVerifyTimeout => s
  | .autoVerified code =>
    confirmVerification { s with confirmResult := some ⟨i, code⟩, verificationCode := code }

/-! ### The cast -/

/-- The writes of `createFeed`, which leaves the component's state as it is. It throws on the name
of a user who is signed out, after the first two. -/
def createFeed (newFeedId : Text) (s : State) : List Write :=
  let castId := dropHash s.castId
  let password := s.password
  let newFeed : ChatInfo :=
    { feedId := newFeedId
      owner := s.currentUser.uid
      feedName := s.feedName
      castType := s.castType
      castId := castId
      avatarUri := s.avatarUri
      startedAt := .serverTimestamp }
  let userObj : MemberRecord :=
    { userName := s.currentUser.displayName, avatar := none, password := some password }
  [.chatInfo castId newFeed, .password castId password] ++
    if s.signedIn then
      [.member castId s.currentUser.uid userObj, .myWedding s.currentUser.uid newFeed]
    else []

/-- The writes of `createFeed`, with what the record of the cast and that of the host hold. -/
lemma mem_createFeed_cases {newFeedId : Text} {s : State} {w : Write}
    (hw : w ∈ createFeed newFeedId s) :
    ∃ newFeed userObj, newFeed.castId = dropHash s.castId ∧ userObj.password = some s.password ∧
      (w = .chatInfo (dropHash s.castId) newFeed ∨ w = .password (dropHash s.castId) s.password ∨
        w = .member (dropHash s.castId) s.currentUser.uid userObj ∨
          w = .myWedding s.currentUser.uid newFeed) := by
  refine ⟨⟨newFeedId, s.currentUser.uid, s.feedName, s.castType, dropHash s.castId, s.avatarUri,
    .serverTimestamp⟩, ⟨s.currentUser.displayName, none, some s.password⟩, rfl, rfl, ?_⟩
  cases hin : s.signedIn with
  | true => simpa [createFeed, hin] using hw
  | false =>
    simp only [createFeed, hin, Bool.false_eq_true, if_false, List.append_nil, List.mem_cons,
      List.not_mem_nil, or_false] at hw
    exact hw.imp_right .inl

lemma castId?_of_mem_createFeed {newFeedId castId : Text} {s : State} {w : Write}
    (hw : w ∈ createFeed newFeedId s) (hc : w.castId? = some castId) :
    castId = dropHash s.castId := by
  obtain ⟨newFeed, userObj, -, -, rfl | rfl | rfl | rfl⟩ := mem_createFeed_cases hw
  · exact (Option.some.inj hc).symm
  · exact (Option.some.inj hc).symm
  · cases hc
  · cases hc

/-! ### Events -/

inductive Event where
  | changeText (f : Field) (text : Text)
  | timer
  | changePhoneNumber (phoneNumber : Text)
  | next
  | previous
  /-- The database answers the `i`-th pending read. -/
  | answer (i : ℕ) (taken : Bool)
  /-- The callback of the `i`-th pending read runs. -/
  | reply (i : ℕ)
  | readFailed (i : ℕ)
  | linkPhone (isValidNumber : Bool)
  | confirm
  | phoneAuth (i : ℕ) (st : PhoneAuthState)
  | finish (newFeedId : Text)
  | linked (i : ℕ) (newFeedId : Text)
  | linkFailed (i : ℕ) (error : LinkError)
  /-- "Sign in" on an alert. -/
  | signIn
  | returnData (avatarUri : Text)
  deriving DecidableEq

/-- The field's input is mounted. -/
def State.shows (s : State) : Field → Bool
  | .verificationCode => s.phoneSubmitted
  | _ => true

/-- The button of `goToNextPage` is rendered and not disabled. -/
def State.nextEnabled (s : State) : Bool :=
  if s.currentPage = 3 then s.isAnonymous
  else s.currentPage ≠ 4 && !s.disableNext

/-- The button of page 4 is rendered and not disabled. -/
def State.lastEnabled (s : State) : Bool := s.currentPage = 4 && !s.disableNext

def step (L : LowerCase) (s : State) : Event → Option State
  | .changeText f text => if s.shows f then some (onChangeText L f text s) else none
  | .timer => onTimer s
  | .changePhoneNumber n => if s.phoneSubmitted then none else some (onChangePhoneNumber n s)
  | .next => if s.nextEnabled then some (goToNextPage s) else none
  | .previous => if s.currentPage ≠ 0 then some (goToPreviousPage s) else none
  | .answer i taken =>
    match s.reads[i]? with
    | some ⟨castId, none, edition⟩ =>
      some { s with reads := s.reads.set i ⟨castId, some taken, edition⟩ }
    | _ => none
  | .reply i =>
    match s.reads[i]? with
    | some ⟨castId, some taken, edition⟩ =>
      some (onAvailability ⟨castId, some taken, edition⟩ taken
        { s with reads := s.reads.eraseIdx i })
    | _ => none
  | .readFailed i =>
    if i < s.reads.length then some { s with reads := s.reads.eraseIdx i } else none
  | .linkPhone valid =>
    if s.lastEnabled && !s.phoneSubmitted then some (CreateFeed.linkPhone valid s) else none
  | .confirm =>
    if s.lastEnabled && s.phoneSubmitted then some (confirmVerification s) else none
  | .phoneAuth i st => if i < s.attempts.length then some (onStateChanged i s st) else none
  | .finish _ => if s.currentPage = 3 && !s.isAnonymous then some s else none
  | .linked i _ =>
    if i < s.links.length then some { s with links := s.links.eraseIdx i } else none
  | .linkFailed i error =>
    if i < s.links.length then some (onLinkError error { s with links := s.links.eraseIdx i })
    else none
  | .signIn => if 0 < s.offers then some (CreateFeed.signIn s) else none
  | .returnData avatarUri => some { s with avatarUri := some avatarUri }

/-- The event runs `createFeed`, with the fresh id it draws. -/
def Event.newFeedId? : Event → Option Text
  | .finish newFeedId | .linked _ newFeedId => some newFeedId
  | _ => none

/-- The event is the database's. -/
def Event.isAnswer : Event → Bool
  | .answer _ _ => true
  | _ => false

/-! ### What a step does -/

variable {L : LowerCase}

lemma step_cases {s s' : State} {e : Event} (h : step L s e = some s') :
    match e with
    | .changeText f text => s.shows f ∧ s' = onChangeText L f text s
    | .timer => ∃ f t rest, s.timers = (f, t) :: rest ∧
        s' = State.setField { s with timers := rest } f t
    | .changePhoneNumber n => s.phoneSubmitted = false ∧ s' = onChangePhoneNumber n s
    | .next => s.nextEnabled ∧ s' = goToNextPage s
    | .previous => s.currentPage ≠ 0 ∧ s' = goToPreviousPage s
    | .answer i taken => ∃ castId edition, s.reads[i]? = some ⟨castId, none, edition⟩ ∧
        s' = { s with reads := s.reads.set i ⟨castId, some taken, edition⟩ }
    | .reply i => ∃ r taken, s.reads[i]? = some r ∧ r.answer = some taken ∧
        s' = onAvailability r taken { s with reads := s.reads.eraseIdx i }
    | .readFailed i => i < s.reads.length ∧ s' = { s with reads := s.reads.eraseIdx i }
    | .linkPhone valid => s.currentPage = 4 ∧ s.disableNext = false ∧ s.phoneSubmitted = false ∧
        s' = CreateFeed.linkPhone valid s
    | .confirm => s.currentPage = 4 ∧ s.disableNext = false ∧ s.phoneSubmitted ∧
        s' = confirmVerification s
    | .phoneAuth i st => i < s.attempts.length ∧ s' = onStateChanged i s st
    | .finish _ => s.currentPage = 3 ∧ s.isAnonymous = false ∧ s' = s
    | .linked i _ => s.links ≠ [] ∧ s' = { s with links := s.links.eraseIdx i }
    | .linkFailed i error =>
      s.links ≠ [] ∧ s' = onLinkError error { s with links := s.links.eraseIdx i }
    | .signIn => s' = CreateFeed.signIn s
    | .returnData avatarUri => s' = { s with avatarUri := some avatarUri } := by
  cases e with
  | timer =>
    simp only [step, onTimer] at h
    split at h
    · simp at h
    · rename_i f t rest heq
      exact ⟨f, t, rest, heq, by simpa using h.symm⟩
  | answer i taken =>
    simp only [step] at h
    split at h
    · rename_i castId edition hr
      exact ⟨castId, edition, hr, by simpa using h.symm⟩
    · simp at h
  | reply i =>
    simp only [step] at h
    split at h
    · rename_i castId taken edition hr
      exact ⟨_, taken, hr, rfl, by simpa using h.symm⟩
    · simp at h
  | returnData avatarUri => simpa [step] using h.symm
  | linked i _ | linkFailed i error =>
    simp only [step] at h
    split_ifs at h with hi
    cases h
    exact ⟨List.ne_nil_of_length_pos (by omega), rfl⟩
  | signIn =>
    simp only [step] at h
    split_ifs at h
    exact (Option.some.inj h).symm
  | changeText | changePhoneNumber | next | previous | readFailed | linkPhone | confirm | phoneAuth
  | finish =>
    simp only [step] at h
    split_ifs at h with hg
    cases h
    simpa [State.lastEnabled, and_assoc] using hg

/-! ### What a handler leaves alone

Each equation names the fields a handler may write; every other field is read off it. -/

lemma setField_frame (s : State) (f : Field) (t : Text) :
    s.setField f t = { s with
      feedName := (s.setField f t).feedName
      castId := (s.setField f t).castId
      password := (s.setField f t).password
      verificationCode := (s.setField f t).verificationCode
      edition := (s.setField f t).edition } := by
  cases f <;> rfl

lemma changeText_frame (f : Field) (san text : Text) (s : State) :
    changeText f san text s = { s with
      feedName := (changeText f san text s).feedName
      castId := (changeText f san text s).castId
      password := (changeText f san text s).password
      verificationCode := (changeText f san text s).verificationCode
      edition := (changeText f san text s).edition
      timers := (changeText f san text s).timers
      disableNext := text.isEmpty } := by
  unfold changeText
  split_ifs <;> cases f <;> rfl

/-- "Next" asks about the castId on page 1, and turns any other page unless it throws. -/
lemma goToNextPage_cases (s : State) :
    s.currentPage = 1 ∧ goToNextPage s = { s with
        disableNext := s.password.isEmpty
        reads := s.reads ++ [⟨dropHash s.castId, none, s.edition⟩] } ∨
      s.currentPage ≠ 1 ∧ (goToNextPage s = s ∨ ∃ disableNext, goToNextPage s =
        { s with disableNext, currentPage := s.currentPage + 1 }) := by
  unfold goToNextPage
  split
  · rename_i hp
    exact .inr ⟨by omega, .inr ⟨s.castId.isEmpty, by rw [hp]⟩⟩
  · rename_i hp
    exact .inl ⟨hp, rfl⟩
  · rename_i hp
    exact .inr ⟨by omega, .inr ⟨s.disableNext, by rw [hp]⟩⟩
  · rename_i hp
    split_ifs
    · exact .inr ⟨by omega, .inr ⟨s.phoneNumber.isEmpty, by rw [hp]⟩⟩
    · split
      · exact .inr ⟨by omega, .inl rfl⟩
      · rename_i code _
        exact .inr ⟨by omega, .inr ⟨code.isEmpty, by rw [hp]⟩⟩
  · rename_i hne _ _
    exact .inr ⟨hne, .inr ⟨s.disableNext, rfl⟩⟩

lemma goToNextPage_frame (s : State) : goToNextPage s = { s with
    currentPage := (goToNextPage s).currentPage
    disableNext := (goToNextPage s).disableNext
    reads := (goToNextPage s).reads } := by
  rcases goToNextPage_cases s with ⟨-, heq⟩ | ⟨-, heq | ⟨disableNext, heq⟩⟩ <;> rw [heq]

lemma goToPreviousPage_frame (s : State) : goToPreviousPage s = { s with
    currentPage := (goToPreviousPage s).currentPage
    disableNext := (goToPreviousPage s).disableNext
    phoneSubmitted := (goToPreviousPage s).phoneSubmitted } := by
  unfold goToPreviousPage
  split_ifs <;> rfl

lemma linkPhone_frame (isValidNumber : Bool) (s : State) : linkPhone isValidNumber s = { s with
    errorMessage := (linkPhone isValidNumber s).errorMessage
    attempts := (linkPhone isValidNumber s).attempts } := by
  unfold linkPhone
  split_ifs <;> rfl

/-- The account is linked with the code in the field, or nothing happens. -/
lemma confirmVerification_cases (s : State) :
    confirmVerification s = s ∨ ∃ r ∈ s.confirmResult, ∃ code, code ≠ [] ∧
      s.verificationCode = some code ∧ s.signedIn ∧
        confirmVerification s = { s with links := s.links ++ [⟨r.verificationId, code⟩] } := by
  unfold confirmVerification
  split
  · rename_i r c code hr hcode
    split_ifs with hin
    · exact .inr ⟨r, hr, c :: code, List.cons_ne_nil _ _, hcode, hin, rfl⟩
    · exact .inl rfl
  · exact .inl rfl

lemma confirmVerification_frame (s : State) :
    confirmVerification s = { s with links := (confirmVerification s).links } := by
  rcases confirmVerification_cases s with heq | ⟨_, -, _, -, -, -, heq⟩ <;> rw [heq]

end Wedcast.CreateFeed
