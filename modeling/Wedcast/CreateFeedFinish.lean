import Wedcast.CreateFeedFields

/-!
The way to the end of the wizard.

While the user is signed in, some taps and inputs on the page shown, with an answer of the database
and of the phone verification where one is asked for, lead to a `createFeed` that finds everything
in place and stores all of it. One state is left by a detour: a code that was verified without a
text leaves `null` as the code, and when the wizard is before page 4 by then, "Next" on page 3
throws. The only way onto page 4 is then to ask three times about the castId, and to be answered
three times.

A number that is linked to another account offers to sign in to that. It signs the user out and
leaves the wizard as it is, and nothing in the wizard signs a user in: from there on no way leads
to the end.
-/

namespace Wedcast.CreateFeed

open Runs

variable {L : LowerCase}

/-- What the user can do on the page shown to go on, and the answers: the text is typed into the
field of the page, and the latest verification attempt is the one that reports. -/
def Offered (s : State) : Event → Prop
  | .changeText f _ => f.page = s.currentPage
  | .changePhoneNumber _ => s.currentPage = 4
  | .phoneAuth i _ => i + 1 = s.attempts.length
  | .signIn => False
  | _ => True

/-- The next step runs `createFeed` with everything in place, up to its last write. -/
def Finishes (L : LowerCase) (s : State) : Prop :=
  ∃ e s' newFeedId, Offered s e ∧ step L s e = some s' ∧ e.newFeedId? = some newFeedId ∧ Ready s ∧
    ∃ feed, .myWedding s.currentUser.uid feed ∈ createFeed newFeedId s

/-- The last write is issued for a user who is signed in. -/
lemma myWedding_mem_createFeed (newFeedId : Text) (s : State) :
    (∃ feed, .myWedding s.currentUser.uid feed ∈ createFeed newFeedId s) ↔ s.signedIn = true := by
  cases hin : s.signedIn <;> simp [createFeed, hin]

/-- Only "Sign in" touches the user, and it signs out. -/
lemma signedIn_step {s s' : State} {e : Event} (hs : step L s e = some s') :
    s'.signedIn = s.signedIn ∨ e = .signIn ∧ s'.signedIn = false := by
  cases e with
  | signIn =>
    cases step_cases hs
    exact .inr ⟨rfl, rfl⟩
  | changeText f text =>
    obtain ⟨-, rfl⟩ := step_cases hs
    rw [onChangeText_eq, changeText_frame]
    exact .inl rfl
  | timer =>
    obtain ⟨f, t, rest, -, rfl⟩ := step_cases hs
    rw [setField_frame]
    exact .inl rfl
  | next =>
    obtain ⟨-, rfl⟩ := step_cases hs
    rw [goToNextPage_frame]
    exact .inl rfl
  | previous =>
    obtain ⟨-, rfl⟩ := step_cases hs
    rw [goToPreviousPage_frame]
    exact .inl rfl
  | answer i taken =>
    obtain ⟨castId, edition, -, rfl⟩ := step_cases hs
    exact .inl rfl
  | reply i =>
    obtain ⟨r, taken, -, -, rfl⟩ := step_cases hs
    cases taken <;> exact .inl rfl
  | linkPhone valid =>
    obtain ⟨-, -, -, rfl⟩ := step_cases hs
    rw [linkPhone_frame]
    exact .inl rfl
  | confirm =>
    obtain ⟨-, -, -, rfl⟩ := step_cases hs
    rw [confirmVerification_frame]
    exact .inl rfl
  | phoneAuth i st =>
    obtain ⟨-, rfl⟩ := step_cases hs
    cases st with
    | autoVerified code =>
      rw [onStateChanged, confirmVerification_frame]
      exact .inl rfl
    | codeSent | error | autoVerifyTimeout => exact .inl rfl
  | finish newFeedId =>
    obtain ⟨-, -, rfl⟩ := step_cases hs
    exact .inl rfl
  | changePhoneNumber n | readFailed i | linked i _ | linkFailed i _ =>
    obtain ⟨-, rfl⟩ := step_cases hs
    exact .inl rfl
  | returnData avatarUri =>
    cases step_cases hs
    exact .inl rfl

def stayingIn (L : LowerCase) : Invariant (step L) Offered where
  holds s := s.signedIn = true
  preserved hin ho hs := by
    rcases signedIn_step hs with hsame | ⟨rfl, -⟩
    · exact hsame.trans hin
    · exact absurd ho id

def stayingOut (L : LowerCase) : Invariant (step L) fun _ _ => True where
  holds s := s.signedIn = false
  preserved hout _ hs := by
    rcases signedIn_step hs with hsame | ⟨-, hgone⟩
    · exact hsame.trans hout
    · exact hgone

lemma signedIn_of_reaches {s t : State} (hin : s.signedIn = true)
    (h : Reaches (step L) Offered s t) : t.signedIn = true := by
  obtain ⟨es, hoffered, hrun⟩ := h
  exact (stayingIn L).of_run hin hoffered hrun

/-- Once signed out, nothing finishes. -/
lemma not_finishes_of_run {s t : State} {es : List Event} (hout : s.signedIn = false)
    (hrun : run (step L) s es = some t) : ¬Finishes L t := by
  rintro ⟨e, t', newFeedId, -, -, -, -, hfeed⟩
  have hin := (myWedding_mem_createFeed newFeedId t).mp hfeed
  have hstill : t.signedIn = false := (stayingOut L).of_run hout (along_true _ es) hrun
  simp [hin] at hstill

/-- A text that no sanitiser changes. -/
def sample : Text := txt ['a']

/-- The fields that are stored. -/
def State.stored (s : State) : Text × Text × Text := (s.feedName, s.castId, s.password)

/-- They hold the sample. -/
def Filled (s : State) : Prop := s.stored = (sample, sample, sample)

lemma Filled.ready {s : State} (h : Filled s) : Ready s := by
  obtain ⟨hname, hrest⟩ := Prod.mk.inj h
  obtain ⟨hcast, hpassword⟩ := Prod.mk.inj hrest
  rw [Ready, hname, hcast, hpassword]
  decide

/-- The sample is typed into the field of the page. -/
lemma step_type (hL : L.toLowerCase sample = sample) {s : State} {f : Field} (hshows : s.shows f) :
    step L s (.changeText f sample) = some { s.setField f sample with disableNext := false } := by
  have hclean : sanitize L f sample = sample := by
    have hfree : removeAll forbidden sample = sample := by decide
    have hname : removeAll forbiddenInName sample = sample := by decide
    cases f with
    | castId => rw [sanitize, hfree, hL]
    | feedName => exact hname
    | password | verificationCode => exact hfree
  rw [step, if_pos hshows, onChangeText_eq, hclean]
  simp [changeText, sample, txt]

/-! ### Back to the first page -/

/-- Going back leads to page 0; on the way a verification under way is given up. -/
lemma reaches_page_zero (s : State) :
    ∃ t, Reaches (step L) Offered s t ∧ t.currentPage = 0 := by
  refine Reaches.of_progress (fun s => 2 * s.currentPage + s.phoneSubmitted.toNat) (fun s => ?_) s
  by_cases hp : s.currentPage = 0
  · exact .inl hp
  · refine .inr ⟨.previous, goToPreviousPage s, trivial, by rw [step, if_pos hp], ?_⟩
    unfold goToPreviousPage
    split_ifs with h4 hsubmitted
    · simp [hsubmitted]
    · simp only [Bool.not_eq_true] at hsubmitted
      simp only [hsubmitted]
      omega
    · dsimp only
      omega

/-! ### The first three pages -/

/-- "Next" on a page with an enabled button. -/
lemma step_next {s : State} (hp : s.currentPage < 3) (hn : s.disableNext = false) :
    step L s .next = some (goToNextPage s) := by
  have hen : s.nextEnabled := by
    rw [State.nextEnabled, if_neg (by omega), hn]
    simp
    omega
  rw [step, if_pos hen]

/-- On page 0 the name is typed. -/
lemma reaches_named (hL : L.toLowerCase sample = sample) {s : State} (hp : s.currentPage = 0) :
    ∃ t, Reaches (step L) Offered s t ∧ t.currentPage = 1 ∧ t.isAnonymous = s.isAnonymous ∧
      t.feedName = sample := by
  have htype := step_type (s := s) (f := .feedName) hL rfl
  have hnext := step_next (L := L) (s := { s.setField .feedName sample with disableNext := false })
    (by simp [hp]) rfl
  rw [goToNextPage, setField_currentPage, hp] at hnext
  exact ⟨_, .head (e := .changeText .feedName sample) hp.symm htype
    (.single (e := .next) trivial hnext), rfl, rfl, rfl⟩

/-- On page 1 the castId is typed and asked about. -/
lemma reaches_asked (hL : L.toLowerCase sample = sample) {s : State} (hp : s.currentPage = 1) :
    ∃ r t, Reaches (step L) Offered s t ∧ r.answer = none ∧ t.reads = s.reads ++ [r] ∧
      t.currentPage = 1 ∧ t.isAnonymous = s.isAnonymous ∧
      t.stored = (s.feedName, sample, s.password) := by
  have htype := step_type (s := s) (f := .castId) hL rfl
  have hnext := step_next (L := L) (s := { s.setField .castId sample with disableNext := false })
    (by simp [hp]) rfl
  rw [goToNextPage, setField_currentPage, hp] at hnext
  exact ⟨_, _, .head (e := .changeText .castId sample) hp.symm htype
    (.single (e := .next) trivial hnext), rfl, rfl, rfl, rfl, rfl⟩

/-- A pending read is answered with a free castId, and the page turns. -/
lemma reaches_granted {s : State} {rs rest : List Read} {r : Read} (hreads : s.reads = rs ++ r :: rest)
    (hr : r.answer = none) :
    ∃ t, Reaches (step L) Offered s t ∧ t.reads = rs ++ rest ∧
      t.currentPage = s.currentPage + 1 ∧ t.isAnonymous = s.isAnonymous ∧ t.stored = s.stored := by
  obtain ⟨castId, answer, edition⟩ := r
  obtain rfl : answer = none := hr
  have hget : s.reads[rs.length]? = some ⟨castId, none, edition⟩ := by
    simp [hreads]
  have hanswer : step L s (.answer rs.length false) =
      some { s with reads := s.reads.set rs.length ⟨castId, some false, edition⟩ } := by
    simp only [step, hget]
  have hset : s.reads.set rs.length ⟨castId, some false, edition⟩ =
      rs ++ ⟨castId, some false, edition⟩ :: rest := by
    simp [hreads]
  have hreply : step L { s with reads := rs ++ ⟨castId, some false, edition⟩ :: rest }
      (.reply rs.length) = some { s with
        reads := rs ++ rest, currentPage := s.currentPage + 1,
        verified := (castId, edition) :: s.verified } := by
    simp [step, onAvailability, List.eraseIdx_append_of_length_le]
  rw [hset] at hanswer
  exact ⟨_, .head (e := .answer rs.length false) trivial hanswer
    (.single (e := .reply rs.length) trivial hreply), rfl, rfl, rfl, rfl⟩

/-- On page 2 the password is typed. -/
lemma reaches_protected (hL : L.toLowerCase sample = sample) {s : State} (hp : s.currentPage = 2) :
    ∃ t, Reaches (step L) Offered s t ∧ t.currentPage = 3 ∧ t.isAnonymous = s.isAnonymous ∧
      t.stored = (s.feedName, s.castId, sample) := by
  have htype := step_type (s := s) (f := .password) hL rfl
  have hnext := step_next (L := L) (s := { s.setField .password sample with disableNext := false })
    (by simp [hp]) rfl
  rw [goToNextPage, setField_currentPage, hp] at hnext
  exact ⟨_, .head (e := .changeText .password sample) hp.symm htype
    (.single (e := .next) trivial hnext), rfl, rfl, rfl⟩

lemma reaches_page_three (hL : L.toLowerCase sample = sample) (s : State) :
    ∃ t, Reaches (step L) Offered s t ∧ t.currentPage = 3 ∧ Filled t := by
  obtain ⟨s₀, hback, hp₀⟩ := reaches_page_zero (L := L) s
  obtain ⟨s₁, hnamed, hp₁, -, hname⟩ := reaches_named hL hp₀
  obtain ⟨r, s₂, hasked, hr, hreads, hp₂, -, hstored⟩ := reaches_asked hL hp₁
  obtain ⟨s₃, hgranted, -, hp₃, -, hstored₃⟩ := reaches_granted (L := L) hreads hr
  obtain ⟨s₄, hprotected, hp₄, -, hstored₄⟩ := reaches_protected hL (s := s₃) (by omega)
  refine ⟨s₄, ((hback.trans hnamed).trans hasked).trans (hgranted.trans hprotected), hp₄, ?_⟩
  have hfields : s₃.stored = (sample, sample, s₁.password) := by rw [hstored₃, hstored, hname]
  obtain ⟨hfeedName, hrest⟩ := Prod.mk.inj hfields
  rw [Filled, hstored₄, hfeedName, (Prod.mk.inj hrest).1]

/-! ### The page of the account -/

lemma Filled.asked (hL : L.toLowerCase sample = sample) {s : State} (h : Filled s)
    (hp : s.currentPage = 1) : ∃ r t, Reaches (step L) Offered s t ∧ r.answer = none ∧
      t.reads = s.reads ++ [r] ∧ t.currentPage = 1 ∧ Filled t := by
  obtain ⟨r, t, ht, hr, hreads, hp, -, hstored⟩ := reaches_asked hL hp
  obtain ⟨hname, hrest⟩ := Prod.mk.inj h
  exact ⟨r, t, ht, hr, hreads, hp, by rw [Filled, hstored, hname, (Prod.mk.inj hrest).2]⟩

lemma Filled.granted {s : State} (h : Filled s) {rs rest : List Read} {r : Read}
    (hreads : s.reads = rs ++ r :: rest) (hr : r.answer = none) :
    ∃ t, Reaches (step L) Offered s t ∧ t.reads = rs ++ rest ∧
      t.currentPage = s.currentPage + 1 ∧ Filled t := by
  obtain ⟨t, ht, hreads, hp, -, hstored⟩ := reaches_granted hreads hr
  exact ⟨t, ht, hreads, hp, hstored.trans h⟩

lemma Filled.back {s : State} (h : Filled s) {n : ℕ} (hp : s.currentPage = n + 1) (hn : n ≠ 3) :
    ∃ t, Reaches (step L) Offered s t ∧ t.currentPage = n ∧ Filled t := by
  have hstep : step L s .previous = some { s with disableNext := false, currentPage := n } := by
    simp [step, goToPreviousPage, hp, hn]
  exact ⟨_, .single (e := .previous) trivial hstep, rfl, h⟩

/-- Page 3 is left out: page 1 asks three times, and each answer turns a page. -/
lemma Filled.detour (hL : L.toLowerCase sample = sample) {s : State} (h : Filled s)
    (hp : s.currentPage = 3) :
    ∃ t, Reaches (step L) Offered s t ∧ t.currentPage = 4 ∧ Filled t := by
  obtain ⟨s₂, hto₂, hp₂, h₂⟩ := h.back (L := L) hp (by omega)
  obtain ⟨s₁, hto₁, hp₁, h₁⟩ := h₂.back (L := L) hp₂ (by omega)
  obtain ⟨r, a, hask, hr, hreads, hpa, ha⟩ := h₁.asked hL hp₁
  obtain ⟨r', b, hask', hr', hreads', hpb, hb⟩ := ha.asked hL hpa
  obtain ⟨r'', c, hask'', hr'', hreads'', hpc, hc⟩ := hb.asked hL hpb
  rw [hreads', hreads, List.append_assoc, List.append_assoc] at hreads''
  obtain ⟨d, hgrant, hreads, hpd, hd⟩ := hc.granted (L := L) hreads'' hr
  obtain ⟨e, hgrant', hreads, hpe, he⟩ := hd.granted (L := L) hreads hr'
  obtain ⟨t, hgrant'', -, hpt, ht⟩ := he.granted (L := L) hreads hr''
  have hasks := ((hto₂.trans hto₁).trans hask).trans (hask'.trans hask'')
  exact ⟨t, hasks.trans ((hgrant.trans hgrant').trans hgrant''), by omega, ht⟩

/-- The button of page 3 leads on, unless the code is null while it is asked for. -/
lemma Filled.next {s : State} (h : Filled s) (hp : s.currentPage = 3) (ha : s.isAnonymous)
    (hcode : s.phoneSubmitted → s.verificationCode ≠ none) :
    ∃ t, Reaches (step L) Offered s t ∧ t.currentPage = 4 ∧ Filled t := by
  have hstep : step L s .next = some (goToNextPage s) := if_pos (by rw [State.nextEnabled, if_pos hp, ha])
  rw [goToNextPage, hp] at hstep
  cases hsubmitted : s.phoneSubmitted with
  | false =>
    simp only [hsubmitted] at hstep
    exact ⟨_, .single (e := .next) trivial hstep, rfl, h⟩
  | true =>
    obtain ⟨code, hcode⟩ := Option.ne_none_iff_exists'.mp (hcode hsubmitted)
    simp only [hsubmitted, hcode] at hstep
    exact ⟨_, .single (e := .next) trivial hstep, rfl, h⟩

/-- On page 4 a number is verified and the account linked. -/
lemma Filled.verified (hL : L.toLowerCase sample = sample) {s : State} (h : Filled s)
    (hp : s.currentPage = 4) (hsubmitted : s.phoneSubmitted = false) (hin : s.signedIn = true) :
    ∃ t, Reaches (step L) Offered s t ∧ Finishes L t := by
  have hnumber : step L s (.changePhoneNumber sample) =
      some { s with phoneNumber := sample, errorMessage := none, disableNext := false } := by
    simp [step, hsubmitted, onChangePhoneNumber, sample, txt]
  have hlink : step L { s with phoneNumber := sample, errorMessage := none, disableNext := false }
      (.linkPhone true) = some { s with
        phoneNumber := sample, errorMessage := none, disableNext := false
        attempts := s.attempts ++ [sample] } := by
    simp [step, State.lastEnabled, hp, hsubmitted, CreateFeed.linkPhone]
  have hsent : step L { s with
        phoneNumber := sample, errorMessage := none, disableNext := false
        attempts := s.attempts ++ [sample] } (.phoneAuth s.attempts.length .codeSent) =
      some { s with
        phoneNumber := sample, errorMessage := none, attempts := s.attempts ++ [sample]
        phoneSubmitted := true, disableNext := true
        confirmResult := some ⟨s.attempts.length, none⟩ } := by
    simp [step, onStateChanged]
  have htype := step_type (L := L) (f := .verificationCode) hL (s := { s with
    phoneNumber := sample, errorMessage := none, attempts := s.attempts ++ [sample]
    phoneSubmitted := true, disableNext := true
    confirmResult := some ⟨s.attempts.length, none⟩ }) rfl
  have hconfirm : step L { s with
        phoneNumber := sample, errorMessage := none, attempts := s.attempts ++ [sample]
        phoneSubmitted := true, disableNext := false
        confirmResult := some ⟨s.attempts.length, none⟩, verificationCode := some sample } .confirm =
      some { s with
        phoneNumber := sample, errorMessage := none, attempts := s.attempts ++ [sample]
        phoneSubmitted := true, disableNext := false
        confirmResult := some ⟨s.attempts.length, none⟩, verificationCode := some sample
        links := s.links ++ [⟨s.attempts.length, sample⟩] } := by
    simp [step, State.lastEnabled, hp, hin, confirmVerification, sample, txt]
  refine ⟨_, .head (e := .changePhoneNumber sample) hp hnumber
    (.head (e := .linkPhone true) trivial hlink
      (.head (e := .phoneAuth s.attempts.length .codeSent) (by simp [Offered]) hsent
        (.head (e := .changeText .verificationCode sample) hp.symm htype
          (.single (e := .confirm) trivial hconfirm)))), ?_⟩
  exact ⟨.linked s.links.length sample, _, sample, trivial, if_pos (by simp), rfl, h.ready,
    (myWedding_mem_createFeed _ _).mpr hin⟩

lemma Filled.finishes (hL : L.toLowerCase sample = sample) {s : State} (h : Filled s)
    (hp : s.currentPage = 4) (hin : s.signedIn = true) :
    ∃ t, Reaches (step L) Offered s t ∧ Finishes L t := by
  cases hsubmitted : s.phoneSubmitted with
  | false => exact h.verified hL hp hsubmitted hin
  | true =>
    have hback : step L s .previous = some { s with phoneSubmitted := false } := by
      simp [step, goToPreviousPage, hp, hsubmitted]
    obtain ⟨t, ht, hfinishes⟩ :=
      Filled.verified (s := { s with phoneSubmitted := false }) hL h hp rfl hin
    exact ⟨t, .head (e := .previous) trivial hback ht, hfinishes⟩

lemma reaches_finishes (hL : L.toLowerCase sample = sample) {s : State}
    (hin : s.signedIn = true) : ∃ t, Reaches (step L) Offered s t ∧ Finishes L t := by
  obtain ⟨t, ht, hp, hfilled⟩ := reaches_page_three hL s
  have hint := signedIn_of_reaches hin ht
  cases ha : t.isAnonymous with
  | false =>
    refine ⟨t, ht, .finish sample, t, sample, trivial, ?_, rfl, hfilled.ready,
      (myWedding_mem_createFeed _ _).mpr hint⟩
    simp [step, hp, ha]
  | true =>
    have hfour : ∃ u, Reaches (step L) Offered t u ∧ u.currentPage = 4 ∧ Filled u := by
      by_cases hcode : t.phoneSubmitted → t.verificationCode ≠ none
      · exact hfilled.next hp ha hcode
      · exact hfilled.detour hL hp
    obtain ⟨u, hu, hpu, hfilledu⟩ := hfour
    obtain ⟨v, hv, hfinishes⟩ := hfilledu.finishes hL hpu (signedIn_of_reaches hint hu)
    exact ⟨v, (ht.trans hu).trans hv, hfinishes⟩

/-- The wizard of an anonymous user on page 3, with a null code behind a late report. -/
def nullCode : State :=
  { mount { host with isAnonymous := true } with
    currentPage := 3, phoneSubmitted := true, verificationCode := none }

example : step asciiLowerCase nullCode .next = some nullCode := by decide

/-- The same user on page 4, with the code of the message entered. -/
def codeEntered : State :=
  { mount { host with isAnonymous := true } with
    currentPage := 4, phoneSubmitted := true, disableNext := false
    confirmResult := some ⟨0, none⟩, verificationCode := some sample, attempts := [sample] }

/-- The number turns out to be linked to another account, and the user signs in to that. -/
def signInElsewhere : List Event := [.confirm, .linkFailed 0 .credentialAlreadyInUse, .signIn]

end Wedcast.CreateFeed
