import Wedcast.CreateFeedFields

/-!
Which castId `createFeed` writes under.

A read of `chatInfo` is issued for the castId of its moment, and its callback turns whatever page
the wizard is on by then. The castId written is the one that was checked as long as no reply turns
page 1 after the castId has changed, and the castId does not change behind the wizard's back.
-/

namespace Wedcast.CreateFeed

open Runs

variable {L : LowerCase}

/-- A read of the castId found no `chatInfo`, and was issued after the castId's last change. -/
def Verified (s : State) : Prop := (dropHash s.castId, s.edition) ∈ s.verified

/-- What the wizard promises of a step: `createFeed` writes under a castId found free. -/
def CheckedToCreate (s : State) (e : Event) : Prop :=
  ∀ newFeedId ∈ e.newFeedId?, Verified s ∧
    ∀ w ∈ createFeed newFeedId s, ∀ castId ∈ w.castId?, castId = dropHash s.castId

instance (s : State) : Decidable (Verified s) := inferInstanceAs (Decidable (_ ∈ _))

instance (s : State) (e : Event) : Decidable (CheckedToCreate s e) :=
  inferInstanceAs (Decidable (∀ newFeedId ∈ _, _ ∧ _))

/-- The steps that keep the check and the castId together. Behind the wizard the castId does not
change; a reply that turns page 1, and a number verified automatically, find it checked. -/
def Unchanged (s : State) : Event → Prop
  | .changeText f _ => f = .castId → ¬s.Behind .castId
  | .timer => ∀ x ∈ s.timers.head?, x.1 = .castId → s.Behind .castId → x.2 = s.castId
  | .reply i => s.currentPage = 1 → ∀ r ∈ s.reads[i]?, r.answer = some false →
      r.edition = s.edition ∨ Verified s
  | .phoneAuth _ (.autoVerified (some (_ :: _))) => Verified s
  | _ => True

instance (s : State) : (e : Event) → Decidable (Unchanged s e)
  | .changeText _ _ => inferInstanceAs (Decidable (_ → _))
  | .timer => inferInstanceAs (Decidable (∀ x ∈ s.timers.head?, _))
  | .reply _ => inferInstanceAs (Decidable (_ → ∀ r ∈ _, _))
  | .phoneAuth _ (.autoVerified (some (_ :: _))) => inferInstanceAs (Decidable (Verified s))
  | .phoneAuth _ (.autoVerified (some [])) | .phoneAuth _ (.autoVerified none)
  | .phoneAuth _ .codeSent | .phoneAuth _ .error | .phoneAuth _ .autoVerifyTimeout
  | .next | .previous | .answer _ _ | .readFailed _ | .linkPhone _ | .confirm
  | .finish _ | .linked _ _ | .linkFailed _ _ | .signIn | .returnData _
  | .changePhoneNumber _ => isTrue trivial

/-- A read of the current edition asks about the current castId, and past page 1 that castId has
been found free. -/
structure Checked (s : State) : Prop where
  reads_le : ∀ r ∈ s.reads, r.edition ≤ s.edition
  reads_castId : ∀ r ∈ s.reads, r.edition = s.edition → r.castId = dropHash s.castId
  verified : s.Behind .castId → Verified s

lemma checked_mount (u : User) : Checked (mount u) where
  reads_le := by simp [mount]
  reads_castId := by simp [mount]
  verified := by simp [mount, State.Behind]

/-- Updates that leave the castId, add no read and do not get past page 1. -/
lemma Checked.congr {s s' : State} (h : Checked s) (hcast : s'.castId = s.castId)
    (hed : s'.edition = s.edition)
    (hreads : ∀ r ∈ s'.reads, ∃ r' ∈ s.reads, r'.castId = r.castId ∧ r'.edition = r.edition)
    (hver : s.verified ⊆ s'.verified) (hbehind : s'.Behind .castId → s.Behind .castId) :
    Checked s' where
  reads_le r hr := by
    obtain ⟨r', hr', -, he⟩ := hreads r hr
    rw [hed, ← he]
    exact h.reads_le r' hr'
  reads_castId r hr hre := by
    obtain ⟨r', hr', hc, he⟩ := hreads r hr
    rw [hcast, ← hc]
    exact h.reads_castId r' hr' (by rw [he, hre, hed])
  verified hb := by
    rw [Verified, hcast, hed]
    exact hver (h.verified (hbehind hb))

lemma keep_reads {s : State} : ∀ r ∈ s.reads, ∃ r' ∈ s.reads, r'.castId = r.castId ∧
    r'.edition = r.edition := fun r hr => ⟨r, hr, rfl, rfl⟩

lemma erase_reads {s : State} (i : ℕ) : ∀ r ∈ s.reads.eraseIdx i, ∃ r' ∈ s.reads,
    r'.castId = r.castId ∧ r'.edition = r.edition :=
  fun r hr => ⟨r, List.mem_of_mem_eraseIdx hr, rfl, rfl⟩

/-- Storing a text: the castId does not change behind the wizard. -/
lemma Checked.setField {s : State} (h : Checked s) (f : Field) (t : Text)
    (hkeep : f = .castId → s.Behind .castId → t = s.castId) : Checked (s.setField f t) := by
  cases f with
  | castId =>
    by_cases ht : t = s.castId
    · have hs : s.setField .castId t = s := by simp [State.setField, ht]
      rw [hs]
      exact h
    · refine ⟨?_, ?_, fun hb => absurd (hkeep rfl hb) ht⟩
      · intro r hr
        have := h.reads_le r hr
        simp only [State.setField, ht, if_false]
        omega
      · intro r hr hre
        have := h.reads_le r hr
        simp only [State.setField, ht, if_false] at hre
        omega
  | feedName | password | verificationCode =>
    exact h.congr rfl rfl keep_reads (List.Subset.refl _) id

lemma Checked.changeText {s : State} (h : Checked s) (f : Field) (text : Text)
    (hnot : f = .castId → ¬s.Behind .castId) : Checked (onChangeText L f text s) := by
  have hset : ∀ t, Checked (s.setField f t) := fun t =>
    h.setField f t fun hf hb => absurd hb (hnot hf)
  rw [onChangeText_eq]
  unfold CreateFeed.changeText
  split_ifs
  · exact (hset _).congr rfl rfl keep_reads (List.Subset.refl _) id
  · exact (hset _).congr rfl rfl keep_reads (List.Subset.refl _) id

lemma Checked.timer {s : State} (h : Checked s) {f : Field} {t : Text}
    {rest : List (Field × Text)} (hkeep : f = .castId → s.Behind .castId → t = s.castId) :
    Checked (State.setField { s with timers := rest } f t) := by
  have hrest : Checked { s with timers := rest } :=
    h.congr rfl rfl keep_reads (List.Subset.refl _) id
  exact hrest.setField f t hkeep

lemma Checked.next {s : State} (h : Checked s) : Checked (goToNextPage s) := by
  rcases goToNextPage_cases s with ⟨-, heq⟩ | ⟨hp, heq | ⟨disableNext, heq⟩⟩
  · rw [heq]
    refine ⟨?_, ?_, fun hb => h.verified hb⟩
    · intro r hr
      rcases List.mem_append.mp hr with hr | hr
      · exact h.reads_le r hr
      · simp only [List.mem_singleton] at hr
        simp [hr]
    · intro r hr hre
      rcases List.mem_append.mp hr with hr | hr
      · exact h.reads_castId r hr hre
      · simp only [List.mem_singleton] at hr
        simp [hr]
  · rwa [heq]
  · -- page 0 is turned to page 1, where nothing is behind yet
    rw [heq]
    refine h.congr rfl rfl keep_reads (List.Subset.refl _) fun hb => hb.imp_left fun hlt => ?_
    simp only [Field.page] at hlt ⊢
    omega

lemma Checked.previous {s : State} (h : Checked s) : Checked (goToPreviousPage s) := by
  have hback : 1 < s.currentPage - 1 ∨ s.links ≠ [] → s.Behind .castId := fun hb =>
    hb.imp_left fun hlt => by simp only [Field.page]; omega
  unfold goToPreviousPage
  split_ifs
  · exact h.congr rfl rfl keep_reads (List.Subset.refl _) id
  · exact h.congr rfl rfl keep_reads (List.Subset.refl _) hback
  · exact h.congr rfl rfl keep_reads (List.Subset.refl _) hback
  · exact h

lemma Checked.confirm {s : State} (h : Checked s) (hv : Verified s) :
    Checked (confirmVerification s) := by
  rcases confirmVerification_cases s with heq | ⟨_, -, _, -, -, -, heq⟩ <;> rw [heq]
  · exact h
  · exact ⟨h.reads_le, h.reads_castId, fun _ => hv⟩

/-- A reply found free: on page 1 it must be of the current edition, or not needed. -/
lemma Checked.reply {s : State} (h : Checked s) {i : ℕ} {r : Read} (hr : s.reads[i]? = some r)
    (hcur : s.currentPage = 1 → r.edition = s.edition ∨ Verified s) :
    Checked (onAvailability r false { s with reads := s.reads.eraseIdx i }) := by
  have hmem : r ∈ s.reads := List.mem_of_getElem? hr
  refine ⟨?_, ?_, ?_⟩
  · exact fun r' hr' => h.reads_le r' (List.mem_of_mem_eraseIdx hr')
  · exact fun r' hr' => h.reads_castId r' (List.mem_of_mem_eraseIdx hr')
  · intro hb
    change (dropHash s.castId, s.edition) ∈ (r.castId, r.edition) :: s.verified
    have hcases : r.edition = s.edition ∨ Verified s := by
      rcases hb with hlt | hl
      · replace hlt : 1 < s.currentPage + 1 := hlt
        by_cases hp : s.currentPage = 1
        · exact hcur hp
        · exact .inr (h.verified (.inl (by simp only [Field.page]; omega)))
      · exact .inr (h.verified (.inr hl))
    rcases hcases with hre | hv
    · rw [hre, h.reads_castId r hmem hre]
      exact List.mem_cons_self
    · exact List.mem_cons_of_mem _ hv

/-- One step that keeps the check and the castId together. -/
lemma checked_step {s s' : State} {e : Event} (h : Checked s) (hu : Unchanged s e)
    (hs : step L s e = some s') : Checked s' := by
  cases e with
  | changeText f text =>
    obtain ⟨-, rfl⟩ := step_cases hs
    exact h.changeText f text hu
  | timer =>
    obtain ⟨f, t, rest, heq, rfl⟩ := step_cases hs
    exact h.timer (hu (f, t) (by simp [heq]))
  | changePhoneNumber n =>
    obtain ⟨-, rfl⟩ := step_cases hs
    exact h.congr rfl rfl keep_reads (List.Subset.refl _) id
  | next =>
    obtain ⟨-, rfl⟩ := step_cases hs
    exact h.next
  | previous =>
    obtain ⟨-, rfl⟩ := step_cases hs
    exact h.previous
  | answer i taken =>
    obtain ⟨castId, edition, hr, rfl⟩ := step_cases hs
    refine h.congr rfl rfl ?_ (List.Subset.refl _) id
    intro r' hr'
    rcases List.mem_or_eq_of_mem_set hr' with hr' | rfl
    · exact ⟨r', hr', rfl, rfl⟩
    · exact ⟨_, List.mem_of_getElem? hr, rfl, rfl⟩
  | reply i =>
    obtain ⟨r, taken, hr, hans, rfl⟩ := step_cases hs
    cases taken with
    | true => exact h.congr rfl rfl (erase_reads i) (List.Subset.refl _) id
    | false => exact h.reply hr fun hp => hu hp r hr hans
  | readFailed i =>
    obtain ⟨-, rfl⟩ := step_cases hs
    exact h.congr rfl rfl (erase_reads i) (List.Subset.refl _) id
  | linkPhone valid =>
    obtain ⟨-, -, -, rfl⟩ := step_cases hs
    rw [linkPhone_frame]
    exact h.congr rfl rfl keep_reads (List.Subset.refl _) id
  | confirm =>
    obtain ⟨hp, -, -, rfl⟩ := step_cases hs
    exact h.confirm (h.verified (behind_of_page (by omega) .castId (by decide)))
  | phoneAuth i st =>
    obtain ⟨-, rfl⟩ := step_cases hs
    cases st with
    | codeSent | error => exact h.congr rfl rfl keep_reads (List.Subset.refl _) id
    | autoVerifyTimeout => exact h
    | autoVerified code =>
      have hset : Checked { s with confirmResult := some ⟨i, code⟩, verificationCode := code } :=
        h.congr rfl rfl keep_reads (List.Subset.refl _) id
      cases code with
      | none => exact hset
      | some code =>
        cases code with
        | nil => exact hset
        | cons c code => exact hset.confirm hu
  | finish newFeedId =>
    obtain ⟨-, -, rfl⟩ := step_cases hs
    exact h
  | linked i newFeedId | linkFailed i error =>
    obtain ⟨hi, rfl⟩ := step_cases hs
    exact h.congr rfl rfl keep_reads (List.Subset.refl _) fun hb => hb.imp_right fun _ => hi
  | signIn | returnData avatarUri =>
    cases step_cases hs
    exact h.congr rfl rfl keep_reads (List.Subset.refl _) id

def checking (L : LowerCase) : Invariant (step L) Unchanged where
  holds := Checked
  preserved := checked_step

/-- **The castId written is the one checked.** On a run whose steps keep the check and the castId
together, `createFeed` writes under a castId found free since its last change. -/
theorem createFeed_checked_of_unchanged (L : LowerCase) (u : User) (es : List Event)
    (h : Along (step L) Unchanged (mount u) es) :
    Along (step L) CheckedToCreate (mount u) es := by
  refine (checking L).along (fun s e s' hs _ hstep newFeedId hid => ?_) (checked_mount u) h
  have hbehind := behind_of_newFeedId hstep (Option.isSome_of_mem hid) .castId (by decide)
  exact ⟨hs.verified hbehind, fun w hw castId hc => castId?_of_mem_createFeed hw hc⟩

theorem createFeed_checked_of_unchanged_orderly :
    (run (step asciiLowerCase) (mount host) orderlyRun).isSome ∧
      Along (step asciiLowerCase) CheckedToCreate (mount host) orderlyRun :=
  ⟨by decide, createFeed_checked_of_unchanged asciiLowerCase host orderlyRun (by decide)⟩

/-- The castId `a` is checked, and `b` is typed before the reply turns the page. -/
def editedCastIdRun : List Event :=
  [.changeText .feedName (txt ['A']), .next,
    .changeText .castId (txt ['a']), .next, .answer 0 false,
    .changeText .castId (txt ['b']), .reply 0,
    .changeText .password (txt ['p']), .next, .finish (txt ['i', 'd'])]

/-- **An unchecked castId is written.** The reply does not look at the field again. -/
theorem createFeed_not_always_checked :
    ¬∀ (L : LowerCase) (u : User) (es : List Event),
      Along (step L) CheckedToCreate (mount u) es := by
  intro h
  have hrun := h asciiLowerCase host editedCastIdRun
  revert hrun
  decide

end Wedcast.CreateFeed
