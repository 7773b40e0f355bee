import Wedcast.CreateFeed

/-!
What the wizard's fields hold when `createFeed` runs.

The button of a page is disabled by a flag computed from the raw text of whatever was typed last,
while the sanitised text of the page's field is what gets stored. The flag protects the field as
long as no text is emptied by its sanitiser, no other input enables the button of a page whose
field is empty, and no field is emptied behind the wizard's back.
-/

namespace Wedcast.CreateFeed

open Runs

variable {L : LowerCase}

/-! ### The fields under updates -/

/-- The sanitiser of the field. -/
def sanitize (L : LowerCase) : Field → Text → Text
  | .feedName, text => removeAll forbiddenInName text
  | .castId, text => L.toLowerCase (removeAll forbidden text)
  | .password, text => removeAll forbidden text
  | .verificationCode, text => removeAll forbidden text

/-- The characters the sanitiser of the field strips. -/
def Field.strips : Field → Text
  | .feedName => forbiddenInName
  | _ => forbidden

/-- The page that shows the field. -/
def Field.page : Field → ℕ
  | .feedName => 0
  | .castId => 1
  | .password => 2
  | .verificationCode => 4

lemma onChangeText_eq (f : Field) (text : Text) (s : State) :
    onChangeText L f text s = changeText f (sanitize L f text) text s := by
  cases f <;> rfl

lemma free_sanitize (f : Field) (text : Text) : Free f.strips (sanitize L f text) := by
  cases f with
  | castId => exact L.free (free_removeAll _ _)
  | feedName | password | verificationCode => exact free_removeAll _ _

@[simp] lemma setField_field (s : State) (f g : Field) (t : Text) :
    (s.setField f t).field g = if g = f then t else s.field g := by
  cases f <;> cases g <;> simp [State.setField, State.field]

@[simp] lemma setField_currentPage (s : State) (f : Field) (t : Text) :
    (s.setField f t).currentPage = s.currentPage := by cases f <;> rfl

@[simp] lemma setField_disableNext (s : State) (f : Field) (t : Text) :
    (s.setField f t).disableNext = s.disableNext := by cases f <;> rfl

@[simp] lemma setField_timers (s : State) (f : Field) (t : Text) :
    (s.setField f t).timers = s.timers := by cases f <;> rfl

@[simp] lemma setField_links (s : State) (f : Field) (t : Text) :
    (s.setField f t).links = s.links := by cases f <;> rfl

lemma field_with (s : State) (ts : List (Field × Text)) (b : Bool) (g : Field) :
    State.field { s with timers := ts, disableNext := b } g = s.field g := by cases g <;> rfl

@[simp] lemma changeText_field (f g : Field) (san text : Text) (s : State) :
    (changeText f san text s).field g =
      if g = f then (if san ≠ text then san ++ [ch ' '] else san) else s.field g := by
  unfold changeText
  by_cases h : san = text
  · simp only [h, ne_eq, not_true_eq_false, if_false]
    exact (field_with _ (s.setField f text).timers _ g).trans (setField_field s f g text)
  · simp only [h, ne_eq, not_false_eq_true, if_true]
    exact (field_with _ _ _ g).trans (setField_field s f g _)

@[simp] lemma changeText_timers (f : Field) (san text : Text) (s : State) :
    (changeText f san text s).timers = s.timers ++ (if san ≠ text then [(f, san)] else []) := by
  unfold changeText
  by_cases h : san = text <;> simp [h]

@[simp] lemma changeText_currentPage (f : Field) (san text : Text) (s : State) :
    (changeText f san text s).currentPage = s.currentPage := by rw [changeText_frame]

@[simp] lemma changeText_links (f : Field) (san text : Text) (s : State) :
    (changeText f san text s).links = s.links := by rw [changeText_frame]

@[simp] lemma changeText_disableNext (f : Field) (san text : Text) (s : State) :
    (changeText f san text s).disableNext = text.isEmpty := rfl

/-- Two states that store the same three fields. -/
lemma field_congr {s s' : State} (hname : s'.feedName = s.feedName) (hcast : s'.castId = s.castId)
    (hpass : s'.password = s.password) : ∀ f ≠ .verificationCode, s'.field f = s.field f := by
  intro f hf
  cases f with
  | feedName => exact hname
  | castId => exact hcast
  | password => exact hpass
  | verificationCode => exact absurd rfl hf

/-! ### What `createFeed` needs, and the runs that provide it -/

/-- The fields `createFeed` stores: not empty, and without the characters stripped from them. -/
def Ready (s : State) : Prop :=
  (s.feedName ≠ [] ∧ Free forbiddenInName s.feedName) ∧
    (s.castId ≠ [] ∧ Free forbidden s.castId) ∧ s.password ≠ [] ∧ Free forbidden s.password

/-- One non-empty segment of a database path. -/
def PathSegment (key : Text) : Prop := key ≠ [] ∧ ch '/' ∉ key

instance (s : State) : Decidable (Ready s) := inferInstanceAs (Decidable ((_ ∧ _) ∧ (_ ∧ _) ∧ _))

instance (key : Text) : Decidable (PathSegment key) := inferInstanceAs (Decidable (_ ∧ _))

/-- What the wizard promises of a step: when it runs `createFeed`, the fields are ready. -/
def ReadyToCreate (s : State) (e : Event) : Prop :=
  e.newFeedId?.isSome → Ready s ∧ PathSegment (dropHash s.castId)

instance (s : State) (e : Event) : Decidable (ReadyToCreate s e) :=
  inferInstanceAs (Decidable (_ → _))

/-- The field of the page is filled, if it is one of those that are stored. -/
def State.FilledAt (s : State) (page : ℕ) : Prop :=
  ∀ f ≠ .verificationCode, f.page = page → s.field f ≠ []

/-- The wizard is past the page of the field, or is about to store it. -/
def State.Behind (s : State) (f : Field) : Prop := f.page < s.currentPage ∨ s.links ≠ []

/-- No timer of the current page's field is pending. -/
def Settled (s : State) : Prop :=
  ∀ x ∈ s.timers, x.1 ≠ .verificationCode → x.1.page ≠ s.currentPage

/-- The fields that are stored are filled, and none of their timers is pending. -/
def Complete (s : State) : Prop :=
  (∀ f ≠ .verificationCode, s.field f ≠ []) ∧ ∀ x ∈ s.timers, x.1 = .verificationCode

instance (s : State) (page : ℕ) : Decidable (s.FilledAt page) :=
  decidable_of_iff ((0 = page → s.feedName ≠ []) ∧ (1 = page → s.castId ≠ []) ∧
      (2 = page → s.password ≠ []))
    ⟨fun h f hf => by cases f <;> simp_all [Field.page, State.field],
      fun h => ⟨h .feedName (by decide), h .castId (by decide), h .password (by decide)⟩⟩

instance (s : State) (f : Field) : Decidable (s.Behind f) := inferInstanceAs (Decidable (_ ∨ _))

instance (s : State) : Decidable (Settled s) := inferInstanceAs (Decidable (∀ x ∈ s.timers, _))

instance (s : State) : Decidable (Complete s) :=
  decidable_of_iff ((s.feedName ≠ [] ∧ s.castId ≠ [] ∧ s.password ≠ []) ∧
      ∀ x ∈ s.timers, x.1 = .verificationCode) (and_congr_left' ⟨fun h f hf => by
        cases f <;> simp_all [State.field],
      fun h => ⟨h .feedName (by decide), h .castId (by decide), h .password (by decide)⟩⟩)

/-- The steps the flag is right about. A text is not emptied by its sanitiser; behind the wizard it
is neither empty nor dirty; on a page whose field is empty no other input is filled. A page is left
once its field is filled and settled, and the flag is right about the next one. A number is verified
automatically when everything is in place. -/
def Careful (L : LowerCase) (s : State) : Event → Prop
  | .changeText f text =>
    (f ≠ .verificationCode → (text = [] → ¬s.Behind f) ∧ (text ≠ [] → sanitize L f text ≠ []) ∧
      (s.Behind f → sanitize L f text = text)) ∧
    (text ≠ [] → f.page ≠ s.currentPage → s.FilledAt s.currentPage)
  | .changePhoneNumber n => n ≠ [] → s.FilledAt s.currentPage
  | .next => s.currentPage ≠ 1 → Settled s
  | .reply i =>
    s.reads[i]?.bind Read.answer = some true ∨ Settled s ∧ s.FilledAt s.currentPage ∧
      (s.disableNext = false → s.FilledAt (s.currentPage + 1))
  | .phoneAuth _ (.autoVerified (some (_ :: _))) => Complete s
  | _ => True

instance (s : State) : (e : Event) → Decidable (Careful L s e)
  | .changeText _ _ => inferInstanceAs (Decidable ((_ → (_ → _) ∧ (_ → _) ∧ (_ → _)) ∧ (_ → _ → _)))
  | .changePhoneNumber _ => inferInstanceAs (Decidable (_ → _))
  | .next => inferInstanceAs (Decidable (_ → Settled s))
  | .reply _ => inferInstanceAs (Decidable (_ ∨ Settled s ∧ _ ∧ (_ → _)))
  | .phoneAuth _ (.autoVerified (some (_ :: _))) => inferInstanceAs (Decidable (Complete s))
  | .phoneAuth _ (.autoVerified (some [])) | .phoneAuth _ (.autoVerified none)
  | .phoneAuth _ .codeSent | .phoneAuth _ .error | .phoneAuth _ .autoVerifyTimeout
  | .timer | .previous | .answer _ _ | .readFailed _ | .linkPhone _ | .confirm
  | .finish _ | .linked _ _ | .linkFailed _ _ | .signIn | .returnData _ => isTrue trivial

/-- What holds of the wizard along careful steps, for the three fields that are stored. -/
structure Sound (s : State) : Prop where
  clean : ∀ f ≠ .verificationCode, Free f.strips (s.field f) ∨ ∃ t, (f, t) ∈ s.timers
  timers_ahead : ∀ x ∈ s.timers, x.1 ≠ .verificationCode → ¬s.Behind x.1
  timers_clean : ∀ x ∈ s.timers, x.1 ≠ .verificationCode → x.2 ≠ [] ∧ Free x.1.strips x.2
  filled : ∀ f ≠ .verificationCode, s.Behind f → s.field f ≠ []
  flag : s.disableNext = false → s.FilledAt s.currentPage

lemma page_injective : Function.Injective Field.page := by
  intro f g h
  cases f <;> cases g <;> simp_all [Field.page]

/-- From page 3 on the wizard is past every page with a field that is stored. -/
lemma behind_of_page {s : State} (hp : 3 ≤ s.currentPage) :
    ∀ f ≠ .verificationCode, s.Behind f := by
  intro f hf
  have hlt : f.page < 3 := by cases f <;> simp_all [Field.page]
  exact .inl (by omega)

/-- `createFeed` runs behind every field. -/
lemma behind_of_newFeedId {s s' : State} {e : Event} (hs : step L s e = some s')
    (hid : e.newFeedId?.isSome) : ∀ f ≠ .verificationCode, s.Behind f := by
  cases e with
  | finish newFeedId =>
    obtain ⟨hp, -⟩ := step_cases hs
    exact behind_of_page (by omega)
  | linked i newFeedId =>
    obtain ⟨hl, -⟩ := step_cases hs
    exact fun _ _ => .inr hl
  | _ => simp [Event.newFeedId?] at hid

lemma sound_mount (u : User) : Sound (mount u) where
  clean f hf := by cases f <;> simp_all [mount, State.field]
  timers_ahead := by simp [mount]
  timers_clean := by simp [mount]
  filled := by simp [mount, State.Behind]
  flag := by simp [mount]

/-- Updates that leave the page, the fields and the timers, and do not clear the flag. -/
lemma Sound.congr {s s' : State} (h : Sound s) (hpage : s'.currentPage = s.currentPage)
    (hfield : ∀ f ≠ .verificationCode, s'.field f = s.field f) (htimers : s'.timers = s.timers)
    (hlinks : s'.links ≠ [] → s.links ≠ [])
    (hflag : s'.disableNext = false → s.FilledAt s.currentPage) : Sound s' where
  clean f hf := by rw [hfield f hf, htimers]; exact h.clean f hf
  timers_ahead x hx hv := by
    rintro (hlt | hne)
    · exact h.timers_ahead x (htimers ▸ hx) hv (.inl (hpage ▸ hlt))
    · exact h.timers_ahead x (htimers ▸ hx) hv (.inr (hlinks hne))
  timers_clean := by rw [htimers]; exact h.timers_clean
  filled f hf hb := by
    rw [hfield f hf]
    refine h.filled f hf (hb.imp ?_ hlinks)
    rw [hpage]
    exact id
  flag hn f hf hp := by rw [hfield f hf]; exact hflag hn f hf (hp.trans hpage)

lemma Sound.changeText {s : State} (h : Sound s) {f : Field} {text : Text}
    (hc : Careful L s (.changeText f text)) : Sound (onChangeText L f text s) := by
  obtain ⟨htext, hpage⟩ := hc
  have hbehind : ∀ g, (CreateFeed.changeText f (sanitize L f text) text s).Behind g ↔
      s.Behind g := fun g => by
    simp [State.Behind]
  rw [onChangeText_eq]
  refine ⟨?_, ?_, ?_, ?_, ?_⟩
  · intro g hg
    by_cases hgf : g = f
    · subst hgf
      by_cases hdirty : sanitize L g text = text
      · left
        have hfree := free_sanitize (L := L) g text
        simpa [hdirty] using hdirty ▸ hfree
      · exact .inr ⟨sanitize L g text, by simp [hdirty]⟩
    · rcases h.clean g hg with hc | ⟨t, ht⟩
      · exact .inl (by simpa [hgf] using hc)
      · exact .inr ⟨t, by simp [ht]⟩
  · intro x hx hxv
    rw [changeText_timers, List.mem_append] at hx
    rw [hbehind]
    rcases hx with hx | hx
    · exact h.timers_ahead x hx hxv
    · split_ifs at hx with hdirty
      · obtain rfl : x = (f, sanitize L f text) := by simpa using hx
        exact fun hb => hdirty ((htext hxv).2.2 hb)
      · simp at hx
  · intro x hx hxv
    rw [changeText_timers, List.mem_append] at hx
    rcases hx with hx | hx
    · exact h.timers_clean x hx hxv
    · split_ifs at hx with hdirty
      · obtain rfl : x = (f, sanitize L f text) := by simpa using hx
        refine ⟨?_, free_sanitize f text⟩
        by_cases hnil : text = []
        · exact hnil ▸ hdirty
        · exact (htext hxv).2.1 hnil
      · simp at hx
  · intro g hg hb
    rw [hbehind] at hb
    by_cases hgf : g = f
    · subst hgf
      have hne : sanitize L g text ≠ [] := (htext hg).2.1 fun hnil => (htext hg).1 hnil hb
      rw [changeText_field, if_pos rfl]
      split_ifs
      · simp
      · exact hne
    · simpa [hgf] using h.filled g hg hb
  · intro hn g hg hpg
    rw [changeText_currentPage] at hpg
    have htne : text ≠ [] := by simpa using hn
    by_cases hgf : g = f
    · subst hgf
      have hne : sanitize L g text ≠ [] := (htext hg).2.1 htne
      rw [changeText_field, if_pos rfl]
      split_ifs
      · simp
      · exact hne
    · have hother : f.page ≠ s.currentPage := fun hf => hgf (page_injective (hpg.trans hf.symm))
      simpa [hgf] using hpage htne hother g hg hpg

lemma Sound.timer {s : State} (h : Sound s) {f : Field} {t : Text} {rest : List (Field × Text)}
    (heq : s.timers = (f, t) :: rest) : Sound (State.setField { s with timers := rest } f t) := by
  have hmem : (f, t) ∈ s.timers := by simp [heq]
  have hrest : ∀ x ∈ rest, x ∈ s.timers := fun x hx => by simp [heq, hx]
  have hfield : ∀ g, (State.setField { s with timers := rest } f t).field g =
      if g = f then t else s.field g := by
    intro g
    rw [setField_field, field_with s rest s.disableNext g]
  have hbehind : ∀ g, (State.setField { s with timers := rest } f t).Behind g ↔ s.Behind g :=
    fun g => by simp [State.Behind]
  refine ⟨?_, ?_, ?_, ?_, ?_⟩
  · intro g hg
    rw [hfield]
    by_cases hgf : g = f
    · subst hgf
      exact .inl (by simpa using (h.timers_clean _ hmem hg).2)
    · rcases h.clean g hg with hc | ⟨u, hu⟩
      · exact .inl (by simpa [hgf] using hc)
      · refine .inr ⟨u, ?_⟩
        simpa [heq, hgf] using hu
  · intro x hx
    rw [setField_timers] at hx
    rw [hbehind]
    exact h.timers_ahead x (hrest x hx)
  · intro x hx
    rw [setField_timers] at hx
    exact h.timers_clean x (hrest x hx)
  · intro g hg hb
    rw [hfield]
    split_ifs with hgf
    · subst hgf; exact (h.timers_clean _ hmem hg).1
    · exact h.filled g hg ((hbehind g).mp hb)
  · intro hn g hg hpg
    rw [setField_disableNext] at hn
    rw [setField_currentPage] at hpg
    rw [hfield]
    split_ifs with hgf
    · subst hgf; exact (h.timers_clean _ hmem hg).1
    · exact h.flag hn g hg hpg

/-- Turning a page that is settled and whose field is filled. -/
lemma Sound.turn {s s' : State} (h : Sound s) (hpage : s'.currentPage = s.currentPage + 1)
    (hfield : ∀ f ≠ .verificationCode, s'.field f = s.field f) (htimers : s'.timers = s.timers)
    (hlinks : s'.links = s.links) (hsettled : Settled s) (hfilled : s.FilledAt s.currentPage)
    (hflag : s'.disableNext = false → s.FilledAt (s.currentPage + 1)) : Sound s' where
  clean f hf := by rw [hfield f hf, htimers]; exact h.clean f hf
  timers_ahead x hx hv := by
    rw [htimers] at hx
    have hne := hsettled x hx hv
    rintro (hlt | hl)
    · exact h.timers_ahead x hx hv (.inl (by omega))
    · exact h.timers_ahead x hx hv (.inr (hlinks ▸ hl))
  timers_clean := by rw [htimers]; exact h.timers_clean
  filled f hf hb := by
    rw [hfield f hf]
    rcases hb with hlt | hl
    · rcases Nat.lt_or_ge f.page s.currentPage with hlt | hge
      · exact h.filled f hf (.inl hlt)
      · exact hfilled f hf (by omega)
    · exact h.filled f hf (.inr (hlinks ▸ hl))
  flag hn f hf hp := by
    rw [hfield f hf]
    exact hflag hn f hf (hp.trans hpage)

/-- Going back a page enables the button, and the page gone back to is filled. -/
lemma Sound.back {s s' : State} (h : Sound s) (hpage : s'.currentPage + 1 = s.currentPage)
    (hfield : ∀ f ≠ .verificationCode, s'.field f = s.field f) (htimers : s'.timers = s.timers)
    (hlinks : s'.links = s.links) : Sound s' where
  clean f hf := by rw [hfield f hf, htimers]; exact h.clean f hf
  timers_ahead x hx hv := by
    rintro (hlt | hl)
    · exact h.timers_ahead x (htimers ▸ hx) hv (.inl (by omega))
    · exact h.timers_ahead x (htimers ▸ hx) hv (.inr (hlinks ▸ hl))
  timers_clean := by rw [htimers]; exact h.timers_clean
  filled f hf hb := by
    rw [hfield f hf]
    rcases hb with hlt | hl
    · exact h.filled f hf (.inl (by omega))
    · exact h.filled f hf (.inr (hlinks ▸ hl))
  flag _ f hf hp := by rw [hfield f hf]; exact h.filled f hf (.inl (by omega))

lemma Sound.next {s : State} (h : Sound s) (hsettled : s.currentPage ≠ 1 → Settled s)
    (hen : s.nextEnabled) : Sound (goToNextPage s) := by
  have hn : s.currentPage ≠ 3 → s.disableNext = false := by
    intro hp
    simp only [State.nextEnabled, hp, if_false, Bool.and_eq_true, Bool.not_eq_true'] at hen
    exact hen.2
  have hfilled : s.FilledAt s.currentPage := by
    intro f hf hp
    have h3 : f.page ≠ 3 := by cases f <;> simp [Field.page]
    exact h.flag (hn (hp ▸ h3)) f hf hp
  unfold goToNextPage
  split
  · rename_i hp
    refine h.turn (by simp [hp]) (field_congr rfl rfl rfl) rfl rfl
      (hsettled (by omega)) hfilled ?_
    intro hd f hf hpf
    cases f <;> simp_all [Field.page, State.field]
  · exact h.congr rfl (field_congr rfl rfl rfl) rfl id fun _ => hfilled
  · rename_i hp
    refine h.turn (by simp [hp]) (field_congr rfl rfl rfl) rfl rfl (hsettled (by omega))
      hfilled ?_
    intro hd f hf hpf
    cases f <;> simp_all [Field.page]
  · rename_i hp
    have hturn : ∀ b : Bool, Sound { s with disableNext := b, currentPage := 4 } := by
      intro b
      refine h.turn (by simp [hp]) (field_congr rfl rfl rfl) rfl rfl (hsettled (by omega))
        hfilled ?_
      intro hd f hf hpf
      cases f <;> simp_all [Field.page]
    split
    · exact hturn _
    · split
      · exact h
      · exact hturn _
  · rename_i page h0 h1 h2 h3
    refine h.turn rfl (field_congr rfl rfl rfl) rfl rfl (hsettled h1) hfilled ?_
    intro hd f hf hpf
    cases f <;> simp_all [Field.page]

lemma Sound.previous {s : State} (h : Sound s) (hp : s.currentPage ≠ 0) :
    Sound (goToPreviousPage s) := by
  unfold goToPreviousPage
  have hsub : s.currentPage - 1 + 1 = s.currentPage := by omega
  split_ifs
  · exact h.congr rfl (field_congr rfl rfl rfl) rfl id h.flag
  · exact h.back hsub (field_congr rfl rfl rfl) rfl rfl
  · exact h.back hsub (field_congr rfl rfl rfl) rfl rfl

/-- Behind the wizard everything is in place. -/
lemma Sound.complete {s : State} (h : Sound s) (hb : ∀ f ≠ .verificationCode, s.Behind f) :
    Complete s := by
  refine ⟨fun f hf => h.filled f hf (hb f hf), fun x hx => ?_⟩
  by_contra hv
  exact h.timers_ahead x hx hv (hb x.1 hv)

/-- An account is linked when everything is in place, so nothing is in the way of `createFeed`. -/
lemma Sound.confirmVerification {s : State} (h : Sound s) (hc : Complete s) :
    Sound (confirmVerification s) := by
  rcases confirmVerification_cases s with heq | ⟨_, -, _, -, -, -, heq⟩
  · rw [heq]
    exact h
  · rw [heq]
    refine ⟨fun f hf => ?_, fun x hx hv => absurd (hc.2 x hx) hv, h.timers_clean,
      fun f hf _ => ?_, fun _ f hf _ => ?_⟩
    · have := h.clean f hf
      cases f <;> exact this
    · have := hc.1 f hf
      cases f <;> exact this
    · have := hc.1 f hf
      cases f <;> exact this

lemma Sound.phoneAuth {s : State} (h : Sound s) (i : ℕ) {st : PhoneAuthState}
    (hc : Careful L s (.phoneAuth i st)) : Sound (onStateChanged i s st) := by
  cases st with
  | codeSent => exact h.congr rfl (field_congr rfl rfl rfl) rfl id (by simp [onStateChanged])
  | error => exact h.congr rfl (field_congr rfl rfl rfl) rfl id h.flag
  | autoVerifyTimeout => exact h
  | autoVerified code =>
    have hset : Sound { s with confirmResult := some ⟨i, code⟩, verificationCode := code } :=
      h.congr rfl (field_congr rfl rfl rfl) rfl id h.flag
    cases code with
    | none => exact hset
    | some code =>
      cases code with
      | nil => exact hset
      | cons c code =>
        refine hset.confirmVerification ⟨fun f hf => ?_, hc.2⟩
        cases f with
        | verificationCode => exact absurd rfl hf
        | _ => exact hc.1 _ hf

/-- One careful step. -/
lemma sound_step {s s' : State} {e : Event} (h : Sound s) (hc : Careful L s e)
    (hs : step L s e = some s') : Sound s' := by
  cases e with
  | changeText f text =>
    obtain ⟨-, rfl⟩ := step_cases hs
    exact h.changeText hc
  | timer =>
    obtain ⟨f, t, rest, heq, rfl⟩ := step_cases hs
    exact h.timer heq
  | changePhoneNumber n =>
    obtain ⟨-, rfl⟩ := step_cases hs
    refine h.congr rfl (field_congr rfl rfl rfl) rfl id fun hn => hc ?_
    simpa [onChangePhoneNumber] using hn
  | next =>
    obtain ⟨hen, rfl⟩ := step_cases hs
    exact h.next hc hen
  | previous =>
    obtain ⟨hp, rfl⟩ := step_cases hs
    exact h.previous hp
  | answer i taken =>
    obtain ⟨castId, edition, -, rfl⟩ := step_cases hs
    exact h.congr rfl (field_congr rfl rfl rfl) rfl id h.flag
  | reply i =>
    obtain ⟨r, taken, hr, hans, rfl⟩ := step_cases hs
    cases taken with
    | true => exact h.congr rfl (field_congr rfl rfl rfl) rfl id h.flag
    | false =>
      obtain ⟨hsettled, hfilled, hflag⟩ : Settled s ∧ s.FilledAt s.currentPage ∧
          (s.disableNext = false → s.FilledAt (s.currentPage + 1)) := by
        refine hc.resolve_left ?_
        simp [hr, hans]
      exact h.turn rfl (field_congr rfl rfl rfl) rfl rfl hsettled hfilled hflag
  | readFailed i =>
    obtain ⟨-, rfl⟩ := step_cases hs
    exact h.congr rfl (field_congr rfl rfl rfl) rfl id h.flag
  | linkPhone valid =>
    obtain ⟨-, -, -, rfl⟩ := step_cases hs
    rw [linkPhone_frame]
    exact h.congr rfl (field_congr rfl rfl rfl) rfl id h.flag
  | confirm =>
    obtain ⟨hp, -, -, rfl⟩ := step_cases hs
    exact h.confirmVerification (h.complete (behind_of_page (by omega)))
  | phoneAuth i st =>
    obtain ⟨-, rfl⟩ := step_cases hs
    exact h.phoneAuth i hc
  | finish newFeedId =>
    obtain ⟨-, -, rfl⟩ := step_cases hs
    exact h
  | linked i newFeedId | linkFailed i error =>
    obtain ⟨hi, rfl⟩ := step_cases hs
    exact h.congr rfl (field_congr rfl rfl rfl) rfl (fun _ => hi) h.flag
  | signIn | returnData avatarUri =>
    cases step_cases hs
    exact h.congr rfl (field_congr rfl rfl rfl) rfl id h.flag

def soundness (L : LowerCase) : Invariant (step L) (Careful L) where
  holds := Sound
  preserved := sound_step

/-- When everything is in place, the three fields are ready. -/
lemma Sound.ready {s : State} (h : Sound s) (hc : Complete s) : Ready s := by
  have key : ∀ f ≠ .verificationCode, s.field f ≠ [] ∧ Free f.strips (s.field f) := by
    intro f hf
    refine ⟨hc.1 f hf, (h.clean f hf).resolve_right ?_⟩
    rintro ⟨t, ht⟩
    exact hf (hc.2 _ ht)
  exact ⟨key .feedName (by decide), key .castId (by decide), key .password (by decide)⟩

lemma Ready.pathSegment {s : State} (h : Ready s) : PathSegment (dropHash s.castId) := by
  obtain ⟨-, ⟨hne, hfree⟩, -⟩ := h
  have hhash : ch '#' ∉ s.castId := fun hm => hfree _ hm (by decide)
  rw [dropHash, List.erase_of_not_mem hhash]
  exact ⟨hne, fun hm => hfree _ hm (by decide)⟩

/-- **What is stored is ready.** On a run of careful steps, `createFeed` finds the three fields
non-empty and sanitised, and the castId is one segment of a path. -/
theorem createFeed_ready_of_careful (L : LowerCase) (u : User) (es : List Event)
    (h : Along (step L) (Careful L) (mount u) es) :
    Along (step L) ReadyToCreate (mount u) es := by
  refine (soundness L).along ?_ (sound_mount u) h
  intro s e s' hs hc hstep hid
  have hready := hs.ready (hs.complete (behind_of_newFeedId hstep hid))
  exact ⟨hready, hready.pathSegment⟩

/-- A host whose account is linked already, so that page 3 is the last one. -/
def host : User := ⟨txt ['u'], some (txt ['A', 'n', 'n']), none, false⟩

/-- A name with a stripped character, its timer, and the three pages in order. -/
def orderlyRun : List Event :=
  [.changeText .feedName (txt ['A', '.', 'B']), .timer, .next,
    .changeText .castId (txt ['a', 'b']), .next, .answer 0 false, .reply 0,
    .changeText .password (txt ['p']), .next, .finish (txt ['i', 'd'])]

theorem createFeed_ready_of_careful_orderly :
    (run (step asciiLowerCase) (mount host) orderlyRun).isSome ∧
      Along (step asciiLowerCase) ReadyToCreate (mount host) orderlyRun :=
  ⟨by decide, createFeed_ready_of_careful asciiLowerCase host orderlyRun (by decide)⟩

/-- The same pages with a name made of stripped characters only. -/
def emptiedNameRun : List Event :=
  [.changeText .feedName (txt ['.', '.']), .timer, .next,
    .changeText .castId (txt ['a', 'b']), .next, .answer 0 false, .reply 0,
    .changeText .password (txt ['p']), .next, .finish (txt ['i', 'd'])]

/-- **An empty name is stored.** The flag is computed from the raw text `..`. -/
theorem createFeed_not_always_ready :
    ¬∀ (L : LowerCase) (u : User) (es : List Event),
      Along (step L) ReadyToCreate (mount u) es := by
  intro h
  have hrun := h asciiLowerCase host emptiedNameRun
  revert hrun
  decide

end Wedcast.CreateFeed
