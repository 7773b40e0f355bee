import Wedcast.Membership
import Wedcast.TextFields
import Wedcast.WeddingDetailsPassword

/-!
Which passwords can be stored for a cast, and which of them a guest can enter.

Three screens have an input for the password, with the same sanitiser and with two different
lengths: the owner may type 20 characters into `WeddingDetails`, a guest only 15 into
`PrivateFeed`. What can be stored or submitted is otherwise the same: a sanitised text, or one with
the space that is shown while the timer of the field is pending.
-/

namespace Wedcast

open Runs Delayed

/-- `maxLength` of the password's input on the three screens. -/
def CreateFeed.passwordMaxLength : ℕ := 15
def WeddingDetails.passwordMaxLength : ℕ := 20
def PrivateFeed.passwordMaxLength : ℕ := 15

namespace Passwords

variable {L : LowerCase}

/-- A sanitised text, alone or with the space. -/
def Shaped (p : Text) : Prop := Free forbidden p ∨ ∃ q, Free forbidden q ∧ p = withSpace q

/-- What the field of a screen with the given `maxLength` holds, and what its timers store. -/
def Holds (n : ℕ) (c : Cell Text) : Prop :=
  c.All (fun p => Shaped p ∧ p.length ≤ n) fun t => Free forbidden t ∧ t.length ≤ n

lemma Holds.fire {n : ℕ} {c c' : Cell Text} (h : Holds n c) (hfire : c.fire = some c') :
    Holds n c' :=
  Cell.All.fire h (fun _ ht => ⟨.inl ht.1, ht.2⟩) hfire

/-- The space takes the place of a character that was stripped. -/
lemma Holds.put {n : ℕ} {c : Cell Text} (h : Holds n c) {text : Text} (hlen : text.length ≤ n) :
    Holds n (c.put withSpace (removeAll forbidden text) text) := by
  have hfree : Free forbidden (removeAll forbidden text) := free_removeAll forbidden text
  refine Cell.All.put h (fun heq => ⟨.inl hfree, by rwa [heq]⟩) fun hne => ?_
  have hlt := length_removeAll_lt hne
  refine ⟨⟨.inr ⟨_, hfree, rfl⟩, ?_⟩, hfree, by omega⟩
  rw [withSpace, List.length_append, List.length_singleton]
  omega

/-! ### What a guest can enter -/

/-- `requestAccess` submits a member record with the password `p`. -/
def Submits (password p : Text) : Prop :=
  ∀ (user : User) (castId : Text) (feed : ChatInfo) (w : Membership.World),
    ∃ i ∈ (Membership.requestAccess user castId password feed w).pending user.uid,
      ∃ userObj, i.write = .member castId user.uid userObj ∧ userObj.password = some p

/-- Some inputs to the field of `PrivateFeed` make `requestAccess` submit the password. -/
def Enterable (p : Text) : Prop :=
  ∃ (es : List (Delayed.Event Text)) (c : Cell Text),
    (∀ text, .changeText text ∈ es → text.length ≤ PrivateFeed.passwordMaxLength) ∧
    run (Delayed.step PrivateFeed.sanitizePassword) PrivateFeed.mount es = some c ∧
    Submits c.value p

lemma submits_self (p : Text) : Submits p p := by
  intro user castId feed w
  refine ⟨⟨.member castId user.uid ⟨user.displayName, user.photoUrl, some p⟩, none⟩, ?_, _, rfl,
    rfl⟩
  simp [Membership.requestAccess, Membership.World.issue]

lemma eq_of_submits {password p : Text} (h : Submits password p) : password = p := by
  obtain ⟨i, hi, userObj, hwrite, hp⟩ := h ⟨[], none, none, false⟩ [] Membership.exampleWedcast
    (.init (fun _ _ => none) fun _ _ => none)
  simp only [Membership.requestAccess, Membership.World.issue, Membership.World.init,
    Function.update_self, List.nil_append, List.mem_cons, List.not_mem_nil, or_false] at hi
  rcases hi with rfl | rfl
  · cases hwrite
    exact Option.some.inj hp
  · cases hwrite

/-- The field of `PrivateFeed` along its inputs. -/
def entering : Invariant (Delayed.step PrivateFeed.sanitizePassword) (fun _ e =>
    ∀ text, e = .changeText text → text.length ≤ PrivateFeed.passwordMaxLength) where
  holds := Holds PrivateFeed.passwordMaxLength
  preserved {c c' e} h hlen hs := by
    cases e with
    | changeText text =>
      cases hs
      exact h.put (hlen text rfl)
    | timer => exact h.fire hs

lemma holds_nil (n : ℕ) : Holds n ⟨[], []⟩ := ⟨⟨.inl (free_nil _), by simp⟩, by simp⟩

/-- **What can be entered**: the sanitised texts of 15 characters, the space included. -/
lemma enterable_iff {p : Text} :
    Enterable p ↔ Shaped p ∧ p.length ≤ PrivateFeed.passwordMaxLength := by
  constructor
  · rintro ⟨es, c, hlen, hrun, hsub⟩
    have hfield : Holds PrivateFeed.passwordMaxLength c := by
      refine entering.of_run (holds_nil _) (along_of_forall fun e he _ text heq => ?_) hrun
      exact hlen text (heq ▸ he)
    exact eq_of_submits hsub ▸ hfield.value
  · rintro ⟨hfree | ⟨q, hfree, rfl⟩, hlen⟩
    · refine ⟨[.changeText p], ⟨p, []⟩, by simpa using hlen, ?_, submits_self p⟩
      have hclean : removeAll forbidden p = p := removeAll_of_free hfree
      simp [Delayed.step, PrivateFeed.sanitizePassword, Cell.put, hclean, PrivateFeed.mount]
    · -- the text has a stripped character in the place of the space
      refine ⟨[.changeText (withSpace q)], ⟨withSpace q, [q]⟩, by simpa using hlen, ?_,
        submits_self _⟩
      have hspace : removeAll forbidden [ch ' '] = [] := by decide
      have hclean : removeAll forbidden (withSpace q) = q := by
        rw [withSpace, removeAll, List.filter_append, ← removeAll, ← removeAll, hspace,
          removeAll_of_free hfree, List.append_nil]
      have hne : q ≠ withSpace q := by simp [withSpace]
      simp [Delayed.step, PrivateFeed.sanitizePassword, Cell.put, hclean, hne, PrivateFeed.mount]

/-! ### What can be stored -/

/-- The passwords some run stores: `createFeed` of the wizard, or a commit of `WeddingDetails` after
a text has been typed. The passwords that a `WeddingDetails` finds in the database, or another
device writes there, have been stored before. -/
inductive Storable (L : LowerCase) : Text → Prop where
  | createFeed {u : User} {es : List CreateFeed.Event} {s s' : CreateFeed.State}
      {e : CreateFeed.Event} {newFeedId castId p : Text} :
      (∀ text, .changeText .password text ∈ es → text.length ≤ CreateFeed.passwordMaxLength) →
      run (CreateFeed.step L) (CreateFeed.mount u) es = some s →
      CreateFeed.step L s e = some s' → e.newFeedId? = some newFeedId →
      .password castId p ∈ CreateFeed.createFeed newFeedId s → Storable L p
  | weddingDetails {u : User} {castId p : Text} {stored : Option Text}
      {es : List WeddingDetails.Event} {s s' : WeddingDetails.State} :
      (∀ text, .changeText text ∈ es → text.length ≤ WeddingDetails.passwordMaxLength) →
      (∀ q ∈ stored, Storable L q) → (∀ q, .remote (some q) ∈ es → Storable L q) →
      run WeddingDetails.step (WeddingDetails.mount u castId stored) es = some s →
      s.changingPassword → s.typed ≠ none →
      WeddingDetails.step s .toggleChangeInput = some s' → s'.stored = some p → Storable L p

/-- The password of the wizard along its events. -/
def creating (L : LowerCase) : Invariant (CreateFeed.step L) (fun _ e =>
    ∀ text, e = .changeText .password text → text.length ≤ CreateFeed.passwordMaxLength) where
  holds s := Holds CreateFeed.passwordMaxLength (s.cell .password)
  preserved {s s' e} h hlen hs := by
    by_cases hw : e.Writes .password
    · obtain ⟨text, rfl⟩ := CreateFeed.eq_changeText_of_writes (by decide) hw
      obtain ⟨-, rfl⟩ := CreateFeed.step_cases hs
      rw [CreateFeed.cell_changeText_self]
      exact h.put (hlen text rfl)
    · rcases CreateFeed.cell_step hs hw with hsame | hfire
      · rwa [hsame]
      · exact h.fire hfire

lemma creating_mount (u : User) : (creating L).holds (CreateFeed.mount u) := holds_nil _

/-- The field of `WeddingDetails`, and the passwords in the database. -/
structure Shown (s : WeddingDetails.State) : Prop where
  field : s.password.All (fun v => ∀ p ∈ v, Shaped p) fun t => ∀ p ∈ t, Free forbidden p
  stored : ∀ p ∈ s.stored, Shaped p
  snapshots : ∀ v ∈ s.snapshots, ∀ p ∈ v, Shaped p

lemma Shown.store {s : WeddingDetails.State} (h : Shown s) {value : Option Text}
    (hvalue : ∀ p ∈ value, Shaped p) : Shown (s.store value) where
  field := h.field
  stored := hvalue
  snapshots v hv := by
    rcases List.mem_append.mp hv with hv | hv
    · exact h.snapshots v hv
    · rwa [List.mem_singleton.mp hv]

lemma Shown.changeText {s : WeddingDetails.State} (h : Shown s) (text : Text) :
    Shown (WeddingDetails.sanitizePassword text s) where
  field := by
    have hfree : Free forbidden (removeAll forbidden text) := free_removeAll forbidden text
    refine Cell.All.put h.field (fun _ p hp => ?_) fun _ => ⟨fun p hp => ?_, fun p hp => ?_⟩
    · rw [← Option.some.inj hp]
      exact .inl hfree
    · rw [← Option.some.inj hp]
      exact .inr ⟨_, hfree, rfl⟩
    · rwa [← Option.some.inj hp]
  stored := h.stored
  snapshots := h.snapshots

lemma shown_step {s s' : WeddingDetails.State} {e : WeddingDetails.Event} (h : Shown s)
    (hremote : ∀ p, e = .remote (some p) → Shaped p) (hs : WeddingDetails.step s e = some s') :
    Shown s' := by
  cases e with
  | changeText text =>
    obtain ⟨-, rfl⟩ := WeddingDetails.step_cases hs
    exact h.changeText text
  | timer =>
    obtain ⟨password, hfire, rfl⟩ := WeddingDetails.step_cases hs
    exact ⟨Cell.All.fire h.field (fun _ ht p hp => .inl (ht p hp)) hfire, h.stored, h.snapshots⟩
  | toggleChangeInput =>
    cases WeddingDetails.step_cases hs
    unfold WeddingDetails.toggleChangeInput
    split_ifs
    · have hstore := h.store h.field.value
      exact ⟨hstore.field, hstore.stored, hstore.snapshots⟩
    · exact ⟨h.field, h.stored, h.snapshots⟩
  | remote value =>
    cases WeddingDetails.step_cases hs
    exact h.store fun p hp => hremote p (by rw [Option.mem_def.mp hp])
  | snapshot =>
    obtain ⟨value, rest, heq, rfl⟩ := WeddingDetails.step_cases hs
    refine ⟨⟨h.snapshots value (by simp [heq]), h.field.timers⟩, h.stored, fun v hv => ?_⟩
    exact h.snapshots v (by simp [heq, hv])
  | feed value =>
    cases WeddingDetails.step_cases hs
    exact ⟨h.field, h.stored, h.snapshots⟩

def showing : Invariant WeddingDetails.step (fun _ e =>
    ∀ p, e = .remote (some p) → Shaped p) where
  holds := Shown
  preserved := shown_step

lemma shown_mount (u : User) (castId : Text) {stored : Option Text}
    (h : ∀ p ∈ stored, Shaped p) : Shown (WeddingDetails.mount u castId stored) where
  field := ⟨by simp [WeddingDetails.mount], by simp [WeddingDetails.mount]⟩
  stored := h
  snapshots v hv := by rwa [List.mem_singleton.mp hv]

lemma Storable.shaped {p : Text} (h : Storable L p) : Shaped p := by
  induction h with
  | createFeed hlen hrun _ _ hw =>
    have hholds := (creating L).of_run (creating_mount _) (along_of_forall fun e he _ text heq =>
      hlen text (heq ▸ he)) hrun
    obtain ⟨newFeed, userObj, -, -, heq | heq | heq | heq⟩ := CreateFeed.mem_createFeed_cases hw
    · cases heq
    · obtain ⟨-, rfl⟩ := Write.password.inj heq
      exact hholds.value.1
    · cases heq
    · cases heq
  | @weddingDetails u castId p stored es s s' _ _ _ hrun _ _ hs hp hstored hremote =>
    have hshown := showing.of_run (shown_mount u castId hstored) (along_of_forall
      fun e he _ q heq => hremote q (heq ▸ he)) hrun
    have hshown' : Shown s' := shown_step hshown (by simp) hs
    exact hshown'.stored p hp

/-- The owner of a cast in edit mode. -/
def editing : WeddingDetails.State :=
  { WeddingDetails.mount WeddingDetails.owner (txt ['a']) none with
    feed := some WeddingDetails.ownCast
    changingPassword := true }

/-- Every sanitised text that fits into the field of `WeddingDetails` can be stored. -/
lemma storable_of_free {p : Text} (hfree : Free forbidden p)
    (hlen : p.length ≤ WeddingDetails.passwordMaxLength) : Storable L p := by
  have htyped : WeddingDetails.sanitizePassword p editing =
      { editing with password := ⟨some p, []⟩, typed := some p } := by
    simp [WeddingDetails.sanitizePassword, Cell.put, removeAll_of_free hfree, editing,
      WeddingDetails.mount]
  have hrun : run WeddingDetails.step (WeddingDetails.mount WeddingDetails.owner (txt ['a']) none)
      [.feed (some WeddingDetails.ownCast), .toggleChangeInput, .changeText p] =
        some { editing with password := ⟨some p, []⟩, typed := some p } := by
    rw [← htyped]
    rfl
  exact .weddingDetails (by simpa using hlen) (by simp) (by simp) hrun rfl (by simp) rfl rfl

/-- **What a guest can enter.** A password that can be stored can be entered exactly when it has at
most 15 characters. -/
theorem enterable_iff_length (L : LowerCase) (p : Text) (h : Storable L p) :
    Enterable p ↔ p.length ≤ PrivateFeed.passwordMaxLength := by
  rw [enterable_iff]
  exact and_iff_right h.shaped

theorem enterable_iff_length_short : Enterable (txt ['q', 'r']) :=
  (enterable_iff_length asciiLowerCase (txt ['q', 'r'])
    (storable_of_free (by decide) (by decide))).mpr (by decide)

/-- **A password that is too long.** The owner stores 16 letters, a guest can enter 15. -/
theorem not_always_enterable : ¬∀ (L : LowerCase) (p : Text), Storable L p → Enterable p := by
  intro h
  have hlong := h asciiLowerCase (List.replicate 16 (ch 'q'))
    (storable_of_free (by decide) (by decide))
  have hlen := (enterable_iff.mp hlong).2
  revert hlen
  decide

end Passwords

end Wedcast
