import Mathlib.Logic.Function.Basic
import Wedcast.CreateFeedAvailability
import Wedcast.Lib.Indexed

/-!
Many clients and one database.

Every client runs its own wizard. The database answers each availability read and applies each
write at some moment after it was issued, one at a time and in any order. The check and the writes
of one wizard are not one transaction, so a castId is safe from a second client only when no two
clients are between the answer and the end of their writes at once.
-/

namespace Wedcast.CreateFeed

open Runs

variable {ι : Type*} [DecidableEq ι] {L : LowerCase}

structure World (ι : Type*) where
  client : ι → State
  chatInfo : Text → Option ChatInfo
  password : Text → Option Text
  /-- The writes issued and not applied yet. -/
  inflight : List (ι × Write)
  /-- History: the writes applied, the last one in front. -/
  applied : List (ι × Write)
  /-- History: who ran `createFeed`, and for which castId. -/
  created : List (ι × Text)
  /-- History: another client has run `createFeed` for the castId since the last time a read of
  this client found no `chatInfo` there. -/
  raced : ι → Text → Bool

/-- The database applies a write; the paths no wizard reads are left out. -/
def World.apply (w : World ι) : Write → World ι
  | .chatInfo castId feed => { w with chatInfo := Function.update w.chatInfo castId (some feed) }
  | .password castId pw => { w with password := Function.update w.password castId (some pw) }
  | _ => w

/-- `createFeed` of the client issues its writes. -/
def World.create (w : World ι) (j : ι) (newFeedId : Text) (s : State) : World ι :=
  let key := dropHash s.castId
  { w with
    inflight := w.inflight ++ (createFeed newFeedId s).map (j, ·)
    created := (j, key) :: w.created
    raced := fun i c => w.raced i c || (i ≠ j && c = key) }

inductive WorldEvent (ι : Type*) where
  /-- An event of a client's wizard, other than an answer of the database. -/
  | client (j : ι) (e : Event)
  /-- The database answers the `i`-th pending read of the client. -/
  | serve (j : ι) (i : ℕ)
  /-- The database applies the `k`-th write in flight. -/
  | apply (k : ℕ)
  /-- The client leaves its wizard and opens a new one. -/
  | mount (j : ι)

def World.step (L : LowerCase) (w : World ι) : WorldEvent ι → Option (World ι)
  | .client j e =>
    if e.isAnswer then none
    else (CreateFeed.step L (w.client j) e).map fun s' =>
      let w' := { w with client := Function.update w.client j s' }
      match e.newFeedId? with
      | some newFeedId => w'.create j newFeedId (w.client j)
      | none => w'
  | .serve j i =>
    (w.client j).reads[i]?.bind fun r =>
      (CreateFeed.step L (w.client j) (.answer i (w.chatInfo r.castId).isSome)).map fun s' =>
        { w with
          client := Function.update w.client j s'
          raced := if (w.chatInfo r.castId).isSome then w.raced else
            Function.update w.raced j (Function.update (w.raced j) r.castId false) }
  | .apply k =>
    w.inflight[k]?.map fun x =>
      { w.apply x.2 with inflight := w.inflight.eraseIdx k, applied := x :: w.applied }
  | .mount j =>
    some { w with client := Function.update w.client j (mount (w.client j).currentUser) }

/-- Fresh wizards over a database with any casts in it. -/
def World.init (users : ι → User) (chatInfo : Text → Option ChatInfo)
    (password : Text → Option Text) : World ι where
  client j := CreateFeed.mount (users j)
  chatInfo := chatInfo
  password := password
  inflight := []
  applied := []
  created := []
  raced _ _ := false

/-- The client's `createFeed` has written `chatInfo` and `password` of the castId. -/
def Established (log : List (ι × Write)) (i : ι) (c : Text) : Prop :=
  (∃ x ∈ log, x.1 = i ∧ x.2.setsChatInfo c) ∧ ∃ x ∈ log, x.1 = i ∧ x.2.setsPassword c

/-- No write of the log replaces `chatInfo`, with its owner, or `password` of a castId another
client had established before. -/
def Kept : List (ι × Write) → Prop
  | [] => True
  | x :: earlier =>
    Kept earlier ∧ ∀ c ∈ x.2.castId?, ∀ y ∈ earlier, Established earlier y.1 c → y.1 = x.1

instance (log : List (ι × Write)) (i : ι) (c : Text) : Decidable (Established log i c) :=
  inferInstanceAs (Decidable ((∃ x ∈ log, _) ∧ ∃ x ∈ log, _))

instance decidableKept : (log : List (ι × Write)) → Decidable (Kept log)
  | [] => isTrue trivial
  | x :: earlier =>
    have := decidableKept earlier
    inferInstanceAs (Decidable (Kept earlier ∧ ∀ c ∈ x.2.castId?, ∀ y ∈ earlier, _))

/-! ### The runs on which a castId is kept -/

/-- No other client's `chatInfo` of the castId is in flight. -/
def Quiet (w : World ι) (j : ι) (c : Text) : Prop :=
  ∀ x ∈ w.inflight, x.2.setsChatInfo c → x.1 = j

/-- The steps that leave no room for a second client. Each wizard keeps its check and its castId
together; a read finds nothing only while no other client's `chatInfo` is on its way there; and
nobody else has run `createFeed` for the castId between the answer and this client's
`createFeed`. -/
def Apart (w : World ι) : WorldEvent ι → Prop
  | .client j e =>
    Unchanged (w.client j) e ∧
      (e.newFeedId?.isSome → w.raced j (dropHash (w.client j).castId) = false)
  | .serve j i => ∀ r ∈ (w.client j).reads[i]?, w.chatInfo r.castId = none → Quiet w j r.castId
  | _ => True

instance (w : World ι) (j : ι) (c : Text) : Decidable (Quiet w j c) :=
  inferInstanceAs (Decidable (∀ x ∈ w.inflight, _))

instance (w : World ι) : (e : WorldEvent ι) → Decidable (Apart w e)
  | .client _ _ => inferInstanceAs (Decidable (_ ∧ (_ → _)))
  | .serve _ _ => inferInstanceAs (Decidable (∀ r ∈ _, _))
  | .apply _ | .mount _ => isTrue trivial

/-- The wizard has been told that the castId is free, or is about to be told. -/
def Informed (s : State) (c : Text) : Prop :=
  (∃ n, (c, n) ∈ s.verified) ∨ ∃ r ∈ s.reads, r.castId = c ∧ r.answer = some false

/-- What holds along such steps. -/
structure Separate (w : World ι) : Prop where
  checked : ∀ j, Checked (w.client j)
  written : ∀ x ∈ w.inflight ++ w.applied, ∀ c ∈ x.2.castId?, (x.1, c) ∈ w.created
  landed : ∀ x ∈ w.created, (w.chatInfo x.2).isSome ∨
    ∃ y ∈ w.inflight, y.1 = x.1 ∧ y.2.setsChatInfo x.2
  alone : ∀ x ∈ w.created, ∀ y ∈ w.created, x.2 = y.2 → x.1 = y.1
  informed : ∀ j c, Informed (w.client j) c → w.raced j c = false →
    ∀ x ∈ w.created, x.2 = c → x.1 = j
  kept : Kept w.applied

omit [DecidableEq ι] in
lemma separate_init (users : ι → User) (chatInfo : Text → Option ChatInfo)
    (password : Text → Option Text) : Separate (World.init users chatInfo password) where
  checked j := checked_mount (users j)
  written := by simp [World.init]
  landed := by simp [World.init]
  alone := by simp [World.init]
  informed := by simp [World.init]
  kept := trivial

/-! ### A client's step -/

lemma informed_congr {s s' : State} {c : Text} (h : Informed s' c)
    (hver : s'.verified = s.verified)
    (hreads : ∀ r ∈ s'.reads, r.answer = some false → r ∈ s.reads) : Informed s c := by
  rcases h with ⟨n, hn⟩ | ⟨r, hr, hc, ha⟩
  · exact .inl ⟨n, hver ▸ hn⟩
  · exact .inr ⟨r, hreads r hr ha, hc, ha⟩

/-- A wizard learns that a castId is free from the database only. -/
lemma informed_of_step {s s' : State} {e : Event} {c : Text} (hs : step L s e = some s')
    (hne : e.isAnswer = false) (h : Informed s' c) : Informed s c := by
  have same : s'.reads = s.reads → s'.verified = s.verified → Informed s c := fun hr hv =>
    informed_congr h hv fun r hr' _ => hr ▸ hr'
  cases e with
  | changeText f text =>
    obtain ⟨-, rfl⟩ := step_cases hs
    rw [onChangeText_eq, changeText_frame] at same
    exact same rfl rfl
  | timer =>
    obtain ⟨f, t, rest, -, rfl⟩ := step_cases hs
    cases f <;> exact same rfl rfl
  | changePhoneNumber n =>
    obtain ⟨-, rfl⟩ := step_cases hs
    exact same rfl rfl
  | next =>
    obtain ⟨-, rfl⟩ := step_cases hs
    rcases goToNextPage_cases s with ⟨-, heq⟩ | ⟨-, heq | ⟨disableNext, heq⟩⟩
    · rw [heq] at h
      refine informed_congr h rfl fun r hr ha => ?_
      rcases List.mem_append.mp hr with hr | hr
      · exact hr
      · simp only [List.mem_singleton] at hr
        simp [hr] at ha
    · rwa [heq] at h
    · rw [heq] at same
      exact same rfl rfl
  | previous =>
    obtain ⟨-, rfl⟩ := step_cases hs
    rw [goToPreviousPage_frame] at same
    exact same rfl rfl
  | answer i taken => simp [Event.isAnswer] at hne
  | reply i =>
    obtain ⟨r, taken, hr, hans, rfl⟩ := step_cases hs
    have hmem : r ∈ s.reads := List.mem_of_getElem? hr
    cases taken with
    | true =>
      exact informed_congr h rfl fun r' hr' _ => List.mem_of_mem_eraseIdx hr'
    | false =>
      rcases h with ⟨n, hn⟩ | ⟨r', hr', hc, ha⟩
      · rcases List.mem_cons.mp hn with hn | hn
        · simp only [Prod.mk.injEq] at hn
          exact .inr ⟨r, hmem, hn.1.symm, hans⟩
        · exact .inl ⟨n, hn⟩
      · exact .inr ⟨r', List.mem_of_mem_eraseIdx hr', hc, ha⟩
  | readFailed i =>
    obtain ⟨-, rfl⟩ := step_cases hs
    exact informed_congr h rfl fun r' hr' _ => List.mem_of_mem_eraseIdx hr'
  | linkPhone valid =>
    obtain ⟨-, -, -, rfl⟩ := step_cases hs
    rw [linkPhone_frame] at same
    exact same rfl rfl
  | confirm =>
    obtain ⟨-, -, -, rfl⟩ := step_cases hs
    rw [confirmVerification_frame] at same
    exact same rfl rfl
  | phoneAuth i st =>
    obtain ⟨-, rfl⟩ := step_cases hs
    cases st with
    | autoVerified code =>
      rw [onStateChanged, confirmVerification_frame] at same
      exact same rfl rfl
    | _ => exact same rfl rfl
  | finish newFeedId =>
    obtain ⟨-, -, rfl⟩ := step_cases hs
    exact h
  | linked i newFeedId | linkFailed i error =>
    obtain ⟨-, rfl⟩ := step_cases hs
    exact same rfl rfl
  | signIn | returnData avatarUri =>
    cases step_cases hs
    exact same rfl rfl

/-! ### The steps of the world -/

lemma step_client {w w' : World ι} {j : ι} {e : Event}
    (h : w.step L (.client j e) = some w') :
    e.isAnswer = false ∧ ∃ s', step L (w.client j) e = some s' ∧
      ((e.newFeedId? = none ∧ w' = { w with client := Function.update w.client j s' }) ∨
        ∃ newFeedId, e.newFeedId? = some newFeedId ∧
          w' = World.create { w with client := Function.update w.client j s' } j newFeedId
            (w.client j)) := by
  simp only [World.step] at h
  split_ifs at h with hans
  obtain ⟨s', hs, rfl⟩ := Option.map_eq_some_iff.mp h
  refine ⟨by simpa using hans, s', hs, ?_⟩
  cases hid : e.newFeedId? with
  | none => exact .inl ⟨rfl, rfl⟩
  | some newFeedId => exact .inr ⟨newFeedId, rfl, rfl⟩

lemma step_serve {w w' : World ι} {j : ι} {i : ℕ} (h : w.step L (.serve j i) = some w') :
    ∃ r s', (w.client j).reads[i]? = some r ∧
      step L (w.client j) (.answer i (w.chatInfo r.castId).isSome) = some s' ∧
      w' = { w with
        client := Function.update w.client j s'
        raced := if (w.chatInfo r.castId).isSome then w.raced else
          Function.update w.raced j (Function.update (w.raced j) r.castId false) } := by
  obtain ⟨r, hr, h⟩ := Option.bind_eq_some_iff.mp h
  obtain ⟨s', hs, rfl⟩ := Option.map_eq_some_iff.mp h
  exact ⟨r, s', hr, hs, rfl⟩

/-- `createFeed` of a client whose castId nobody else has created. -/
lemma Separate.create {w : World ι} (h : Separate w) {j : ι} {newFeedId : Text} {s : State}
    (hothers : ∀ x ∈ w.created, x.2 = dropHash s.castId → x.1 = j) :
    Separate (w.create j newFeedId s) where
  checked := h.checked
  written := by
    intro x hx c hc
    change x ∈ (w.inflight ++ (createFeed newFeedId s).map (j, ·)) ++ w.applied at hx
    have hcases : x ∈ w.inflight ++ w.applied ∨ x ∈ (createFeed newFeedId s).map (j, ·) := by
      simp only [List.mem_append] at hx ⊢
      tauto
    rcases hcases with hx | hx
    · exact List.mem_cons_of_mem _ (h.written x hx c hc)
    · obtain ⟨wr, hwr, rfl⟩ := List.mem_map.mp hx
      obtain rfl : c = dropHash s.castId := castId?_of_mem_createFeed hwr hc
      exact List.mem_cons_self
  landed := by
    intro x hx
    rcases List.mem_cons.mp hx with rfl | hx
    · refine .inr ⟨(j, (createFeed newFeedId s).head (by simp [createFeed])), ?_, rfl, ?_⟩
      · simp [World.create, createFeed]
      · simp [createFeed, Write.setsChatInfo]
    · rcases h.landed x hx with hsome | ⟨y, hy, hj, hset⟩
      · exact .inl hsome
      · exact .inr ⟨y, List.mem_append_left _ hy, hj, hset⟩
  alone := by
    intro x hx y hy hxy
    rcases List.mem_cons.mp hx with rfl | hx <;> rcases List.mem_cons.mp hy with rfl | hy
    · rfl
    · exact (hothers y hy hxy.symm).symm
    · exact hothers x hx hxy
    · exact h.alone x hx y hy hxy
  informed := by
    intro i c hinf hraced x hx hxc
    simp only [World.create, Bool.or_eq_false_iff, Bool.and_eq_false_iff,
      decide_eq_false_iff_not, not_not] at hraced
    rcases List.mem_cons.mp hx with rfl | hx
    · rcases hraced.2 with hij | hne
      · exact hij.symm
      · exact absurd hxc.symm hne
    · exact h.informed i c hinf hraced.1 x hx hxc
  kept := h.kept

lemma Separate.client {w : World ι} (h : Separate w) {j : ι} {e : Event} {s' : State}
    (hs : step L (w.client j) e = some s') (hne : e.isAnswer = false)
    (hu : Unchanged (w.client j) e) :
    Separate { w with client := Function.update w.client j s' } where
  checked i := by
    by_cases hi : i = j
    · subst hi; simpa using checked_step (h.checked i) hu hs
    · simpa [hi] using h.checked i
  written := h.written
  landed := h.landed
  alone := h.alone
  informed i c hinf := by
    refine h.informed i c ?_
    by_cases hi : i = j
    · subst hi; exact informed_of_step hs hne (by simpa using hinf)
    · simpa [hi] using hinf
  kept := h.kept

/-- The database answers: if it finds nothing, nobody else has run `createFeed` there. -/
lemma Separate.serve {w : World ι} (h : Separate w) {j : ι} {i : ℕ} {r : Read} {s' : State}
    (hr : (w.client j).reads[i]? = some r)
    (hquiet : w.chatInfo r.castId = none → Quiet w j r.castId)
    (hs : step L (w.client j) (.answer i (w.chatInfo r.castId).isSome) = some s') :
    Separate { w with
      client := Function.update w.client j s'
      raced := if (w.chatInfo r.castId).isSome then w.raced else
        Function.update w.raced j (Function.update (w.raced j) r.castId false) } := by
  obtain ⟨castId, edition, hr', hs'⟩ := step_cases hs
  obtain rfl : r = ⟨castId, none, edition⟩ := by simpa [hr] using hr'
  have hothers : (w.chatInfo castId).isSome = false → ∀ x ∈ w.created, x.2 = castId → x.1 = j := by
    rintro hnone x hx rfl
    rcases h.landed x hx with hsome | ⟨y, hy, hyx, hset⟩
    · simp [hnone] at hsome
    · exact hyx ▸ hquiet (by simpa using hnone) y hy hset
  have hinf : ∀ c, Informed s' c → Informed (w.client j) c ∨
      c = castId ∧ (w.chatInfo castId).isSome = false := by
    rintro c (⟨n, hn⟩ | ⟨r', hr', hc, ha⟩)
    · rw [hs'] at hn
      exact .inl (.inl ⟨n, hn⟩)
    · rw [hs'] at hr'
      rcases List.mem_or_eq_of_mem_set hr' with hr' | rfl
      · exact .inl (.inr ⟨r', hr', hc, ha⟩)
      · exact .inr ⟨hc.symm, by simpa using ha⟩
  refine ⟨?_, h.written, h.landed, h.alone, ?_, h.kept⟩
  · intro i'
    have hchecked : Checked s' := by
      refine checked_step (h.checked j) ?_ hs
      trivial
    by_cases hi : i' = j
    · subst hi; simpa using hchecked
    · simpa [hi] using h.checked i'
  · intro i' c hinf' hraced x hx hxc
    by_cases hi : i' = j
    · subst hi
      rcases hinf c (by simpa using hinf') with hold | ⟨rfl, hnone⟩
      · by_cases hc : c = castId ∧ (w.chatInfo castId).isSome = false
        · exact hothers hc.2 x hx (hxc.trans hc.1)
        · refine h.informed i' c hold ?_ x hx hxc
          split_ifs at hraced with hsome
          · exact hraced
          · have hne : c ≠ castId := fun he => hc ⟨he, by simpa using hsome⟩
            simpa [hne] using hraced
      · exact hothers hnone x hx hxc
    · refine h.informed i' c (by simpa [hi] using hinf') ?_ x hx hxc
      split_ifs at hraced
      · exact hraced
      · simpa [hi] using hraced

/-- A write is applied: both writers of a castId would have created it. -/
lemma Separate.apply {w : World ι} (h : Separate w) {k : ℕ} {x : ι × Write}
    (hx : w.inflight[k]? = some x) :
    Separate { w.apply x.2 with inflight := w.inflight.eraseIdx k, applied := x :: w.applied } := by
  have hmem : x ∈ w.inflight := List.mem_of_getElem? hx
  have hclient : (w.apply x.2).client = w.client := by cases x.2 <;> rfl
  have hcreated : (w.apply x.2).created = w.created := by cases x.2 <;> rfl
  have hraced : (w.apply x.2).raced = w.raced := by cases x.2 <;> rfl
  have hkeep : ∀ c, (w.chatInfo c).isSome → ((w.apply x.2).chatInfo c).isSome := by
    intro c hc
    cases x.2 with
    | chatInfo castId feed =>
      by_cases hcc : c = castId
      · simp [World.apply, hcc]
      · simpa [World.apply, hcc] using hc
    | _ => exact hc
  refine ⟨?_, ?_, ?_, ?_, ?_, ?_⟩
  · exact fun j => hclient ▸ h.checked j
  · intro y hy c hc
    rw [hcreated]
    refine h.written y ?_ c hc
    rcases List.mem_append.mp hy with hy | hy
    · exact List.mem_append_left _ (List.mem_of_mem_eraseIdx hy)
    · rcases List.mem_cons.mp hy with rfl | hy
      · exact List.mem_append_left _ hmem
      · exact List.mem_append_right _ hy
  · intro y hy
    rw [hcreated] at hy
    rcases h.landed y hy with hsome | ⟨z, hz, hzy, hset⟩
    · exact .inl (hkeep _ hsome)
    · by_cases hzx : z = x
      · left
        subst hzx
        cases hz2 : z.2 <;> simp_all [Write.setsChatInfo, World.apply]
      · exact .inr ⟨z, Indexed.mem_eraseIdx_of_ne hx hz hzx, hzy, hset⟩
  · rw [hcreated]; exact h.alone
  · intro j c hinf hr
    rw [hclient] at hinf
    rw [hraced] at hr
    rw [hcreated]
    exact h.informed j c hinf hr
  · refine ⟨h.kept, ?_⟩
    rintro c hc y - ⟨⟨z, hz, hzy, hset⟩, -⟩
    have hyc : (z.1, c) ∈ w.created :=
      h.written z (List.mem_append_right _ hz) c (Write.castId?_of_setsChatInfo hset)
    have hxc : (x.1, c) ∈ w.created := h.written x (List.mem_append_left _ hmem) c hc
    exact hzy ▸ h.alone _ hyc _ hxc rfl

/-- One step that leaves no room for a second client. -/
lemma separate_step {w w' : World ι} {e : WorldEvent ι} (h : Separate w) (ha : Apart w e)
    (hs : w.step L e = some w') : Separate w' := by
  cases e with
  | client j e =>
    obtain ⟨hans, s', hstep, hcase⟩ := step_client hs
    have hclient := h.client hstep hans ha.1
    rcases hcase with ⟨-, rfl⟩ | ⟨newFeedId, hid, rfl⟩
    · exact hclient
    · refine hclient.create ?_
      have hbehind := behind_of_newFeedId hstep (by simp [hid]) .castId (by decide)
      exact h.informed j _ (.inl ⟨_, (h.checked j).verified hbehind⟩) (ha.2 (by simp [hid]))
  | serve j i =>
    obtain ⟨r, s', hr, hstep, rfl⟩ := step_serve hs
    exact h.serve hr (ha r (by simp [hr])) hstep
  | apply k =>
    obtain ⟨x, hx, rfl⟩ := Option.map_eq_some_iff.mp hs
    exact h.apply hx
  | mount j =>
    obtain rfl : { w with
      client := Function.update w.client j (mount (w.client j).currentUser) } = w' := by
      simpa [World.step] using hs
    refine ⟨?_, h.written, h.landed, h.alone, ?_, h.kept⟩
    · intro i
      by_cases hi : i = j
      · subst hi; simpa using checked_mount _
      · simpa [hi] using h.checked i
    · intro i c hinf
      by_cases hi : i = j
      · subst hi; simp [Informed, mount] at hinf
      · exact h.informed i c (by simpa [hi] using hinf)

def separation (L : LowerCase) : Invariant (World.step (ι := ι) L) Apart where
  holds := Separate
  preserved := separate_step

/-- **A cast is kept.** When the checks and the writes of different clients stay apart, no
`createFeed` replaces the `chatInfo`, the owner or the password of another client's cast. -/
theorem kept_of_apart (L : LowerCase) (users : ι → User) (chatInfo : Text → Option ChatInfo)
    (password : Text → Option Text) (es : List (WorldEvent ι))
    (h : Along (World.step L) Apart (World.init users chatInfo password) es) :
    Throughout (World.step L) (fun w => Kept w.applied) (World.init users chatInfo password) es :=
  (separation L).throughout (fun _ hw => hw.kept) (separate_init users chatInfo password) h

/-- Two hosts with their own wizards, over an empty database. -/
def hosts : Bool → User := fun b => ⟨txt [if b then 'u' else 'v'], none, none, false⟩

/-- What a client does up to the answer about the castId, and after it. -/
def ask (j : Bool) (castId : Text) : List (WorldEvent Bool) :=
  [.client j (.changeText .feedName (txt ['A'])), .client j .next,
    .client j (.changeText .castId castId), .client j .next, .serve j 0]

def create (j : Bool) : List (WorldEvent Bool) :=
  [.client j (.reply 0), .client j (.changeText .password (txt ['p'])), .client j .next,
    .client j (.finish (txt ['i', 'd'])), .apply 0, .apply 0, .apply 0, .apply 0]

/-- The client is told that the castId is taken, and asks about another one. -/
def askAgain (j : Bool) (castId : Text) : List (WorldEvent Bool) :=
  [.client j (.reply 0), .client j (.changeText .castId castId), .client j .next, .serve j 0]

/-- The second host asks for the castId that the first has created. -/
def inTurn : List (WorldEvent Bool) :=
  ask true (txt ['a']) ++ create true ++ ask false (txt ['a']) ++ askAgain false (txt ['b']) ++
    create false

theorem kept_of_apart_in_turn :
    (run (World.step asciiLowerCase) (World.init hosts (fun _ => none) fun _ => none)
        inTurn).isSome ∧
      Throughout (World.step asciiLowerCase) (fun w => Kept w.applied)
        (World.init hosts (fun _ => none) fun _ => none) inTurn :=
  ⟨by decide, kept_of_apart asciiLowerCase hosts _ _ _ (by decide)⟩

/-- **A cast is taken over.** Both clients are told that `a` is free before either writes. -/
theorem not_always_kept :
    ¬∀ (ι : Type) [DecidableEq ι] (L : LowerCase) (users : ι → User)
      (chatInfo : Text → Option ChatInfo) (password : Text → Option Text)
      (es : List (WorldEvent ι)), Throughout (World.step L) (fun w => Kept w.applied)
        (World.init users chatInfo password) es := by
  intro h
  have hrun := h Bool asciiLowerCase hosts (fun _ => none) (fun _ => none)
    (ask true (txt ['a']) ++ ask false (txt ['a']) ++ create true ++ create false)
  revert hrun
  decide

end Wedcast.CreateFeed
