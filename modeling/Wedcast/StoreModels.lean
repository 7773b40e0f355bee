import Wedcast.CreateFeedClients
import Wedcast.StoreRuns

/-!
The databases of the wizards and of the guests as views of the tree.

The modules on creating, joining and leaving a cast keep only the values their screens deal with,
as functions of the ids. Along every run these are what can be read from the tree that has been
through the same writes, with the writes of the other screens in between.
-/

namespace Wedcast

open Runs

/-! ### The wizards -/

namespace CreateFeed

open Store

variable {ι : Type*} {L : LowerCase}

/-- What the tree holds of the casts is what the world says. -/
def World.Shows (w : World ι) (db : Value) : Prop :=
  ∀ castId, readChatInfo (db.child (Node.chatInfo castId).path) = w.chatInfo castId ∧
    readText (db.child (Node.password castId).path) = w.password castId

lemma World.Shows.apply {w : World ι} {db : Value} (h : w.Shows db) {key : Text} {write : Write}
    (hclean : (StoreWrite.record key write).Clean) :
    (w.apply write).Shows (db.apply (StoreWrite.record key write).change) := by
  intro c
  rw [hclean.child_apply, hclean.child_apply]
  cases write with
  | chatInfo castId feed =>
    by_cases hc : castId = c
    · subst hc
      simp [World.apply, StoreWrite.node, StoreWrite.below, StoreWrite.value,
        readChatInfo_chatInfo, (h castId).2]
    · simp [World.apply, StoreWrite.node, hc, Ne.symm hc, h c]
  | password castId pw =>
    by_cases hc : castId = c
    · subst hc
      simp [World.apply, StoreWrite.node, StoreWrite.below, StoreWrite.value, (h castId).1]
    · simp [World.apply, StoreWrite.node, hc, Ne.symm hc, h c]
  | _ => simpa [World.apply, StoreWrite.node] using h c

/-- The tree after the writes that the database has applied; `key` is the one `push` draws. -/
def World.tree (key : ι × Write → Text) (db : Value) (w : World ι) : Value :=
  carryOut db (w.applied.reverse.map fun x => .record (key x) x.2)

variable [DecidableEq ι]

/-- The world shows the tree of its own writes. -/
def showing (L : LowerCase) (key : ι × Write → Text) (db : Value) :
    Invariant (World.step (ι := ι) L) (fun _ _ => True) where
  holds w := (∀ x ∈ w.applied, (StoreWrite.record (key x) x.2).Clean) → w.Shows (w.tree key db)
  preserved {w w' e} h _ hs hclean := by
    cases e with
    | client j e =>
      obtain ⟨-, s', -, ⟨-, rfl⟩ | ⟨newFeedId, -, rfl⟩⟩ := step_client hs
      · exact h hclean
      · exact h hclean
    | serve j i =>
      obtain ⟨r, s', -, -, rfl⟩ := step_serve hs
      exact h hclean
    | apply k =>
      obtain ⟨x, -, rfl⟩ := Option.map_eq_some_iff.mp hs
      obtain ⟨hx, happlied⟩ := List.forall_mem_cons.mp hclean
      have htree : World.tree key db { w with applied := x :: w.applied } =
          (w.tree key db).apply (StoreWrite.record (key x) x.2).change := by
        rw [World.tree, List.reverse_cons, List.map_append]
        exact carryOut_concat db _ _
      exact htree ▸ (h happlied).apply hx
    | mount j =>
      obtain rfl := Option.some.inj hs
      exact h hclean

/-- **The world of the wizards is the tree.** In every state that any number of wizards reach, the
casts and passwords of the world are what can be read of the tree after the writes it has applied,
each under its path. -/
theorem shows_tree (L : LowerCase) (users : ι → User) (chatInfo : Text → Option ChatInfo)
    (password : Text → Option Text) (key : ι × Write → Text) {db : Value}
    (hdb : (World.init users chatInfo password).Shows db) {es : List (WorldEvent ι)} {w : World ι}
    (hrun : run (World.step L) (World.init users chatInfo password) es = some w)
    (hclean : ∀ x ∈ w.applied, (StoreWrite.record (key x) x.2).Clean) : w.Shows (w.tree key db) :=
  (showing L key db).of_run (fun _ => hdb) (along_true _ _) hrun hclean

/-- A host creates the cast `a`. -/
theorem shows_tree_host :
    ∃ w, run (World.step asciiLowerCase) (World.init hosts (fun _ => none) fun _ => none)
        (ask true (txt ['a']) ++ create true) = some w ∧
      w.Shows (w.tree (fun _ => txt ['k']) .null) := by
  have hsome : (run (World.step asciiLowerCase) (World.init hosts (fun _ => none) fun _ => none)
      (ask true (txt ['a']) ++ create true)).isSome := by decide
  have hclean : ∀ w ∈ run (World.step asciiLowerCase)
      (World.init hosts (fun _ => none) fun _ => none) (ask true (txt ['a']) ++ create true),
      ∀ x ∈ w.applied, (StoreWrite.record (txt ['k']) x.2).Clean := by decide
  obtain ⟨w, hw⟩ := Option.isSome_iff_exists.mp hsome
  exact ⟨w, hw, shows_tree asciiLowerCase hosts _ _ _ (fun _ => ⟨rfl, rfl⟩) hw (hclean w hw)⟩

end CreateFeed

/-! ### The guests -/

namespace Membership

open Store

/-- An event of the guests, or a write of another screen. -/
abbrev StoreEvent := Event ⊕ IssuedWrite

def stepAmong (w : World) : StoreEvent → Option World
  | .inl e => step w e
  | .inr _ => some w

/-- The tree along a run: it carries out every write that is accepted. -/
def tree (x : World × Value) (e : StoreEvent) (_ : World) : Value :=
  match e with
  | .inl (.settle uid true) =>
    match x.1.pending uid with
    | i :: _ => x.2.apply (StoreWrite.record [] i.write).change
    | [] => x.2
  | .inl _ => x.2
  | .inr w => x.2.apply w.write.change

/-- What the screens read of a member's own record. -/
def readRecord (t : Value) : Option MemberRecord :=
  (readMember t).map fun m => ⟨m.userName, m.avatar, m.password⟩

/-- What the tree holds of the guests is what the world says. -/
def World.Shows (w : World) (db : Value) : Prop :=
  ∀ uid castId, readRecord (db.child (Node.member castId uid).path) = w.member castId uid ∧
    readChatInfo (db.child (Node.feedList uid castId).path) = w.feedList uid castId

/-- The write of another screen replaces no record of a guest, and an `online` is written inside a
record. -/
def Elsewhere (db : Value) : StoreWrite → Prop
  | .record _ (.member _ _ _) | .record _ (.removeMember _ _) | .record _ (.feedList _ _ _)
  | .record _ (.removeFeedList _ _) => False
  | .online castId uid _ => HasPermission db castId uid
  | _ => True

/-- The steps that keep the two together; the ids of an accepted write are single segments. -/
def Among (x : World × Value) : StoreEvent → Prop
  | .inl (.settle uid true) =>
    ∀ i ∈ (x.1.pending uid).head?, (StoreWrite.record [] i.write).Clean
  | .inl _ => True
  | .inr w => Elsewhere x.2 w.write

instance (db : Value) : (w : StoreWrite) → Decidable (Elsewhere db w)
  | .record _ (.member _ _ _) | .record _ (.removeMember _ _) | .record _ (.feedList _ _ _)
  | .record _ (.removeFeedList _ _) => isFalse id
  | .online _ _ _ => inferInstanceAs (Decidable (HasPermission _ _ _))
  | .record _ (.chatInfo _ _) | .record _ (.password _ _) | .record _ (.myWedding _ _)
  | .avatarUri _ _ | .newPassword _ _ | .upload _ _ _ | .removeUpload _ _ | .profile _ _ =>
    isTrue trivial

instance (x : World × Value) : (e : StoreEvent) → Decidable (Among x e)
  | .inl (.settle _ true) => inferInstanceAs (Decidable (∀ i ∈ _, _))
  | .inl (.settle _ false) | .inl (.requestAccess _ _ _ _) | .inl (.handleLogin _)
  | .inl (.leaveWedding _ _) | .inl (.callback _) => isTrue trivial
  | .inr w => inferInstanceAs (Decidable (Elsewhere x.2 w.write))

lemma readRecord_member {userObj : MemberRecord} {password : Text}
    (h : userObj.password = some password) : readRecord (member userObj) = some userObj := by
  rw [readRecord, readMember_member userObj h, ← h]
  rfl

lemma readRecord_online {t : Value} (h : ¬t.IsNull) (value : Bool) :
    readRecord (t.set [Key.online] (.val (.bool value))) = readRecord t := by
  rw [readRecord, readMember_online, readRecord, readMember, if_neg h]
  rfl

/-- A record in a write has a password. -/
def Recorded : Write → Prop
  | .member _ _ userObj => ∃ password, userObj.password = some password
  | _ => True

lemma World.Shows.apply {w : World} {db : Value} (h : w.Shows db) {write : Write}
    (hclean : (StoreWrite.record [] write).Clean) (hrecorded : Recorded write) :
    (w.apply write).Shows (db.apply (StoreWrite.record [] write).change) := by
  intro u c
  rw [hclean.child_apply, hclean.child_apply]
  have hold := h u c
  cases write with
  | member castId uid userObj =>
    obtain ⟨password, hpassword⟩ := hrecorded
    by_cases hn : castId = c ∧ uid = u
    · simp [World.apply, set₂_apply, StoreWrite.node, StoreWrite.below, StoreWrite.value, hn, hold,
        readRecord_member hpassword]
    · simp [World.apply, set₂_apply, StoreWrite.node, hn, hold]
  | removeMember castId uid =>
    by_cases hn : castId = c ∧ uid = u
    · simp [World.apply, set₂_apply, StoreWrite.node, StoreWrite.below, StoreWrite.value, hn, hold,
        readRecord, readMember, PathTree.isNull_null]
    · simp [World.apply, set₂_apply, StoreWrite.node, hn, hold]
  | feedList uid castId feed =>
    by_cases hn : uid = u ∧ castId = c
    · simp [World.apply, set₂_apply, StoreWrite.node, StoreWrite.below, StoreWrite.value, hn, hold,
        readChatInfo_chatInfo]
    · simp [World.apply, set₂_apply, StoreWrite.node, hn, hold]
  | removeFeedList uid castId =>
    by_cases hn : uid = u ∧ castId = c
    · simp [World.apply, set₂_apply, StoreWrite.node, StoreWrite.below, StoreWrite.value, hn, hold,
        readChatInfo_null]
    · simp [World.apply, set₂_apply, StoreWrite.node, hn, hold]
  | _ => simpa [World.apply, StoreWrite.node] using hold

/-- A write of another screen. -/
lemma World.Shows.elsewhere {w : World} {db : Value} (h : w.Shows db) {write : StoreWrite}
    (hclean : write.Clean) (hg : Elsewhere db write) : w.Shows (db.apply write.change) := by
  intro u c
  rw [hclean.child_apply, hclean.child_apply]
  have hold := h u c
  cases write with
  | record key write => cases write <;> simp_all [Elsewhere, StoreWrite.node]
  | online castId uid value =>
    refine ⟨?_, by simpa [StoreWrite.node] using hold.2⟩
    split_ifs with hn
    · obtain ⟨rfl, rfl⟩ := Node.member.inj hn
      exact (readRecord_online hg value).trans hold.1
    · exact hold.1
  | _ => simpa [StoreWrite.node] using hold

/-- All records on their way to the database have a password. -/
structure Recording (w : World) : Prop where
  pending : ∀ v, ∀ i ∈ w.pending v, Recorded i.write ∧ ∀ wr ∈ i.onSuccess, Recorded wr
  callbacks : ∀ v, ∀ wr ∈ w.callbacks v, Recorded wr

lemma Recording.issue {w : World} (h : Recording w) {uid : Text} {is : List Issued}
    (his : ∀ i ∈ is, Recorded i.write ∧ ∀ wr ∈ i.onSuccess, Recorded wr) :
    Recording (w.issue uid is) where
  pending := forall_update (a := uid) h.pending _ (List.forall_mem_append.mpr ⟨h.pending uid, his⟩)
  callbacks := h.callbacks

lemma recording_step {w w' : World} {e : Event} (h : Recording w) (hs : step w e = some w') :
    Recording w' := by
  cases e with
  | requestAccess user castId password feed =>
    cases hs
    exact h.issue (by simp [Recorded])
  | handleLogin user =>
    cases hs
    exact h.issue (by simp [Recorded])
  | leaveWedding uid castId =>
    cases hs
    exact h.issue (by simp [Recorded])
  | settle uid accepted =>
    simp only [step] at hs
    cases hp : w.pending uid with
    | nil => simp [hp] at hs
    | cons i rest =>
      simp only [hp] at hs
      have hpending := forall_update (a := uid) h.pending rest fun j hj =>
        h.pending uid j (by simp [hp, hj])
      cases accepted with
      | true =>
        cases hs
        refine ⟨by simpa using hpending, ?_⟩
        refine forall_update (a := uid) h.callbacks _ (List.forall_mem_append.mpr
          ⟨h.callbacks uid, fun wr hwr => ?_⟩)
        exact (h.pending uid i (by simp [hp])).2 wr (by simpa using hwr)
      | false =>
        obtain ⟨-, rfl⟩ : rejectable i.write = true ∧
            { w with pending := Function.update w.pending uid rest } = w' := by
          simpa using hs
        exact ⟨hpending, h.callbacks⟩
  | callback uid =>
    simp only [step] at hs
    cases hcb : w.callbacks uid with
    | nil => simp [hcb] at hs
    | cons wr rest =>
      simp only [hcb, Option.some.injEq] at hs
      subst hs
      have hcallbacks := forall_update (a := uid) h.callbacks rest fun x hx =>
        h.callbacks uid x (by simp [hcb, hx])
      refine Recording.issue
        (w := { w with callbacks := Function.update w.callbacks uid rest }) ⟨h.pending, hcallbacks⟩ ?_
      have hwr := h.callbacks uid wr (by simp [hcb])
      simpa using hwr

/-- One step of the guests. -/
lemma World.Shows.step {w w' : World} {db : Value} (h : w.Shows db) (hr : Recording w) {e : Event}
    (hg : Among (w, db) (.inl e)) (hs : step w e = some w') :
    w'.Shows (tree (w, db) (.inl e) w') := by
  cases e with
  | requestAccess | handleLogin | leaveWedding =>
    cases hs
    exact h
  | settle uid accepted =>
    simp only [Membership.step] at hs
    cases hp : w.pending uid with
    | nil => simp [hp] at hs
    | cons i rest =>
      simp only [hp] at hs
      cases accepted with
      | true =>
        cases hs
        simp only [tree, hp]
        have hi := hr.pending uid i (by simp [hp])
        have hclean := hg i (by simp [hp])
        exact World.Shows.apply (w := { w with pending := Function.update w.pending uid rest }) h
          hclean hi.1
      | false =>
        obtain ⟨-, rfl⟩ : rejectable i.write = true ∧
            { w with pending := Function.update w.pending uid rest } = w' := by
          simpa using hs
        exact h
  | callback uid =>
    simp only [Membership.step] at hs
    cases hcb : w.callbacks uid with
    | nil => simp [hcb] at hs
    | cons wr rest =>
      simp only [hcb, Option.some.injEq] at hs
      subst hs
      exact h

def following : Invariant (noting stepAmong tree) Among where
  holds x := x.1.Shows x.2 ∧ Recording x.1
  preserved {x y e} h hg hs := by
    obtain ⟨hstep, hnote⟩ := noting_some hs
    rw [hnote]
    cases e with
    | inl e => exact ⟨h.1.step h.2 hg hstep, recording_step h.2 hstep⟩
    | inr write =>
      have hworld : x.1 = y.1 := Option.some.inj hstep
      rw [← hworld]
      exact ⟨h.1.elsewhere write.clean hg, h.2⟩

/-- The record of a guest is there just when `goToFeed` lets the guest in. -/
lemma World.Shows.hasPermission {w : World} {db : Value} (h : w.Shows db) (uid castId : Text) :
    HasPermission db castId uid ↔ (w.member castId uid).isSome := by
  rw [← (h uid castId).1, HasPermission, readRecord, Option.isSome_map, readMember]
  split_ifs with hnull <;> simp [hnull]

/-- A guest joins and leaves while the cast gets its photo. -/
def guestAmong : List StoreEvent :=
  [.inl (.requestAccess guest (txt ['a']) (txt ['p']) wedding), .inl (.settle (txt ['u']) true),
    .inr setsAvatar, .inl (.settle (txt ['u']) true), .inl (.leaveWedding (txt ['u']) (txt ['a'])),
    .inl (.settle (txt ['u']) true)]

end Membership

/-! ### The rows of the members -/

namespace MemberRecords

open Store

/-- The write to the record of the member, as the database gets it. -/
def RecordWrite.Issues (castId uid : Text) : RecordWrite → StoreWrite → Prop
  | .set writer user, w => ∃ key, w = .record key (.member castId uid (writer.userObj user))
  | .setOnline online, w => w = .online castId uid online
  | .remove, w => ∃ key, w = .record key (.removeMember castId uid)

lemma readMember_issues {castId uid : Text} {r : RecordWrite} {w : StoreWrite}
    (h : r.Issues castId uid w) (t : Value) :
    readMember (t.set w.below w.value) = r.apply (readMember t) := by
  cases r with
  | set writer user =>
    obtain ⟨key, rfl⟩ := h
    obtain ⟨password, hpassword⟩ := writer.userObj_password user
    have hmember : t.set [] (member (writer.userObj user)) = member (writer.userObj user) :=
      PathTree.set_nil _ _
    have hread := (congrArg readMember hmember).trans (readMember_member _ hpassword)
    rw [← hpassword] at hread
    exact hread
  | setOnline online =>
    cases h
    exact readMember_online t online
  | remove =>
    obtain ⟨key, rfl⟩ := h
    exact congrArg readMember (PathTree.set_nil t .null)

/-- The history of the record is the part of the history that deals with its node. -/
lemma readMember_carryOut {castId uid : Text} {ws : List StoreWrite} {rs : List RecordWrite}
    (hclean : ∀ w ∈ ws, w.Clean)
    (hrs : List.Forall₂ (RecordWrite.Issues castId uid) rs
      (ws.filter fun w => w.node = .member castId uid)) (db : Value) :
    readMember ((carryOut db ws).child (Node.member castId uid).path) =
      written (readMember (db.child (Node.member castId uid).path)) rs := by
  induction ws generalizing db rs with
  | nil =>
    cases hrs
    rfl
  | cons w ws ih =>
    obtain ⟨hw, hws⟩ := List.forall_mem_cons.mp hclean
    have hcarry : carryOut db (w :: ws) = carryOut (db.apply w.change) ws := rfl
    by_cases hn : w.node = .member castId uid
    · rw [List.filter_cons_of_pos (by simpa using hn)] at hrs
      obtain ⟨r, rs, hr, hrest, rfl⟩ := List.forall₂_cons_right_iff.mp hrs
      rw [hcarry, ih hws hrest, hw.child_apply, if_pos hn, readMember_issues hr]
      rfl
    · rw [List.filter_cons_of_neg (by simpa using hn)] at hrs
      rw [hcarry, ih hws hrs, hw.child_apply, if_neg hn]

/-- Every write that a screen issues to the node of a member is a write to the record. -/
lemma exists_issues {castId uid : Text} {w : IssuedWrite}
    (h : w.write.node = .member castId uid) : ∃ r, RecordWrite.Issues castId uid r w.write := by
  obtain ⟨o, ho⟩ := w.issued
  rcases StoreWrite.member_cases h with ⟨key, userObj, hw⟩ | ⟨key, hw⟩ | ⟨value, hw⟩
  · rw [hw] at ho
    obtain ⟨writer, user, rfl⟩ := Operation.exists_userObj ho
    exact ⟨.set writer user, key, hw⟩
  · exact ⟨.remove, key, hw⟩
  · exact ⟨.setOnline value, hw⟩

lemma exists_forall₂_issues (castId uid : Text) (ws : List IssuedWrite) :
    ∃ rs, List.Forall₂ (RecordWrite.Issues castId uid) rs
      ((ws.map IssuedWrite.write).filter fun w => w.node = .member castId uid) := by
  induction ws with
  | nil => exact ⟨[], .nil⟩
  | cons w ws ih =>
    obtain ⟨rs, hrs⟩ := ih
    rw [List.map_cons]
    by_cases hn : w.write.node = .member castId uid
    · obtain ⟨r, hr⟩ := exists_issues hn
      rw [List.filter_cons_of_pos (by simpa using hn)]
      exact ⟨r :: rs, .cons hr hrs⟩
    · rw [List.filter_cons_of_neg (by simpa using hn)]
      exact ⟨rs, hrs⟩

end MemberRecords

end Wedcast
