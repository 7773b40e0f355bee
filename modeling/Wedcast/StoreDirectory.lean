import Wedcast.StoreRuns

/-!
What the database is for: a directory of casts and of who belongs to them.

The directory knows no paths and no records. Creating a cast registers it, joining and leaving
change the set of its members, and what a search opens follows from the two. As long as no field is
written without its record, the tree of the database answers every search of every user as the
directory does.
-/

namespace Wedcast.Store

open Runs

@[ext]
structure Directory where
  cast : Text → Option ChatInfo
  members : Text → Set Text

namespace Directory

/-- The directory after a write; what is written elsewhere is not its business. -/
def after (d : Directory) : StoreWrite → Directory
  | .record _ (.chatInfo castId feed) =>
    { d with cast := Function.update d.cast castId (some feed) }
  | .avatarUri castId avatarUri =>
    let feed := (d.cast castId).map fun feed => { feed with avatarUri := some avatarUri }
    { d with cast := Function.update d.cast castId feed }
  | .record _ (.member castId uid _) =>
    { d with members := Function.update d.members castId (insert uid (d.members castId)) }
  | .record _ (.removeMember castId uid) =>
    { d with members := Function.update d.members castId (d.members castId \ {uid}) }
  | _ => d

open Classical in
/-- What a search of the user opens. -/
noncomputable def opens (d : Directory) (uid feedId : Text) : Menu.Opened :=
  let castId := Menu.key feedId
  match d.cast castId with
  | none => .notFound feedId
  | some feed =>
    if uid ∈ d.members castId then .weddingDetails castId feed.feedName
    else .privateFeed feed feed.owner castId

lemma after_cast {d : Directory} {w : StoreWrite} {castId : Text} (h : w.node ≠ .chatInfo castId) :
    (d.after w).cast castId = d.cast castId := by
  cases w with
  | record key write => cases write <;> simp_all [after, StoreWrite.node, eq_comm]
  | _ => simp_all [after, StoreWrite.node, eq_comm]

lemma after_members {d : Directory} {w : StoreWrite} {castId uid : Text}
    (h : w.node ≠ .member castId uid) :
    uid ∈ (d.after w).members castId ↔ uid ∈ d.members castId := by
  cases w with
  | record key write =>
    cases write with
    | member c u userObj | removeMember c u =>
      by_cases hc : castId = c
      · subst hc
        have hu : uid ≠ u := fun hu => h (by rw [hu]; rfl)
        simp [after, hu]
      · simp [after, hc]
    | _ => rfl
  | _ => rfl

end Directory

/-- `goToFeed` on the database, both of its reads answered. -/
def goToFeed (db : Value) (uid feedId : Text) : Option Menu.Opened :=
  Menu.goToFeed (fun castId => readChatInfo (db.child (Node.chatInfo castId).path))
    (fun castId => .value (decide (HasPermission db castId uid))) feedId

/-- The directory the database stands for. -/
def directory (db : Value) : Directory where
  cast castId := readChatInfo (db.child (Node.chatInfo castId).path)
  members castId := {uid | HasPermission db castId uid}

lemma goToFeed_eq (db : Value) (uid feedId : Text) :
    goToFeed db uid feedId = some ((directory db).opens uid feedId) := by
  simp only [goToFeed, Menu.goToFeed, Directory.opens, directory]
  cases readChatInfo (db.child (Node.chatInfo (Menu.key feedId)).path) with
  | none => rfl
  | some feed => by_cases h : HasPermission db (Menu.key feedId) uid <;> simp [h]

/-- No field is written without its record. -/
def Inside (db : Value) (w : IssuedWrite) : Prop :=
  AvatarInside db w ∧ ∀ castId uid, OnlineInside castId uid db w

/-- **One write**, on the database and on the directory. -/
theorem directory_step {db db' : Value} {w : IssuedWrite} (hg : Inside db w)
    (hs : step db w = some db') : directory db' = (directory db).after w.write := by
  have hcast : (directory db').cast = ((directory db).after w.write).cast := by
    funext c
    have hchild := step_child hs (.chatInfo c)
    by_cases hn : w.write.node = .chatInfo c
    · rw [if_pos hn] at hchild
      simp only [directory, hchild]
      rcases StoreWrite.chatInfo_cases hn with ⟨key, feed, hw⟩ | ⟨avatarUri, hw⟩
      · simp [hw, Directory.after, StoreWrite.below, StoreWrite.value, readChatInfo_chatInfo]
      · simp [hw, Directory.after, StoreWrite.below, StoreWrite.value, readChatInfo_set]
    · rw [if_neg hn] at hchild
      rw [Directory.after_cast hn]
      simp only [directory, hchild]
  have hmembers : (directory db').members = ((directory db).after w.write).members := by
    funext c
    ext u
    have hchild := step_child hs (.member c u)
    by_cases hn : w.write.node = .member c u
    · rw [if_pos hn] at hchild
      simp only [directory, Set.mem_ofPred_eq, HasPermission, hchild]
      rcases StoreWrite.member_cases hn with ⟨key, userObj, hw⟩ | ⟨key, hw⟩ | ⟨value, hw⟩
      · obtain ⟨o, ho⟩ := w.issued
        rw [hw] at ho
        simp [hw, Directory.after, StoreWrite.below, StoreWrite.value, Operation.record_member ho]
      · simp [hw, Directory.after, StoreWrite.below, StoreWrite.value, PathTree.isNull_null]
      · have hset := PathTree.not_isNull_set (PathTree.not_isNull_val (.bool value))
          (db.child (Node.member c u).path) [Key.online]
        have hinside : ¬(db.child (Node.member c u).path).IsNull := hg.2 c u value hw
        simp [hw, Directory.after, StoreWrite.below, StoreWrite.value, hset, hinside]
    · rw [if_neg hn] at hchild
      rw [Directory.after_members hn]
      simp only [directory, Set.mem_ofPred_eq, HasPermission, hchild]
  exact Directory.ext hcast hmembers

/-- The directory along a history. -/
noncomputable def following (x : Value × Directory) (w : IssuedWrite) (_ : Value) : Directory :=
  x.2.after w.write

noncomputable def answering : Invariant (noting step following) fun x w => Inside x.1 w where
  holds x := WellFormed x.1 ∧ x.2 = directory x.1
  preserved {x y w} h hg hs := by
    obtain ⟨hstep, hnote⟩ := noting_some hs
    refine ⟨(wellFormed_step h.1 hstep).mpr hg.1, ?_⟩
    rw [hnote, following, h.2, directory_step hg hstep]

/-- **Every search is answered as by the directory**, along every history in which no field is
written without its record, and every cast that is there can be read. -/
theorem goToFeed_eq_opens {db : Value} (h : WellFormed db) {ws : List IssuedWrite}
    (hws : Along step Inside db ws) :
    Throughout (noting step following) (fun x => WellFormed x.1 ∧
        ∀ uid feedId, goToFeed x.1 uid feedId = some (x.2.opens uid feedId))
      (db, directory db) ws := by
  have hnoting : Along (noting step following) (fun x w => Inside x.1 w) (db, directory db) ws :=
    along_noting.mpr hws
  refine answering.throughout (fun x hx => ⟨hx.1, fun uid feedId => ?_⟩) ⟨h, rfl⟩ hnoting
  rw [goToFeed_eq, hx.2]

/-- A guest of the cast `a` joins it. -/
def joins : IssuedWrite where
  write := .record [] (.member (txt ['a']) (txt ['g'])
    ⟨none, none, some (txt ['p'])⟩)
  clean := by decide
  issued := ⟨.requestAccess ⟨txt ['g'], none, none, true⟩ (txt ['a']) (txt ['p']) Membership.wedding,
    List.mem_cons_self⟩

theorem goToFeed_eq_opens_guest :
    Throughout (noting step following) (fun x => WellFormed x.1 ∧
        ∀ uid feedId, goToFeed x.1 uid feedId = some (x.2.opens uid feedId))
      (.null, directory .null) [createsCast, joins] := by
  have hnull : WellFormed .null := fun castId h => absurd PathTree.isNull_null h
  refine goToFeed_eq_opens hnull ?_
  refine fun db _ => ⟨⟨?_, ?_⟩, fun db _ => ⟨⟨?_, ?_⟩, trivial⟩⟩
  · rintro castId avatarUri ⟨⟩
  · rintro castId uid value ⟨⟩
  · rintro castId avatarUri ⟨⟩
  · rintro castId uid value ⟨⟩

end Wedcast.Store
