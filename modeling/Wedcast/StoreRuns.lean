import Wedcast.CastKey
import Wedcast.Lib.History
import Wedcast.StoreOperations

/-!
Histories of the writes that the screens issue, and what every state of the database is like.

A field of a record can be written on its own: the `online` of a member and the `avatarUri` of a
cast. Such a write creates the node where there is none, and the screens take an existing node for
a whole record. So a user is let into a cast, and a cast is listed, as it should be exactly as long
as no field is written without its record.
-/

namespace Wedcast.Store

open Runs MemberRecords

/-- A write that some operation of a screen issues, with ids that are single segments. -/
structure IssuedWrite where
  write : StoreWrite
  clean : write.Clean
  issued : ∃ o : Operation, write ∈ o.writes

def step (db : Value) (w : IssuedWrite) : Option Value := some (db.apply w.write.change)

lemma step_child {db db' : Value} {w : IssuedWrite} (h : step db w = some db') (n : Node) :
    db'.child n.path = if w.write.node = n then
      (db.child n.path).set w.write.below w.write.value else db.child n.path := by
  obtain rfl := Option.some.inj h
  exact w.clean.child_apply db n

/-- A write of `chatInfo` holds the castId it is written under. -/
lemma Operation.castId_eq {o : Operation} {key castId : Text} {feed : ChatInfo}
    (h : .record key (.chatInfo castId feed) ∈ o.writes) : feed.castId = castId := by
  cases o with
  | createFeed newFeedId key' s =>
    obtain ⟨write, hwrite, hw⟩ := List.mem_map.mp h
    obtain ⟨rfl, rfl⟩ := StoreWrite.record.inj hw
    obtain ⟨newFeed, userObj, hcastId, -, heq | heq | heq | heq⟩ :=
      CreateFeed.mem_createFeed_cases hwrite
    · obtain ⟨rfl, rfl⟩ := Write.chatInfo.inj heq
      exact hcastId
    all_goals cases heq
  | _ => simp [Operation.writes] at h

/-- A whole record that an operation writes is the `userObj` of one of the three writers. -/
lemma Operation.exists_userObj {o : Operation} {key castId uid : Text} {userObj : MemberRecord}
    (h : .record key (.member castId uid userObj) ∈ o.writes) :
    ∃ writer user, userObj = Writer.userObj user writer := by
  cases o with
  | createFeed newFeedId key' s =>
    obtain ⟨write, hwrite, hw⟩ := List.mem_map.mp h
    obtain ⟨rfl, rfl⟩ := StoreWrite.record.inj hw
    exact ⟨.createFeed s.password, s.currentUser, eq_of_mem_createFeed hwrite⟩
  | requestAccess | handleLogin =>
    simp only [Operation.writes, List.mem_cons, StoreWrite.record.injEq, Write.member.injEq,
      reduceCtorEq, and_false, List.not_mem_nil, or_false, false_or] at h
    exact ⟨_, _, h.2.2.2⟩
  | _ => simp [Operation.writes] at h

/-- It has a password, so it is not dropped as an empty object. -/
lemma Operation.record_member {o : Operation} {key castId uid : Text} {userObj : MemberRecord}
    (h : .record key (.member castId uid userObj) ∈ o.writes) : ¬(member userObj).IsNull := by
  obtain ⟨writer, user, rfl⟩ := Operation.exists_userObj h
  obtain ⟨password, hpassword⟩ := writer.userObj_password user
  exact not_isNull_member hpassword

/-! ### Who is let into a cast -/

/-- `hasPermission` of `goToFeed`: the record of the user is not null. -/
def HasPermission (db : Value) (castId uid : Text) : Prop :=
  ¬(db.child (Node.member castId uid).path).IsNull

instance (db : Value) (castId uid : Text) : Decidable (HasPermission db castId uid) :=
  inferInstanceAs (Decidable (¬_))

/-- Whether the user is a member, by the writes of whole records. -/
def joined (castId uid : Text) (x : Value × Bool) (w : IssuedWrite) (_ : Value) : Bool :=
  match w.write with
  | .record _ write => Membership.memberAfter uid castId x.2 write
  | _ => x.2

/-- The `online` of the user is written where there is a record. -/
def OnlineInside (castId uid : Text) (db : Value) (w : IssuedWrite) : Prop :=
  ∀ value, w.write = .online castId uid value → HasPermission db castId uid

/-- The writes to the record of a member. -/
lemma StoreWrite.member_cases {w : StoreWrite} {castId uid : Text}
    (h : w.node = .member castId uid) :
    (∃ key userObj, w = .record key (.member castId uid userObj)) ∨
      (∃ key, w = .record key (.removeMember castId uid)) ∨ ∃ value, w = .online castId uid value := by
  cases w with
  | record key write =>
    cases write with
    | member c u userObj =>
      obtain ⟨rfl, rfl⟩ := Node.member.inj h
      exact .inl ⟨key, userObj, rfl⟩
    | removeMember c u =>
      obtain ⟨rfl, rfl⟩ := Node.member.inj h
      exact .inr (.inl ⟨key, rfl⟩)
    | _ => cases h
  | online c u value =>
    obtain ⟨rfl, rfl⟩ := Node.member.inj h
    exact .inr (.inr ⟨value, rfl⟩)
  | _ => cases h

/-- A write to another node changes neither side. -/
lemma joined_of_node_ne {castId uid : Text} {w : IssuedWrite}
    (h : w.write.node ≠ .member castId uid) (x : Value × Bool) (db : Value) :
    joined castId uid x w db = x.2 := by
  unfold joined
  split
  · rename_i key write hw
    rw [hw] at h
    cases write <;> grind [StoreWrite.node, Membership.memberAfter]
  · rfl

lemma hasPermission_step {castId uid : Text} {x y : Value × Bool} {w : IssuedWrite}
    (h : HasPermission x.1 castId uid ↔ x.2) (hs : noting step (joined castId uid) x w = some y) :
    (HasPermission y.1 castId uid ↔ y.2) ↔ OnlineInside castId uid x.1 w := by
  obtain ⟨hstep, hnote⟩ := noting_some hs
  have hchild := step_child hstep (.member castId uid)
  by_cases hn : w.write.node = .member castId uid
  · rw [if_pos hn] at hchild
    rw [hnote, joined, HasPermission, hchild]
    rcases StoreWrite.member_cases hn with ⟨key, userObj, hw⟩ | ⟨key, hw⟩ | ⟨value, hw⟩
    · obtain ⟨o, ho⟩ := w.issued
      rw [hw] at ho
      have hrecord := Operation.record_member ho
      simp [hw, OnlineInside, StoreWrite.below, StoreWrite.value, Membership.memberAfter, hrecord]
    · simp [hw, OnlineInside, StoreWrite.below, StoreWrite.value, Membership.memberAfter,
        PathTree.isNull_null]
    · have hset := PathTree.not_isNull_set (PathTree.not_isNull_val (.bool value))
        (x.1.child (Node.member castId uid).path) [Key.online]
      simp [hw, OnlineInside, StoreWrite.below, StoreWrite.value, hset, h]
  · rw [if_neg hn] at hchild
    rw [hnote, joined_of_node_ne hn, HasPermission, hchild]
    refine iff_of_true h fun value hw => absurd ?_ hn
    rw [hw]
    rfl

def letting (castId uid : Text) : Invariant (noting step (joined castId uid))
    fun x w => OnlineInside castId uid x.1 w where
  holds x := HasPermission x.1 castId uid ↔ x.2
  preserved h hg hs := (hasPermission_step h hs).mpr hg

/-- **Who is let in.** In every state of a history the user is let into the cast just when the
last whole record says so, exactly if the user's `online` is only ever written inside a record:
where a guest has left before, the flag alone opens the cast again. -/
theorem hasPermission_iff_onlineInside (db : Value) (castId uid : Text) (ws : List IssuedWrite) :
    Throughout (noting step (joined castId uid)) (fun x => HasPermission x.1 castId uid ↔ x.2)
        (db, decide (HasPermission db castId uid)) ws ↔
      Along step (OnlineInside castId uid) db ws := by
  have hnoting : Along (noting step (joined castId uid)) (fun x w => OnlineInside castId uid x.1 w)
      (db, decide (HasPermission db castId uid)) ws ↔ Along step (OnlineInside castId uid) db ws :=
    along_noting
  rw [← hnoting]
  refine (letting castId uid).throughout_iff (fun _ hx => hx) ?_ (by simp [letting])
  exact fun x w y hx hs hy => (hasPermission_step hx hs).mp hy

/-! ### Which casts there are -/

/-- Every `chatInfo` can be read, and holds its own castId. -/
def WellFormed (db : Value) : Prop :=
  ∀ castId, ¬(db.child (Node.chatInfo castId).path).IsNull →
    ∃ feed, readChatInfo (db.child (Node.chatInfo castId).path) = some feed ∧ feed.castId = castId

/-- The `avatarUri` of a cast is written where there is a `chatInfo`. -/
def AvatarInside (db : Value) (w : IssuedWrite) : Prop :=
  ∀ castId avatarUri, w.write = .avatarUri castId avatarUri →
    ¬(db.child (Node.chatInfo castId).path).IsNull

lemma readChatInfo_null : readChatInfo .null = none := rfl

/-- The `avatarUri` alone can be set in a `chatInfo`. -/
lemma readChatInfo_set (t v : Value) : readChatInfo (t.set [Key.avatarUri] v) =
    (readChatInfo t).map fun feed => { feed with avatarUri := (v.leaf []).bind Leaf.str? } := by
  have hfield : ∀ key, key ≠ Key.avatarUri → field (t.set [Key.avatarUri] v) key = field t key :=
    fun key hkey => by rw [field_set, if_neg hkey]
  have havatar : field (t.set [Key.avatarUri] v) Key.avatarUri = v.leaf [] := by
    rw [field_set, if_pos rfl]
  simp only [readChatInfo, havatar]
  rw [hfield Key.feedId (by decide), hfield Key.owner (by decide), hfield Key.feedName (by decide),
    hfield Key.castType (by decide), hfield Key.castId (by decide),
    hfield Key.startedAt (by decide)]
  simp [Option.map_bind]

/-- The writes to a `chatInfo`. -/
lemma StoreWrite.chatInfo_cases {w : StoreWrite} {castId : Text}
    (h : w.node = .chatInfo castId) :
    (∃ key feed, w = .record key (.chatInfo castId feed)) ∨
      ∃ avatarUri, w = .avatarUri castId avatarUri := by
  cases w with
  | record key write =>
    cases write with
    | chatInfo c feed =>
      obtain rfl := Node.chatInfo.inj h
      exact .inl ⟨key, feed, rfl⟩
    | _ => cases h
  | avatarUri c uri =>
    obtain rfl := Node.chatInfo.inj h
    exact .inr ⟨uri, rfl⟩
  | _ => cases h

lemma wellFormed_step {db db' : Value} {w : IssuedWrite} (h : WellFormed db)
    (hs : step db w = some db') : WellFormed db' ↔ AvatarInside db w := by
  constructor
  · intro h' castId avatarUri hw hnull
    have hn : w.write.node = .chatInfo castId := by
      rw [hw]
      rfl
    have hchild := step_child hs (.chatInfo castId)
    rw [if_pos hn, PathTree.eq_null hnull, hw] at hchild
    -- the node has the field only, so it is there and cannot be read
    have hsome : ¬(db'.child (Node.chatInfo castId).path).IsNull := by
      rw [hchild]
      exact PathTree.not_isNull_set (PathTree.not_isNull_val _) _ _
    obtain ⟨feed, hread, -⟩ := h' castId hsome
    rw [hchild] at hread
    exact absurd ((readChatInfo_set .null _).symm.trans hread) (by simp [readChatInfo_null])
  · intro hg castId hsome
    have hchild := step_child hs (.chatInfo castId)
    by_cases hn : w.write.node = .chatInfo castId
    · rw [if_pos hn] at hchild
      rcases StoreWrite.chatInfo_cases hn with ⟨key, feed, hw⟩ | ⟨avatarUri, hw⟩
      · obtain ⟨o, ho⟩ := w.issued
        rw [hw] at ho
        refine ⟨feed, ?_, Operation.castId_eq ho⟩
        rw [hchild, hw]
        simp [StoreWrite.below, StoreWrite.value, readChatInfo_chatInfo]
      · obtain ⟨feed, hread, hkey⟩ := h castId (hg castId avatarUri hw)
        rw [hchild, hw]
        simp [StoreWrite.below, StoreWrite.value, readChatInfo_set, hread, hkey]
    · rw [if_neg hn] at hchild
      rw [hchild] at hsome ⊢
      exact h castId hsome

def forming : Invariant step AvatarInside where
  holds := WellFormed
  preserved h hg hs := (wellFormed_step h hs).mpr hg

/-- **The casts stay readable.** Every `chatInfo` can be read and is found under the castId it
holds, in every state of a history, exactly if no `avatarUri` is written to a cast that is not
there. -/
theorem wellFormed_iff_avatarInside {db : Value} (h : WellFormed db) (ws : List IssuedWrite) :
    Throughout step WellFormed db ws ↔ Along step AvatarInside db ws :=
  forming.throughout_iff (fun _ hdb => hdb) (fun _ _ _ hdb hs h' => (wellFormed_step hdb hs).mp h') h

/-- The host of the cast `a` creates it. -/
def createsCast : IssuedWrite where
  write := .record (txt ['k']) (.chatInfo (txt ['a'])
    ⟨txt ['i'], txt ['h'], txt ['A'], 0, txt ['a'], none, .serverTimestamp⟩)
  clean := by decide
  issued := ⟨twoUsers true, List.mem_cons_self⟩

/-- The cast gets a photo. -/
def setsAvatar : IssuedWrite where
  write := .avatarUri (txt ['a']) (txt ['x'])
  clean := by decide
  issued := ⟨.returnData (txt ['h']) (txt ['a']) (txt ['x']), List.mem_cons_self⟩

theorem wellFormed_iff_avatarInside_photo :
    ¬Throughout step WellFormed .null [setsAvatar, createsCast] := by
  have hnull : WellFormed .null := fun castId h => absurd PathTree.isNull_null h
  rw [wellFormed_iff_avatarInside hnull]
  intro h
  exact (h _ rfl).1 _ _ rfl PathTree.isNull_null

end Wedcast.Store
