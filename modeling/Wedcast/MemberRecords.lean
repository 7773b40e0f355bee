import Wedcast.CreateFeed
import Wedcast.FeedUsers
import Wedcast.Membership

/-!
From the profile of a user to the row of a member in `FeedUsers`.

Three screens write a whole record under `members`, each from the profile of its user, `Main`
writes the `online` of a record, and `WeddingDetails` removes the record of a guest who leaves. The
screens take the picture from `photoUrl`, which a user does not have, and the row looks for it under
`avatarUri`, which no screen writes. So a row has the name of its member and never the picture.
-/

namespace Wedcast.MemberRecords

open FeedUsers Wedcast.Membership

/-- The handlers that write a whole record, with the password they store in it. -/
inductive Writer where
  | createFeed (password : Text)
  | requestAccess (password : Text)
  | handleLogin
  deriving DecidableEq

/-- The `userObj` of the handler. -/
def Writer.userObj (user : User) : Writer → MemberRecord
  | .createFeed password =>
    { userName := user.displayName, avatar := none, password := some password }
  | .requestAccess password =>
    { userName := user.displayName, avatar := user.photoUrl, password := some password }
  | .handleLogin =>
    { userName := user.displayName
      avatar := user.photoUrl
      password := some (txt ['w', 'e', 'd', 'c', 'a', 's', 't']) }

lemma createFeed_member (newFeedId : Text) {s : CreateFeed.State} (h : s.signedIn) :
    .member (dropHash s.castId) s.currentUser.uid (Writer.userObj s.currentUser
      (.createFeed s.password)) ∈ CreateFeed.createFeed newFeedId s := by
  simp [CreateFeed.createFeed, Writer.userObj, h]

lemma Writer.userObj_password (writer : Writer) (user : User) :
    ∃ password, (writer.userObj user).password = some password := by
  cases writer <;> exact ⟨_, rfl⟩

/-- The only record that `createFeed` writes. -/
lemma eq_of_mem_createFeed {newFeedId castId uid : Text} {s : CreateFeed.State}
    {userObj : MemberRecord} (h : .member castId uid userObj ∈ CreateFeed.createFeed newFeedId s) :
    userObj = Writer.userObj s.currentUser (.createFeed s.password) := by
  rw [CreateFeed.createFeed] at h
  split_ifs at h <;> simp_all [Writer.userObj]

lemma requestAccess_issue (user : User) (castId password : Text) (feed : ChatInfo) (w : World) :
    requestAccess user castId password feed w = w.issue user.uid
      [⟨.member castId user.uid (Writer.userObj user (.requestAccess password)), none⟩,
        ⟨.feedList user.uid castId feed, none⟩] := rfl

lemma handleLogin_issue (user : User) (w : World) :
    handleLogin user w = w.issue user.uid
      [⟨.member exampleId user.uid (Writer.userObj user .handleLogin),
        some (.feedList user.uid exampleId exampleWedcast)⟩] := rfl

/-- A write to the record of one member. -/
inductive RecordWrite where
  | set (writer : Writer) (user : User)
  /-- `Main` sets the `online` of the record. -/
  | setOnline (online : Bool)
  /-- `leaveWedding` removes the record. -/
  | remove
  deriving DecidableEq

/-- The value under `members/<uid>` after the write, from the value before. -/
def RecordWrite.apply (m : Option Member) : RecordWrite → Option Member
  | .set writer user =>
    let userObj := writer.userObj user
    some
      { userName := userObj.userName
        avatar := userObj.avatar
        avatarUri := none
        castId := none
        password := userObj.password
        online := none }
  | .setOnline online =>
    some { m.getD ⟨none, none, none, none, none, none⟩ with online := some online }
  | .remove => none

/-- The value after a history of writes. -/
def written (m : Option Member) (ws : List RecordWrite) : Option Member :=
  ws.foldl RecordWrite.apply m

/-- The profile the whole record is built from, after the write. -/
def RecordWrite.profile (user : Option User) : RecordWrite → Option User
  | .set _ user => some user
  | .setOnline _ => user
  | .remove => none

/-- The profile of the last whole record, as long as the record has not been removed since. -/
def latestProfile (ws : List RecordWrite) : Option User :=
  ws.foldl RecordWrite.profile none

/-- The row shows the name and the picture of the profile. -/
def Decodes (item : Member) (user : User) : Prop :=
  (renderItem item).title = user.displayName ∧ (renderItem item).source = user.photoURL

instance (item : Member) (user : User) : Decidable (Decodes item user) :=
  inferInstanceAs (Decidable (_ ∧ _))

lemma written_concat (m : Option Member) (ws : List RecordWrite) (w : RecordWrite) :
    written m (ws ++ [w]) = w.apply (written m ws) := by
  rw [written, List.foldl_append]
  rfl

lemma latestProfile_concat (ws : List RecordWrite) (w : RecordWrite) :
    latestProfile (ws ++ [w]) = w.profile (latestProfile ws) := by
  rw [latestProfile, List.foldl_append]
  rfl

/-- The last whole record leaves its name and no picture, and `online` changes neither. -/
lemma written_row {m : Option Member} {ws : List RecordWrite} {user : User}
    (h : latestProfile ws = some user) :
    ∃ item, written m ws = some item ∧ (renderItem item).title = user.displayName ∧
      (renderItem item).source = none := by
  induction ws using List.reverseRecOn with
  | nil => simp [latestProfile] at h
  | append_singleton ws w ih =>
    rw [written_concat]
    rw [latestProfile_concat] at h
    cases w with
    | set writer user' =>
      obtain rfl := Option.some.inj h
      exact ⟨_, rfl, by cases writer <;> rfl, rfl⟩
    | setOnline online =>
      obtain ⟨item, hitem, htitle, hsource⟩ := ih h
      rw [hitem]
      exact ⟨_, rfl, htitle, hsource⟩
    | remove => cases h

/-- **The row of a member** shows the profile of the last whole record exactly when that profile
has no picture. -/
theorem decodes_iff_no_photo (m : Option Member) (ws : List RecordWrite) (user : User)
    (h : latestProfile ws = some user) :
    ∃ item, written m ws = some item ∧ (Decodes item user ↔ user.photoURL = none) := by
  obtain ⟨item, hitem, htitle, hsource⟩ := written_row (m := m) h
  refine ⟨item, hitem, ?_⟩
  rw [Decodes, htitle, hsource]
  simp [eq_comm]

/-- A user with a name and without a picture. -/
def plainUser : User := ⟨txt ['v'], some (txt ['B', 'o', 'b']), none, true⟩

/-- A host who leaves the cast, comes back as a guest and opens the camera. -/
def hostAndGuest : List RecordWrite :=
  [.set (.createFeed (txt ['p'])) plainUser, .remove, .set (.requestAccess (txt ['p'])) plainUser,
    .setOnline true]

theorem decodes_iff_no_photo_plain :
    ∃ item, written none hostAndGuest = some item ∧ Decodes item plainUser := by
  obtain ⟨item, hitem, hiff⟩ := decodes_iff_no_photo none hostAndGuest plainUser (by decide)
  exact ⟨item, hitem, hiff.mpr rfl⟩

/-- **The picture is lost.** A guest with a picture asks for access. -/
theorem not_always_decodes :
    ¬∀ (ws : List RecordWrite) (user : User), latestProfile ws = some user →
      ∃ item, written none ws = some item ∧ Decodes item user := by
  intro h
  have hrun := h [.set (.requestAccess (txt ['p'])) { plainUser with photoURL := some (txt ['x']) }]
    { plainUser with photoURL := some (txt ['x']) } (by decide)
  obtain ⟨item, hitem, hrow⟩ := hrun
  obtain rfl := Option.some.inj hitem
  revert hrow
  decide

end Wedcast.MemberRecords
