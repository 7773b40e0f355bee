import Wedcast.CreateFeedFields
import Wedcast.FeedUsers
import Wedcast.Lib.PathTree

/-!
The Realtime Database as one tree, and the writes of the screens by path.

A screen builds the path of a write from a template, and the library splits it at the slashes.
Undefined fields of an object and empty objects are dropped when it is written. What a screen reads
is decoded field by field. Every write belongs to one place: a cast or a user.
-/

namespace Wedcast.Store

open CreateFeed (PathSegment)

/-- A value of the database other than an object. -/
inductive Leaf where
  | str (text : Text)
  | num (n : ℕ)
  | bool (b : Bool)
  /-- The placeholder the server replaces. -/
  | serverTimestamp
  deriving DecidableEq

abbrev Value := PathTree Text Leaf

/-! ### Keys and paths -/

namespace Key

def feeds : Text := txt ['f', 'e', 'e', 'd', 's']
def feedNew : Text := txt ['f', 'e', 'e', 'd', 'N', 'e', 'w']
def users : Text := txt ['u', 's', 'e', 'r', 's']
def chatInfo : Text := txt ['c', 'h', 'a', 't', 'I', 'n', 'f', 'o']
def password : Text := txt ['p', 'a', 's', 's', 'w', 'o', 'r', 'd']
def members : Text := txt ['m', 'e', 'm', 'b', 'e', 'r', 's']
def uploads : Text := txt ['u', 'p', 'l', 'o', 'a', 'd', 's']
def online : Text := txt ['o', 'n', 'l', 'i', 'n', 'e']
def myWedding : Text := txt ['m', 'y', 'W', 'e', 'd', 'd', 'i', 'n', 'g']
def feedList : Text := txt ['f', 'e', 'e', 'd', 'L', 'i', 's', 't']
def profile : Text := txt ['p', 'r', 'o', 'f', 'i', 'l', 'e']
def feedId : Text := txt ['f', 'e', 'e', 'd', 'I', 'd']
def owner : Text := txt ['o', 'w', 'n', 'e', 'r']
def feedName : Text := txt ['f', 'e', 'e', 'd', 'N', 'a', 'm', 'e']
def castType : Text := txt ['c', 'a', 's', 't', 'T', 'y', 'p', 'e']
def castId : Text := txt ['c', 'a', 's', 't', 'I', 'd']
def avatarUri : Text := txt ['a', 'v', 'a', 't', 'a', 'r', 'U', 'r', 'i']
def startedAt : Text := txt ['s', 't', 'a', 'r', 't', 'e', 'd', 'A', 't']
def userName : Text := txt ['u', 's', 'e', 'r', 'N', 'a', 'm', 'e']
def avatar : Text := txt ['a', 'v', 'a', 't', 'a', 'r']
def user : Text := txt ['u', 's', 'e', 'r']
def displayName : Text := txt ['d', 'i', 's', 'p', 'l', 'a', 'y', 'N', 'a', 'm', 'e']
def uid : Text := txt ['u', 'i', 'd']
def photoURL : Text := txt ['p', 'h', 'o', 't', 'o', 'U', 'R', 'L']
def uri : Text := txt ['u', 'r', 'i']
def width : Text := txt ['w', 'i', 'd', 't', 'h']
def height : Text := txt ['h', 'e', 'i', 'g', 'h', 't']

end Key

/-- The string a template with the given parts builds. -/
def template (parts : List Text) : Text := [ch '/'].intercalate parts

/-- The keys a path leads along: empty segments are skipped. -/
def segments (path : Text) : List Text := (path.splitOn (ch '/')).filter (· ≠ [])

/-- **A path of clean segments** leads along the parts it was built from. -/
lemma segments_template {parts : List Text} (h : ∀ part ∈ parts, PathSegment part) :
    segments (template parts) = parts := by
  have hkeep : parts.filter (· ≠ []) = parts :=
    List.filter_eq_self.mpr fun part hpart => by simpa using (h part hpart).1
  cases parts with
  | nil => rfl
  | cons part rest =>
    have hslash : ∀ p ∈ part :: rest, ch '/' ∉ p := fun p hp => (h p hp).2
    rw [segments, template, List.splitOn_intercalate _ hslash (List.cons_ne_nil _ _), hkeep]

/-! ### Objects -/

/-- A field that is undefined or null is dropped. -/
def text : Option Text → Value
  | some t => .val (.str t)
  | none => .null

def time : Time → Value
  | .ms n => .val (.num n)
  | .serverTimestamp => .val .serverTimestamp

def chatInfo (feed : ChatInfo) : Value :=
  .node [(Key.feedId, text feed.feedId), (Key.owner, text feed.owner),
    (Key.feedName, text feed.feedName), (Key.castType, .val (.num feed.castType)),
    (Key.castId, text feed.castId), (Key.avatarUri, text feed.avatarUri),
    (Key.startedAt, time feed.startedAt)]

def member (userObj : MemberRecord) : Value :=
  .node [(Key.userName, text userObj.userName), (Key.avatar, text userObj.avatar),
    (Key.password, text userObj.password)]

/-- The `user` of an upload. -/
structure Uploader where
  displayName : Option Text
  uid : Text
  photoURL : Option Text
  deriving DecidableEq

/-- The record of a photo that `Main` pushes. -/
structure Upload where
  user : Uploader
  uri : Text
  width : ℕ
  height : ℕ
  deriving DecidableEq

def upload (comment : Upload) : Value :=
  .node [(Key.user, .node [(Key.displayName, text comment.user.displayName),
      (Key.uid, text comment.user.uid), (Key.photoURL, text comment.user.photoURL)]),
    (Key.uri, text comment.uri), (Key.width, .val (.num comment.width)),
    (Key.height, .val (.num comment.height))]

/-! ### Reading -/

def Leaf.str? : Leaf → Option Text
  | .str t => some t
  | _ => none

def Leaf.num? : Leaf → Option ℕ
  | .num n => some n
  | _ => none

def Leaf.bool? : Leaf → Option Bool
  | .bool b => some b
  | _ => none

def Leaf.time? : Leaf → Option Time
  | .num n => some (.ms n)
  | .serverTimestamp => some .serverTimestamp
  | _ => none

/-- The field of an object. -/
def field (t : Value) (key : Text) : Option Leaf := t.leaf [key]

/-- A node that is a string. -/
def readText (t : Value) : Option Text := (t.leaf []).bind Leaf.str?

/-- The object in a field. -/
def object (t : Value) (key : Text) : Value := t.child [key]

def readUpload (t : Value) : Option Upload := do
  let user := object t Key.user
  let uid ← (field user Key.uid).bind Leaf.str?
  let uri ← (field t Key.uri).bind Leaf.str?
  let width ← (field t Key.width).bind Leaf.num?
  let height ← (field t Key.height).bind Leaf.num?
  let displayName := (field user Key.displayName).bind Leaf.str?
  let photoURL := (field user Key.photoURL).bind Leaf.str?
  return { user := { displayName, uid, photoURL }, uri, width, height }

def readChatInfo (t : Value) : Option ChatInfo := do
  let feedId ← (field t Key.feedId).bind Leaf.str?
  let owner ← (field t Key.owner).bind Leaf.str?
  let feedName ← (field t Key.feedName).bind Leaf.str?
  let castType ← (field t Key.castType).bind Leaf.num?
  let castId ← (field t Key.castId).bind Leaf.str?
  let startedAt ← (field t Key.startedAt).bind Leaf.time?
  let avatarUri := (field t Key.avatarUri).bind Leaf.str?
  return { feedId, owner, feedName, castType, castId, avatarUri, startedAt }

/-- The value of a member; null is none. -/
def readMember (t : Value) : Option FeedUsers.Member :=
  if t.IsNull then none
  else some
    { userName := (field t Key.userName).bind Leaf.str?
      avatar := (field t Key.avatar).bind Leaf.str?
      avatarUri := (field t Key.avatarUri).bind Leaf.str?
      castId := (field t Key.castId).bind Leaf.str?
      password := (field t Key.password).bind Leaf.str?
      online := (field t Key.online).bind Leaf.bool? }

/-- The field of an object with one of its fields set. -/
lemma field_set (key key' : Text) (t v : Value) :
    field (t.set [key'] v) key = if key = key' then v.leaf [] else field t key := by
  split_ifs with hkey
  · rw [hkey]
    exact PathTree.setLeaf_append t [key'] v []
  · have hne : ¬PathTree.Meets [key'] [key] := by
      simp [PathTree.Meets, hkey, Ne.symm hkey]
    exact PathTree.setLeaf_of_not_meets hne v

lemma field_node_cons (key key' : Text) (t : Value) (fields : List (Text × Value)) :
    field (.node ((key', t) :: fields)) key =
      if key = key' then t.leaf [] else field (.node fields) key :=
  field_set key key' _ t

lemma object_node_cons (key key' : Text) (t : Value) (fields : List (Text × Value)) :
    object (.node ((key', t) :: fields)) key =
      if key = key' then t else object (.node fields) key :=
  PathTree.child_node_cons key key' t fields

@[simp] lemma text_bind (t : Option Text) : ((text t).leaf []).bind Leaf.str? = t := by
  cases t <;> rfl

@[simp] lemma readText_text (t : Option Text) : readText (text t) = t := text_bind t

@[simp] lemma time_bind (t : Time) : ((time t).leaf []).bind Leaf.time? = some t := by
  cases t <;> rfl

/-- **A `chatInfo` is read back as it was written.** -/
theorem readChatInfo_chatInfo (feed : ChatInfo) : readChatInfo (chatInfo feed) = some feed := by
  simp +decide [readChatInfo, chatInfo, field_node_cons, Leaf.num?]

/-- So is an upload, with the user in it. -/
lemma readUpload_upload (comment : Upload) : readUpload (upload comment) = some comment := by
  simp +decide [readUpload, upload, field_node_cons, object_node_cons, Leaf.num?]

/-- A record with a password is not an empty object. -/
lemma not_isNull_member {userObj : MemberRecord} {password : Text}
    (h : userObj.password = some password) : ¬(member userObj).IsNull := by
  intro hnull
  have hleaf : field (member userObj) Key.password = none := PathTree.isNull_iff.mp hnull _
  simp +decide [member, field_node_cons, h, text] at hleaf

/-- It is read back as well, with none of the other fields `FeedUsers` reads. -/
lemma readMember_member (userObj : MemberRecord) {password : Text}
    (h : userObj.password = some password) : readMember (member userObj) = some
      { userName := userObj.userName
        avatar := userObj.avatar
        avatarUri := none
        castId := none
        password := some password
        online := none } := by
  have hnone : ∀ key, field (.node []) key = none := fun _ => rfl
  rw [readMember, if_neg (not_isNull_member h)]
  simp +decide [member, field_node_cons, h, hnone]

/-- The `online` of a member can be set alone, also where there is no record. -/
lemma readMember_online (t : Value) (value : Bool) :
    readMember (t.set [Key.online] (.val (.bool value))) =
      some { (readMember t).getD ⟨none, none, none, none, none, none⟩ with online := some value } := by
  have hset := PathTree.not_isNull_set (PathTree.not_isNull_val (.bool value)) t [Key.online]
  have hfield : ∀ key, key ≠ Key.online →
      field (t.set [Key.online] (.val (.bool value))) key = field t key :=
    fun key hkey => by rw [field_set, if_neg hkey]
  have honline : field (t.set [Key.online] (.val (.bool value))) Key.online = some (.bool value) := by
    rw [field_set, if_pos rfl]
    rfl
  rw [readMember, if_neg hset, honline, hfield Key.userName (by decide),
    hfield Key.avatar (by decide), hfield Key.avatarUri (by decide), hfield Key.castId (by decide),
    hfield Key.password (by decide), readMember]
  split_ifs with hnull
  · rw [PathTree.eq_null hnull]
    rfl
  · rfl

/-! ### The writes -/

/-- A write of a screen. -/
inductive StoreWrite where
  /-- A write of `createFeed`, `requestAccess`, `leaveWedding` or the example cast's join; `key`
  is the one `push` draws for `myWedding`. -/
  | record (key : Text) (write : Write)
  /-- `Main`, on mounting and on changes of the app state. -/
  | online (castId uid : Text) (value : Bool)
  /-- `returnData` of `WeddingDetails` -/
  | avatarUri (castId avatarUri : Text)
  /-- `toggleChangeInput` of `WeddingDetails` -/
  | newPassword (castId : Text) (password : Option Text)
  /-- `uploadImageAsync` of `Main`, with the key `push` draws. -/
  | upload (castId key : Text) (comment : Upload)
  /-- `deleteImage` of `Feed` -/
  | removeUpload (castId key : Text)
  /-- `handleLogin` of `LoginAvatar`; the library makes the value of its user object. -/
  | profile (uid : Text) (value : Value)

/-- What the write belongs to. -/
inductive Place where
  | cast (castId : Text)
  | user (uid : Text)
  deriving DecidableEq

/-- `feeds/feedNew/${castId}` and `users/${uid}`, in parts. -/
def Place.path : Place → List Text
  | .cast castId => [Key.feeds, Key.feedNew, castId]
  | .user uid => [Key.users, uid]

def StoreWrite.place : StoreWrite → Place
  | .record _ (.chatInfo castId _) | .record _ (.password castId _)
  | .record _ (.member castId _ _) | .record _ (.removeMember castId _)
  | .online castId _ _ | .avatarUri castId _ | .newPassword castId _ | .upload castId _ _
  | .removeUpload castId _ => .cast castId
  | .record _ (.myWedding uid _) | .record _ (.feedList uid _ _)
  | .record _ (.removeFeedList uid _) | .profile uid _ => .user uid

/-- The parts of the template behind those of the place. -/
def StoreWrite.rest : StoreWrite → List Text
  | .record _ (.chatInfo _ _) => [Key.chatInfo]
  | .record _ (.password _ _) | .newPassword _ _ => [Key.password]
  | .record _ (.member _ uid _) | .record _ (.removeMember _ uid) => [Key.members, uid]
  | .record key (.myWedding _ _) => [Key.myWedding, key]
  | .record _ (.feedList _ castId _) | .record _ (.removeFeedList _ castId) =>
    [Key.feedList, castId]
  | .online _ uid _ => [Key.members, uid, Key.online]
  | .avatarUri _ _ => [Key.chatInfo, Key.avatarUri]
  | .upload _ key _ | .removeUpload _ key => [Key.uploads, key]
  | .profile _ _ => [Key.profile]

/-- The parts of the write's path. -/
def StoreWrite.path (w : StoreWrite) : List Text := w.place.path ++ w.rest

def StoreWrite.value : StoreWrite → Value
  | .record _ (.chatInfo _ feed) | .record _ (.myWedding _ feed)
  | .record _ (.feedList _ _ feed) => Store.chatInfo feed
  | .record _ (.password _ password) => text password
  | .record _ (.member _ _ userObj) => member userObj
  | .record _ (.removeMember _ _) | .record _ (.removeFeedList _ _)
  | .removeUpload _ _ => .null
  | .online _ _ value => .val (.bool value)
  | .avatarUri _ uri => text uri
  | .newPassword _ password => text password
  | .upload _ _ comment => Store.upload comment
  | .profile _ value => value

/-- What the database does on the write. -/
def StoreWrite.change (w : StoreWrite) : PathTree.Change Text Leaf :=
  (segments (template w.path), w.value)

/-- The database after the writes, in the order in which it carries them out. -/
def carryOut (db : Value) (ws : List StoreWrite) : Value := db.applyAll (ws.map (·.change))

/-- The ids in the path are single segments, as the database's own keys are. -/
def StoreWrite.Clean (w : StoreWrite) : Prop := ∀ part ∈ w.path, PathSegment part

instance (w : StoreWrite) : Decidable w.Clean :=
  List.decidableBAll (fun part => PathSegment part) w.path

lemma StoreWrite.Clean.change_eq {w : StoreWrite} (h : w.Clean) : w.change = (w.path, w.value) := by
  rw [StoreWrite.change, segments_template h]

@[simp] lemma carryOut_nil (db : Value) : carryOut db [] = db := rfl

lemma carryOut_concat (db : Value) (ws : List StoreWrite) (w : StoreWrite) :
    carryOut db (ws ++ [w]) = (carryOut db ws).apply w.change := by
  rw [carryOut, List.map_append, PathTree.applyAll_append]
  rfl

/-! ### Places -/

lemma feeds_ne_users : Key.feeds ≠ Key.users := by decide

/-- Two places are one or apart. -/
lemma Place.meets_iff {p q : Place} : PathTree.Meets p.path q.path ↔ p = q := by
  cases p with
  | cast c =>
    cases q with
    | cast d => simp [Place.path, PathTree.Meets, eq_comm]
    | user v => simp [Place.path, PathTree.Meets, feeds_ne_users, feeds_ne_users.symm]
  | user u =>
    cases q with
    | cast d => simp [Place.path, PathTree.Meets, feeds_ne_users, feeds_ne_users.symm]
    | user v => simp [Place.path, PathTree.Meets, eq_comm]

/-- A write shows at its own place only. -/
lemma StoreWrite.Clean.meets_iff {w : StoreWrite} (h : w.Clean) (p : Place) :
    PathTree.Meets w.change.1 p.path ↔ w.place = p := by
  rw [h.change_eq]
  constructor
  · intro hm
    exact Place.meets_iff.mp (PathTree.Meets.of_append_left hm)
  · rintro rfl
    exact .inr (List.prefix_append _ _)

/-- What a place becomes is decided by its own writes. -/
lemma child_carryOut {db db' : Value} {p : Place} {ws : List StoreWrite}
    (hdb : db.child p.path = db'.child p.path) (hws : ∀ w ∈ ws, w.Clean) :
    (carryOut db ws).child p.path =
      (carryOut db' (ws.filter fun w => w.place = p)).child p.path := by
  rw [carryOut, PathTree.child_applyAll_filter hdb, carryOut, List.filter_map]
  have hfilter : ws.filter ((fun c => decide (PathTree.Meets c.1 p.path)) ∘ StoreWrite.change) =
      ws.filter fun w => w.place = p :=
    List.filter_congr fun w hw => decide_eq_decide.mpr ((hws w hw).meets_iff p)
  rw [hfilter]

/-- **The places are independent of each other.** Two histories with the same writes to a cast, or
to a user, in the same order make the same of it, whatever else they write. -/
theorem place_isolated {db db' : Value} (p : Place) {ws ws' : List StoreWrite}
    (hdb : db.child p.path = db'.child p.path) (hws : ∀ w ∈ ws, w.Clean)
    (hws' : ∀ w ∈ ws', w.Clean)
    (hsame : (ws.filter fun w => w.place = p) = ws'.filter fun w => w.place = p) :
    (carryOut db ws).child p.path = (carryOut db' ws').child p.path := by
  have hother : (carryOut db' ws').child p.path = _ := child_carryOut rfl hws'
  rw [child_carryOut hdb hws, hother, hsame]

/-- The cast `a` gets its password before and after a user gets a profile. -/
theorem place_isolated_profile :
    (carryOut .null [.newPassword (txt ['a']) (some (txt ['p'])),
        .profile (txt ['u']) (.val (.bool true))]).child (Place.path (.cast (txt ['a']))) =
      (carryOut .null [.newPassword (txt ['a']) (some (txt ['p']))]).child
        (Place.path (.cast (txt ['a']))) :=
  place_isolated (.cast (txt ['a'])) rfl (by decide) (by decide) rfl

end Wedcast.Store
