import Wedcast.Text

/-!
The signed-in user and the records the screens write to the Realtime Database.
-/

namespace Wedcast

/-- What the app reads of `firebase.auth().currentUser`. -/
structure User where
  uid : Text
  displayName : Option Text
  photoURL : Option Text
  isAnonymous : Bool
  deriving DecidableEq

/-- The library's user has a `photoURL`; the screens that read `photoUrl` get `undefined`. -/
def User.photoUrl (_ : User) : Option Text := none

/-- A time in the database: the placeholder the server replaces, or milliseconds. -/
inductive Time where
  | serverTimestamp
  | ms (n : ℕ)
  deriving DecidableEq

/-- The `chatInfo` of a cast, also stored in the lists of its owner and its guests. -/
structure ChatInfo where
  feedId : Text
  owner : Text
  feedName : Text
  castType : ℕ
  castId : Text
  avatarUri : Option Text
  startedAt : Time
  deriving DecidableEq

/-- A record under `feeds/feedNew/<castId>/members/<uid>`; undefined fields are dropped. -/
structure MemberRecord where
  userName : Option Text
  avatar : Option Text
  password : Option Text
  deriving DecidableEq

/-- The writes the screens issue, by path. -/
inductive Write where
  | chatInfo (castId : Text) (feed : ChatInfo)
  | password (castId password : Text)
  | member (castId uid : Text) (userObj : MemberRecord)
  | removeMember (castId uid : Text)
  | myWedding (uid : Text) (feed : ChatInfo)
  | feedList (uid castId : Text) (feed : ChatInfo)
  | removeFeedList (uid castId : Text)
  deriving DecidableEq

def Write.setsChatInfo (c : Text) : Write → Bool
  | .chatInfo castId _ => castId = c
  | _ => false

def Write.setsPassword (c : Text) : Write → Bool
  | .password castId _ => castId = c
  | _ => false

/-- The castId whose `chatInfo` or `password` the write replaces. -/
def Write.castId? : Write → Option Text
  | .chatInfo castId _ | .password castId _ => some castId
  | _ => none

lemma Write.castId?_of_setsChatInfo {c : Text} {w : Write} (h : w.setsChatInfo c) :
    w.castId? = some c := by
  cases w <;> simp_all [Write.setsChatInfo, Write.castId?]

end Wedcast
