import Wedcast.StoreNodes
import Wedcast.MemberRecords
import Wedcast.Lib.Interleave

/-!
Operations of several users on the one database.

An operation of a screen issues several writes, and the database carries them out one by one, with
those of other devices in between; it may refuse some. Operations of different users touch the same
node only where both set the fields of a cast itself or both deal with the same photo. Otherwise
every interleaving leaves the database as if each operation had run on its own.
-/

namespace Wedcast.Store

open MemberRecords
open Wedcast.Membership (exampleId exampleWedcast)

/-! ### The operations -/

/-- An operation of a screen, run once by the user. -/
inductive Operation where
  /-- `createFeed` of the wizard -/
  | createFeed (newFeedId key : Text) (s : CreateFeed.State)
  /-- `requestAccess` of `PrivateFeed` -/
  | requestAccess (user : User) (castId password : Text) (feed : ChatInfo)
  /-- `handleLogin` of `LoginAvatar` -/
  | handleLogin (user : User) (profile : Value)
  /-- `leaveWedding` of `WeddingDetails` -/
  | leaveWedding (uid castId : Text)
  /-- `toggleChangeInput` of `WeddingDetails` -/
  | toggleChangeInput (uid castId : Text) (password : Option Text)
  /-- `returnData` of `WeddingDetails` -/
  | returnData (uid castId avatarUri : Text)
  /-- `Main` on mounting and on changes of the app state -/
  | setOnline (uid castId : Text) (value : Bool)
  /-- `uploadImageAsync` of `Main` -/
  | uploadImage (user : User) (castId key uri : Text) (width height : ℕ)
  /-- `deleteImage` of `Feed` -/
  | deleteImage (uid castId key : Text)

/-- The writes, in the order in which the screen issues them. -/
def Operation.writes : Operation → List StoreWrite
  | .createFeed newFeedId key s => (CreateFeed.createFeed newFeedId s).map (.record key)
  | .requestAccess user castId password feed =>
    [.record [] (.member castId user.uid (Writer.userObj user (.requestAccess password))),
      .record [] (.feedList user.uid castId feed)]
  | .handleLogin user profile =>
    [.profile user.uid profile,
      .record [] (.member exampleId user.uid (Writer.userObj user .handleLogin)),
      .record [] (.feedList user.uid exampleId exampleWedcast)]
  | .leaveWedding uid castId =>
    [.record [] (.removeMember castId uid), .record [] (.removeFeedList uid castId),
      .record [] (.removeFeedList uid castId)]
  | .toggleChangeInput _ castId password => [.newPassword castId password]
  | .returnData _ castId avatarUri => [.avatarUri castId avatarUri]
  | .setOnline uid castId value => [.online castId uid value]
  | .uploadImage user castId key uri width height =>
    [.upload castId key ⟨⟨user.displayName, user.uid, user.photoURL⟩, uri, width, height⟩]
  | .deleteImage _ castId key => [.removeUpload castId key]

/-- The user whose device runs it. -/
def Operation.uid : Operation → Text
  | .createFeed _ _ s => s.currentUser.uid
  | .requestAccess user _ _ _ | .handleLogin user _ | .uploadImage user _ _ _ _ _ => user.uid
  | .leaveWedding uid _ | .toggleChangeInput uid _ _ | .returnData uid _ _ | .setOnline uid _ _
  | .deleteImage uid _ _ => uid

/-- The cast whose own fields it sets. -/
def Operation.cast? : Operation → Option Text
  | .createFeed _ _ s => some (dropHash s.castId)
  | .toggleChangeInput _ castId _ | .returnData _ castId _ => some castId
  | _ => none

/-- The photo it adds or removes. -/
def Operation.photo? : Operation → Option (Text × Text)
  | .uploadImage _ castId key _ _ _ | .deleteImage _ castId key => some (castId, key)
  | _ => none

/-- Operations of different users, on different casts as far as they set a cast's own fields, and
on different photos. -/
structure Apart (o o' : Operation) : Prop where
  uid : o.uid ≠ o'.uid
  cast : ∀ c ∈ o.cast?, c ∉ o'.cast?
  photo : ∀ p ∈ o.photo?, p ∉ o'.photo?

/-- The nodes of an operation are those of its user, of its cast, and of its photo. -/
lemma Operation.node_cases {o : Operation} {w : StoreWrite} (hw : w ∈ o.writes) :
    match w.node with
    | .chatInfo castId | .password castId => castId ∈ o.cast?
    | .upload castId key => (castId, key) ∈ o.photo?
    | .member _ uid | .myWedding uid _ | .feedList uid _ | .profile uid => uid = o.uid := by
  cases o with
  | createFeed newFeedId key s =>
    obtain ⟨write, hwrite, rfl⟩ := List.mem_map.mp hw
    obtain ⟨newFeed, userObj, -, -, rfl | rfl | rfl | rfl⟩ :=
      CreateFeed.mem_createFeed_cases hwrite <;> rfl
  | requestAccess | handleLogin | leaveWedding =>
    simp only [Operation.writes, List.mem_cons, List.not_mem_nil, or_false] at hw
    rcases hw with rfl | rfl | rfl <;> rfl
  | _ =>
    obtain rfl := List.mem_singleton.mp hw
    rfl

lemma Apart.node_ne {o o' : Operation} (h : Apart o o') {w w' : StoreWrite} (hw : w ∈ o.writes)
    (hw' : w' ∈ o'.writes) : w.node ≠ w'.node := by
  intro heq
  have hnode := Operation.node_cases hw
  have hnode' := Operation.node_cases hw'
  rw [← heq] at hnode'
  cases hn : w.node with
  | chatInfo castId | password castId =>
    rw [hn] at hnode hnode'
    exact h.cast castId hnode hnode'
  | upload castId key =>
    rw [hn] at hnode hnode'
    exact h.photo (castId, key) hnode hnode'
  | member | myWedding | feedList | profile =>
    rw [hn] at hnode hnode'
    exact h.uid (hnode.symm.trans hnode')

/-! ### Interleavings -/

open Interleave

/-- The writes of a log, in the order in which the database carries them out. -/
def writesOf {ι : Type*} (log : List (ι × StoreWrite)) : List StoreWrite := log.map Prod.snd

lemma carryOut_writesOf {ι : Type*} (db : Value) (log : List (ι × StoreWrite)) :
    carryOut db (writesOf log) = run (fun db w => db.apply w.change) db log := by
  rw [carryOut, writesOf, List.map_map, PathTree.applyAll, List.foldl_map]
  rfl

variable {ι : Type*} [DecidableEq ι]

/-- **Operations that are apart do not see each other.** Whatever the order in which the database
carries out their writes, and whichever of the writes it refuses, the result is that of the
operations run one after the other, in any order. -/
theorem carryOut_eq_serial (op : ι → Operation) {log : List (ι × StoreWrite)} {is : List ι}
    (hnodup : is.Nodup) (his : ∀ x ∈ log, x.1 ∈ is)
    (hwrites : ∀ i, (writesOf (of i log)).Sublist (op i).writes)
    (hclean : ∀ x ∈ log, x.2.Clean)
    (hapart : ∀ i ∈ is, ∀ j ∈ is, i ≠ j → Apart (op i) (op j)) (db : Value) :
    carryOut db (writesOf log) =
      is.foldl (fun db i => carryOut db (writesOf (of i log))) db := by
  have hmem : ∀ x ∈ log, x.2 ∈ (op x.1).writes := by
    intro x hx
    refine (hwrites x.1).subset (List.mem_map_of_mem (f := Prod.snd) ?_)
    exact List.mem_filter.mpr ⟨hx, by simp⟩
  have hindependent : Independent (fun db w => PathTree.apply db w.change) log := by
    intro x hx y hy hne
    have hnodes := (hapart x.1 (his x hx) y.1 (his y hy) hne).node_ne (hmem x hx) (hmem y hy)
    exact (hclean x hx).commute (hclean y hy) hnodes
  rw [carryOut_writesOf, run_eq_serial hindependent hnodup his, run, List.foldl_flatMap]
  simp only [carryOut_writesOf, run]

/-- A wizard that is complete. -/
def readyWizard : CreateFeed.State :=
  { CreateFeed.mount ⟨txt ['h'], none, none, false⟩ with
    feedName := txt ['A'], castId := txt ['a'], password := txt ['p'] }

/-- A host creates the cast `a` while a guest leaves the cast `b`. -/
def twoUsers : Bool → Operation
  | true => .createFeed (txt ['i']) (txt ['k']) readyWizard
  | false => .leaveWedding (txt ['g']) (txt ['b'])

def twoUsersLog : List (Bool × StoreWrite) :=
  [(true, .record (txt ['k']) (.chatInfo (txt ['a'])
      ⟨txt ['i'], txt ['h'], txt ['A'], 0, txt ['a'], none, .serverTimestamp⟩)),
    (false, .record [] (.removeMember (txt ['b']) (txt ['g']))),
    (true, .record (txt ['k']) (.password (txt ['a']) (txt ['p']))),
    (false, .record [] (.removeFeedList (txt ['g']) (txt ['b'])))]

/-- The database refuses some of the writes. -/
theorem carryOut_eq_serial_twoUsers : carryOut .null (writesOf twoUsersLog) =
    [false, true].foldl (fun db i => carryOut db (writesOf (of i twoUsersLog))) .null := by
  refine carryOut_eq_serial twoUsers (by decide) (by decide) ?_ (by decide) ?_ _
  · rintro (_ | _)
    · exact .cons_cons _ (.cons_cons _ (.cons _ .slnil))
    · exact .cons_cons _ (.cons_cons _ (.cons _ (.cons _ .slnil)))
  · rintro (_ | _) - (_ | _) - hne
    · exact absurd rfl hne
    · exact ⟨by decide, by decide, by decide⟩
    · exact ⟨by decide, by decide, by decide⟩
    · exact absurd rfl hne

end Wedcast.Store
