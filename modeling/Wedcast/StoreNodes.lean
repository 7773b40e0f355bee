import Wedcast.Store

/-!
The nodes of the database that the screens read and write as one: a cast's `chatInfo` and
password, the record of a member, a photo, and the entries of a user.

No node contains another one. A write replaces a node or sets one field of it, and leaves all
other nodes as they are.
-/

namespace Wedcast.Store

inductive Node where
  | chatInfo (castId : Text)
  | password (castId : Text)
  | member (castId uid : Text)
  | upload (castId key : Text)
  | myWedding (uid key : Text)
  | feedList (uid castId : Text)
  | profile (uid : Text)
  deriving DecidableEq

def Node.path : Node → List Text
  | .chatInfo castId => Place.path (.cast castId) ++ [Key.chatInfo]
  | .password castId => Place.path (.cast castId) ++ [Key.password]
  | .member castId uid => Place.path (.cast castId) ++ [Key.members, uid]
  | .upload castId key => Place.path (.cast castId) ++ [Key.uploads, key]
  | .myWedding uid key => Place.path (.user uid) ++ [Key.myWedding, key]
  | .feedList uid castId => Place.path (.user uid) ++ [Key.feedList, castId]
  | .profile uid => Place.path (.user uid) ++ [Key.profile]

/-- The node a write replaces, or sets a field of. -/
def StoreWrite.node : StoreWrite → Node
  | .record _ (.chatInfo castId _) | .avatarUri castId _ => .chatInfo castId
  | .record _ (.password castId _) | .newPassword castId _ => .password castId
  | .record _ (.member castId uid _) | .record _ (.removeMember castId uid)
  | .online castId uid _ => .member castId uid
  | .upload castId key _ | .removeUpload castId key => .upload castId key
  | .record key (.myWedding uid _) => .myWedding uid key
  | .record _ (.feedList uid castId _) | .record _ (.removeFeedList uid castId) =>
    .feedList uid castId
  | .profile uid _ => .profile uid

/-- The field it sets, if it does not replace the whole node. -/
def StoreWrite.below : StoreWrite → List Text
  | .online _ _ _ => [Key.online]
  | .avatarUri _ _ => [Key.avatarUri]
  | _ => []

lemma StoreWrite.path_eq (w : StoreWrite) : w.path = w.node.path ++ w.below := by
  cases w with
  | record key write => cases write <;> rfl
  | _ => rfl

/-- The nodes are apart from each other. -/
lemma Node.meets_iff {n n' : Node} : PathTree.Meets n.path n'.path ↔ n = n' := by
  constructor
  · intro h
    cases n <;> cases n' <;>
      simp +decide [Node.path, Place.path, PathTree.Meets] at h ⊢ <;> grind
  · rintro rfl
    exact .inl List.prefix_rfl

/-- **What a write does**: its node changes, and no other one. -/
theorem StoreWrite.Clean.child_apply {w : StoreWrite} (h : w.Clean) (db : Value) (n : Node) :
    (db.apply w.change).child n.path =
      if w.node = n then (db.child n.path).set w.below w.value else db.child n.path := by
  rw [PathTree.apply, h.change_eq, w.path_eq]
  split_ifs with hn
  · rw [hn, PathTree.child_set_above]
  · exact PathTree.child_set_of_not_meets (fun hm => hn (Node.meets_iff.mp hm.of_append_left)) _

/-- Writes of different nodes can be carried out in either order. -/
lemma StoreWrite.Clean.commute {w w' : StoreWrite} (h : w.Clean) (h' : w'.Clean)
    (hne : w.node ≠ w'.node) (db : Value) :
    (db.apply w.change).apply w'.change = (db.apply w'.change).apply w.change := by
  rw [h.change_eq, h'.change_eq]
  refine PathTree.set_comm (fun hm => hne ?_) _ _
  rw [w.path_eq, w'.path_eq] at hm
  exact Node.meets_iff.mp hm.of_append_left.symm.of_append_left.symm

end Wedcast.Store
