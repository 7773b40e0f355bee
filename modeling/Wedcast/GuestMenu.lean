import Wedcast.Membership
import Wedcast.MenuTree
import Wedcast.StoreDirectory

/-!
From joining a cast to its row in `Menu`.

A guest joins and leaves by writes that the database carries out or refuses one by one, among the
writes of everybody else, and the guest's `Menu` is served the values they leave in the tree. Put
together: once everything has settled, the guest's list has a row for a cast exactly when the cast
is there and the guest is let into it, and the row opens the cast.
-/

namespace Wedcast.GuestMenu

open Runs Store
open Wedcast.Membership (memberAfter listAfter)

structure State where
  guests : Membership.World
  screen : MenuTree.State

inductive Event where
  /-- A guest joins or leaves, a write is refused, or a success callback runs. -/
  | guest (e : Membership.Event)
  /-- The database carries out the oldest write of the user's client. -/
  | carriedOut (uid : Text) (w : IssuedWrite)
  /-- It carries out a write of another screen, or serves `Menu`. -/
  | screen (e : MenuTree.Event)

/-- The path of the write has no part that `push` draws. -/
def isRecord : StoreWrite → Write → Bool
  | .record [] write, write' => write = write'
  | _, _ => false

def step (K : MenuTree.KeyOrder) (s : State) : Event → Option State
  | .guest (.settle _ true) => none
  | .guest e => (Membership.step s.guests e).map fun guests => { s with guests }
  | .carriedOut uid w =>
    match s.guests.pending uid with
    | [] => none
    | i :: _ =>
      if isRecord w.write i.write then
        (Membership.step s.guests (.settle uid true)).bind fun guests =>
          (MenuTree.step K s.screen (.write w)).map fun screen => ⟨guests, screen⟩
      else none
  | .screen e => (MenuTree.step K s.screen e).map fun screen => { s with screen }

/-- An entry of a list is kept under the castId it holds. -/
def OwnKey : StoreWrite → Prop
  | .record _ (.feedList _ castId feed) => feed.castId = castId
  | _ => True

/-- The write of another screen leaves the guest's record and entry of the cast alone; `online` is
written inside a record. -/
def Aside (u c : Text) (db : Value) : StoreWrite → Prop
  | .record _ (.member castId uid _) | .record _ (.removeMember castId uid)
  | .record _ (.feedList uid castId _) | .record _ (.removeFeedList uid castId) =>
    ¬(castId = c ∧ uid = u)
  | .online castId uid _ => castId = c ∧ uid = u → HasPermission db c u
  | _ => True

/-- The steps that keep the parts together, for one guest and one cast. -/
def InStep (u c : Text) (s : State) : Event → Prop
  | .guest e => Membership.InStep u c s.guests e
  | .carriedOut _ w => OwnKey w.write
  | .screen (.write w) =>
    MenuTree.InTime s.screen (.write w) ∧ OwnKey w.write ∧ Aside u c s.screen.db w.write
  | .screen e => MenuTree.InTime s.screen e

instance : (w : StoreWrite) → Decidable (OwnKey w)
  | .record _ (.feedList _ _ _) => inferInstanceAs (Decidable (_ = _))
  | .record _ (.chatInfo _ _) | .record _ (.password _ _) | .record _ (.member _ _ _)
  | .record _ (.myWedding _ _) | .record _ (.removeMember _ _) | .record _ (.removeFeedList _ _)
  | .online _ _ _ | .avatarUri _ _ | .newPassword _ _ | .upload _ _ _ | .removeUpload _ _
  | .profile _ _ => isTrue trivial

instance (u c : Text) (db : Value) : (w : StoreWrite) → Decidable (Aside u c db w)
  | .record _ (.member _ _ _) | .record _ (.removeMember _ _) | .record _ (.feedList _ _ _)
  | .record _ (.removeFeedList _ _) => inferInstanceAs (Decidable (¬_))
  | .online _ _ _ => inferInstanceAs (Decidable (_ → _))
  | .record _ (.chatInfo _ _) | .record _ (.password _ _) | .record _ (.myWedding _ _)
  | .avatarUri _ _ | .newPassword _ _ | .upload _ _ _ | .removeUpload _ _ | .profile _ _ =>
    isTrue trivial

instance (u c : Text) (s : State) : (e : Event) → Decidable (InStep u c s e)
  | .guest e => inferInstanceAs (Decidable (Membership.InStep u c s.guests e))
  | .carriedOut _ w => inferInstanceAs (Decidable (OwnKey w.write))
  | .screen (.write w) => inferInstanceAs (Decidable (MenuTree.InTime s.screen (.write w) ∧ _))
  | .screen (.deliverList kind a) =>
    inferInstanceAs (Decidable (MenuTree.InTime s.screen (.deliverList kind a)))
  | .screen (.deliver kind i l) =>
    inferInstanceAs (Decidable (MenuTree.InTime s.screen (.deliver kind i l)))

/-- The guest's list has an entry under the castId. -/
def HasEntry (db : Value) (u c : Text) : Prop := ¬(db.child (Node.feedList u c).path).IsNull

/-- The guests' part and the tree agree on the guest and the cast. -/
structure Tracks (u c : Text) (s : State) : Prop where
  member : HasPermission s.screen.db c u ↔ (s.guests.member c u).isSome
  entry : HasEntry s.screen.db u c ↔ (s.guests.feedList u c).isSome

/-- Every entry of the guest's list is kept under the castId it holds. -/
def Entries (u : Text) (db : Value) : Prop :=
  ∀ key, HasEntry db u key →
    field (db.child (Node.feedList u key).path) Key.castId = some (.str key)

variable {u c : Text} {db db' : Value} {w : IssuedWrite}

/-! ### One write -/

/-- The writes to an entry of a list. -/
lemma feedList_cases {w : StoreWrite} (h : w.node = .feedList u c) :
    (∃ key feed, w = .record key (.feedList u c feed)) ∨
      ∃ key, w = .record key (.removeFeedList u c) := by
  cases w with
  | record key write =>
    cases write with
    | feedList uid castId feed =>
      obtain ⟨rfl, rfl⟩ := Node.feedList.inj h
      exact .inl ⟨key, feed, rfl⟩
    | removeFeedList uid castId =>
      obtain ⟨rfl, rfl⟩ := Node.feedList.inj h
      exact .inr ⟨key, rfl⟩
    | _ => cases h
  | _ => cases h

lemma field_castId (feed : ChatInfo) :
    field (chatInfo feed) Key.castId = some (.str feed.castId) := by
  simp +decide [chatInfo, field_node_cons, text]

lemma hasEntry_of_ne (hs : Store.step db w = some db') (h : w.write.node ≠ .feedList u c) :
    HasEntry db' u c ↔ HasEntry db u c := by
  have hchild := step_child hs (.feedList u c)
  rw [if_neg h] at hchild
  rw [HasEntry, HasEntry, hchild]

lemma not_isNull_chatInfo (feed : ChatInfo) : ¬(chatInfo feed).IsNull := by
  intro hnull
  have hread := readChatInfo_chatInfo feed
  rw [PathTree.eq_null hnull, readChatInfo_null] at hread
  cases hread

/-- A record write does to the entry what it does for the guests. -/
lemma hasEntry_record (hs : Store.step db w = some db') {key : Text} {write : Write}
    (hw : w.write = .record key write) {listed : Bool} (h : HasEntry db u c ↔ listed) :
    HasEntry db' u c ↔ listAfter u c listed write := by
  by_cases hn : w.write.node = .feedList u c
  · have hchild := step_child hs (.feedList u c)
    rw [if_pos hn] at hchild
    rw [HasEntry, hchild]
    rcases feedList_cases hn with ⟨key', feed, hw'⟩ | ⟨key', hw'⟩
    · obtain ⟨-, rfl⟩ := StoreWrite.record.inj (hw.symm.trans hw')
      simp [hw', StoreWrite.below, StoreWrite.value, listAfter, not_isNull_chatInfo]
    · obtain ⟨-, rfl⟩ := StoreWrite.record.inj (hw.symm.trans hw')
      simp [hw', StoreWrite.below, StoreWrite.value, listAfter, PathTree.isNull_null]
  · rw [hasEntry_of_ne hs hn, h]
    rw [hw] at hn
    cases write <;> grind [StoreWrite.node, listAfter]

/-- And to the record. -/
lemma hasPermission_record (hs : Store.step db w = some db') {key : Text} {write : Write}
    (hw : w.write = .record key write) {isMember : Bool} (h : HasPermission db c u ↔ isMember) :
    HasPermission db' c u ↔ memberAfter u c isMember write := by
  have hinside : OnlineInside c u db w := by
    intro value honline
    rw [hw] at honline
    cases honline
  have hnoting : noting Store.step (joined c u) (db, isMember) w =
      some (db', joined c u (db, isMember) w db') := noting_of_step hs
  have hafter := (hasPermission_step h hnoting).mpr hinside
  simpa only [joined, hw] using hafter

lemma hasPermission_aside (hs : Store.step db w = some db') (ha : Aside u c db w.write) :
    HasPermission db' c u ↔ HasPermission db c u := by
  have hchild := step_child hs (.member c u)
  by_cases hn : w.write.node = .member c u
  · rw [if_pos hn] at hchild
    rcases StoreWrite.member_cases hn with ⟨key, userObj, hw⟩ | ⟨key, hw⟩ | ⟨value, hw⟩
    · rw [hw] at ha
      exact absurd ⟨rfl, rfl⟩ ha
    · rw [hw] at ha
      exact absurd ⟨rfl, rfl⟩ ha
    · -- the flag is set in a record, which is there before and after
      rw [hw] at ha
      refine iff_of_true ?_ (ha ⟨rfl, rfl⟩)
      rw [HasPermission, hchild, hw]
      exact PathTree.not_isNull_set (PathTree.not_isNull_val _) _ _
  · rw [if_neg hn] at hchild
    rw [HasPermission, HasPermission, hchild]

lemma hasEntry_aside (hs : Store.step db w = some db') (ha : Aside u c db w.write) :
    HasEntry db' u c ↔ HasEntry db u c := by
  refine hasEntry_of_ne hs fun hn => ?_
  rcases feedList_cases hn with ⟨key, feed, hw⟩ | ⟨key, hw⟩ <;> rw [hw] at ha <;>
    exact absurd ⟨rfl, rfl⟩ ha

lemma entries_step (h : Entries u db) (hs : Store.step db w = some db') (hown : OwnKey w.write) :
    Entries u db' := by
  intro key hentry
  have hchild := step_child hs (.feedList u key)
  by_cases hn : w.write.node = .feedList u key
  · rw [if_pos hn] at hchild
    rw [HasEntry, hchild] at hentry
    rw [hchild]
    rcases feedList_cases hn with ⟨key', feed, hw⟩ | ⟨key', hw⟩
    · rw [hw] at hown
      obtain rfl : feed.castId = key := hown
      simp [hw, StoreWrite.below, StoreWrite.value, field_castId]
    · simp [hw, StoreWrite.below, StoreWrite.value, PathTree.isNull_null] at hentry
  · rw [if_neg hn] at hchild
    rw [HasEntry, hchild] at hentry
    rw [hchild]
    exact h key hentry

/-- The list names the casts of its keys. -/
lemma listed_iff (h : Entries u db) : MenuTree.Listed db .feedList u c ↔ HasEntry db u c := by
  have hpath : ∀ key, (Node.feedList u key).path = MenuTree.listPath .feedList u ++ [key] := by
    intro key
    simp [Node.path, MenuTree.listPath]
  constructor
  · rintro ⟨key, hfield⟩
    have hentry : HasEntry db u key := by
      intro hnull
      rw [hpath] at hnull
      rw [field, PathTree.isNull_iff.mp hnull] at hfield
      cases hfield
    have hkey := h key hentry
    rw [hpath, hfield] at hkey
    obtain rfl : c = key := by simpa using hkey
    exact hentry
  · intro hentry
    exact ⟨c, by rw [← hpath]; exact h c hentry⟩

/-! ### The steps -/

variable {K : MenuTree.KeyOrder}

lemma eq_of_isRecord {w : StoreWrite} {write : Write} (h : isRecord w write) :
    w = .record [] write := by
  unfold isRecord at h
  split at h
  · rw [of_decide_eq_true h]
  · cases h

lemma carriedOut_cases {s s' : State} {uid : Text} {w : IssuedWrite}
    (hs : step K s (.carriedOut uid w) = some s') :
    ∃ i rest, s.guests.pending uid = i :: rest ∧ w.write = .record [] i.write ∧
      Membership.step s.guests (.settle uid true) = some s'.guests ∧
      MenuTree.step K s.screen (.write w) = some s'.screen := by
  simp only [step] at hs
  cases hp : s.guests.pending uid with
  | nil => simp [hp] at hs
  | cons i rest =>
    simp only [hp] at hs
    split_ifs at hs with hw
    obtain ⟨guests, hguests, hs⟩ := Option.bind_eq_some_iff.mp hs
    obtain ⟨screen, hscreen, rfl⟩ := Option.map_eq_some_iff.mp hs
    exact ⟨i, rest, rfl, eq_of_isRecord hw, hguests, hscreen⟩

lemma guest_cases {s s' : State} {e : Membership.Event} (hs : step K s (.guest e) = some s') :
    (∀ uid, e ≠ .settle uid true) ∧ Membership.step s.guests e = some s'.guests ∧
      s'.screen = s.screen := by
  have hne : ∀ uid, e ≠ .settle uid true := by
    rintro uid rfl
    cases hs
  have hmap : (Membership.step s.guests e).map (fun guests => { s with guests }) = some s' := by
    rw [← hs]
    cases e with
    | settle uid accepted =>
      cases accepted with
      | true => exact absurd rfl (hne uid)
      | false => rfl
    | _ => rfl
  obtain ⟨guests, hguests, rfl⟩ := Option.map_eq_some_iff.mp hmap
  exact ⟨hne, hguests, rfl⟩

/-- Only a write that is carried out changes what the guests have. -/
lemma kept_of_step {m m' : Membership.World} {e : Membership.Event}
    (he : ∀ uid, e ≠ .settle uid true) (hs : Membership.step m e = some m') :
    m'.member = m.member ∧ m'.feedList = m.feedList := by
  cases e with
  | requestAccess | handleLogin | leaveWedding =>
    cases hs
    exact ⟨rfl, rfl⟩
  | settle uid accepted =>
    cases accepted with
    | true => exact absurd rfl (he uid)
    | false =>
      simp only [Membership.step] at hs
      split at hs
      · cases hs
      · obtain ⟨-, rfl⟩ : _ ∧ _ = m' := by simpa using hs
        exact ⟨rfl, rfl⟩
  | callback uid =>
    simp only [Membership.step] at hs
    split at hs
    · cases hs
    · cases hs
      exact ⟨rfl, rfl⟩

/-- A write that is carried out does to the guests what it says. -/
lemma isSome_of_settle {m m' : Membership.World} {uid : Text} {i : Membership.Issued}
    {rest : List Membership.Issued} (hp : m.pending uid = i :: rest)
    (hs : Membership.step m (.settle uid true) = some m') (u c : Text) :
    (m'.member c u).isSome = memberAfter u c (m.member c u).isSome i.write ∧
      (m'.feedList u c).isSome = listAfter u c (m.feedList u c).isSome i.write := by
  simp only [Membership.step, hp] at hs
  cases hs
  simp

lemma db_of_deliver {s s' : MenuTree.State} {e : MenuTree.Event}
    (he : ∀ w, e ≠ .write w) (hs : MenuTree.step K s e = some s') : s'.db = s.db := by
  cases e with
  | write w => exact absurd rfl (he w)
  | deliverList | deliver =>
    obtain ⟨menu, -, rfl⟩ := Option.map_eq_some_iff.mp hs
    rfl

/-! ### Runs -/

/-- What holds along the run: of the guests alone, of the screen and the tree, and between them. -/
structure Held (K : MenuTree.KeyOrder) (u c : Text) (s : State) : Prop where
  joined : Membership.Joined u c s.guests
  following : MenuTree.Following K u s.screen
  tracks : Tracks u c s
  entries : Entries u s.screen.db

lemma Held.carriedOut {s s' : State} (h : Held K u c s) {uid : Text} {w : IssuedWrite}
    (hown : OwnKey w.write) (hs : step K s (.carriedOut uid w) = some s') : Held K u c s' := by
  obtain ⟨i, rest, hp, hw, hguests, hscreen⟩ := carriedOut_cases hs
  obtain ⟨hdb, -⟩ := MenuTree.write_cases hscreen
  obtain ⟨hmember, hlist⟩ := isSome_of_settle hp hguests u c
  have hinside : AvatarInside s.screen.db w := by
    intro castId avatarUri havatar
    rw [hw] at havatar
    cases havatar
  have hjoined := Membership.joined_step (e := .settle uid true) h.joined trivial hguests
  have hfollowing := h.following.step (e := .write w) hinside hscreen
  refine ⟨hjoined, hfollowing, ⟨?_, ?_⟩, entries_step h.entries hdb hown⟩
  · rw [hmember]
    exact hasPermission_record hdb hw h.tracks.member
  · rw [hlist]
    exact hasEntry_record hdb hw h.tracks.entry

lemma Held.guest {s s' : State} (h : Held K u c s) {e : Membership.Event}
    (hg : Membership.InStep u c s.guests e) (hs : step K s (.guest e) = some s') :
    Held K u c s' := by
  obtain ⟨hne, hguests, hscreen⟩ := guest_cases hs
  obtain ⟨hmember, hlist⟩ := kept_of_step hne hguests
  refine ⟨Membership.joined_step h.joined hg hguests, ?_, ⟨?_, ?_⟩, ?_⟩
  · rw [hscreen]
    exact h.following
  · rw [hscreen, hmember]
    exact h.tracks.member
  · rw [hscreen, hlist]
    exact h.tracks.entry
  · rw [hscreen]
    exact h.entries

lemma Held.screen {s s' : State} (h : Held K u c s) {e : MenuTree.Event}
    (hg : InStep u c s (.screen e)) (hs : step K s (.screen e) = some s') : Held K u c s' := by
  obtain ⟨screen, hscreen, rfl⟩ := Option.map_eq_some_iff.mp hs
  by_cases he : ∃ w, e = .write w
  · obtain ⟨w, rfl⟩ := he
    obtain ⟨htime, hown, haside⟩ := hg
    obtain ⟨hdb, -⟩ := MenuTree.write_cases hscreen
    refine ⟨h.joined, h.following.step htime hscreen, ⟨?_, ?_⟩, entries_step h.entries hdb hown⟩
    · exact (hasPermission_aside hdb haside).trans h.tracks.member
    · exact (hasEntry_aside hdb haside).trans h.tracks.entry
  · have hne : ∀ w, e ≠ .write w := fun w heq => he ⟨w, heq⟩
    have htime : MenuTree.InTime s.screen e := by
      cases e with
      | write w => exact absurd rfl (hne w)
      | _ => exact hg
    have hdb := db_of_deliver hne hscreen
    refine ⟨h.joined, h.following.step htime hscreen, ⟨?_, ?_⟩, ?_⟩
    · rw [hdb]
      exact h.tracks.member
    · rw [hdb]
      exact h.tracks.entry
    · rw [hdb]
      exact h.entries

def holding (K : MenuTree.KeyOrder) (u c : Text) : Invariant (step K) (InStep u c) where
  holds := Held K u c
  preserved {s s' e} h hg hs := by
    cases e with
    | guest e => exact h.guest hg hs
    | carriedOut uid w => exact h.carriedOut hg hs
    | screen e => exact h.screen hg hs

/-- The guest's list has a row for the cast exactly when the cast is there and the guest is let in,
and the row opens the cast. -/
structure RowRight (u c : Text) (s : State) : Prop where
  row : (∃ feed, some feed ∈ (s.screen.menu.panel .feedList).display ∧ feed.castId = c) ↔
    HasPermission s.screen.db c u ∧
      readChatInfo (s.screen.db.child (Node.chatInfo c).path) ≠ none
  opens : Menu.key c = c → ∀ feed, some feed ∈ (s.screen.menu.panel .feedList).display →
    feed.castId = c → goToFeed s.screen.db u c = some (.weddingDetails c feed.feedName)

lemma Held.rowRight {s : State} (h : Held K u c s) (hguest : Membership.Settled s.guests u)
    (hpanel : (s.screen.menu.panel .feedList).Settled) : RowRight u c s := by
  have hshows := h.following.shows hpanel
  have hagree : HasEntry s.screen.db u c ↔ HasPermission s.screen.db c u := by
    rw [h.tracks.entry, h.tracks.member]
    exact h.joined.agree_of_settled hguest
  have hlisted := (listed_iff h.entries).trans hagree
  constructor
  · constructor
    · rintro ⟨feed, hrow, rfl⟩
      obtain ⟨feed', hfeed, hentry, hread⟩ := (hshows.rows _).mp hrow
      obtain rfl := Option.some.inj hfeed
      exact ⟨hlisted.mp hentry, by simp [hread]⟩
    · rintro ⟨hpermission, hsome⟩
      obtain ⟨feed, hread⟩ := Option.ne_none_iff_exists'.mp hsome
      have hnull : ¬(s.screen.db.child (Node.chatInfo c).path).IsNull := by
        intro hnull
        rw [PathTree.eq_null hnull, readChatInfo_null] at hread
        cases hread
      obtain ⟨feed', hread', hkey⟩ := h.following.wellFormed c hnull
      obtain rfl : feed = feed' := Option.some.inj (hread.symm.trans hread')
      subst hkey
      exact ⟨feed, (hshows.rows _).mpr ⟨feed, rfl, hlisted.mpr hpermission, hread⟩, rfl⟩
  · rintro hkey feed hrow rfl
    obtain ⟨feed', hfeed, hentry, hread⟩ := (hshows.rows _).mp hrow
    obtain rfl := Option.some.inj hfeed
    have hpermission := hlisted.mp hentry
    simp [goToFeed, Menu.goToFeed, hkey, hread, hpermission]

/-- **From joining to the row.** Along such steps, whenever everything the guest has issued has
settled and no listener of the guest's list waits for a value, the list has a row for the cast
exactly when the cast is there and the guest is let in, and the row opens the cast. -/
theorem row_iff_permission (K : MenuTree.KeyOrder) (u c : Text)
    (member : Text → Text → Option MemberRecord) (feedList : Text → Text → Option ChatInfo)
    {db : Value} (hformed : WellFormed db) (hentries : Entries u db)
    (htracks : Tracks u c ⟨.init member feedList, MenuTree.mount K u db⟩)
    (hagree : Membership.Agree (.init member feedList) u c) {es : List Event}
    (hes : Along (step K) (InStep u c) ⟨.init member feedList, MenuTree.mount K u db⟩ es) :
    Throughout (step K) (fun s => Membership.Settled s.guests u →
        (s.screen.menu.panel .feedList).Settled → RowRight u c s)
      ⟨.init member feedList, MenuTree.mount K u db⟩ es := by
  refine (holding K u c).throughout (fun s hs => hs.rowRight) ?_ hes
  refine ⟨Membership.joined_init hagree, ⟨hformed, ⟨rfl, rfl⟩, ?_⟩, htracks, hentries⟩
  exact Menu.fresh_mount u (MenuTree.casts db) (MenuTree.lists K db)

/-- The two writes of a guest who joins the cast `a`. -/
def joinsCast : IssuedWrite where
  write := .record [] (.member (txt ['a']) Membership.guest.uid
    ⟨Membership.guest.displayName, none, some (txt ['p'])⟩)
  clean := by decide
  issued := ⟨.requestAccess Membership.guest (txt ['a']) (txt ['p']) Membership.wedding,
    List.mem_cons_self⟩

def entersList : IssuedWrite where
  write := .record [] (.feedList Membership.guest.uid (txt ['a']) Membership.wedding)
  clean := by decide
  issued := ⟨.requestAccess Membership.guest (txt ['a']) (txt ['p']) Membership.wedding,
    List.mem_cons_of_mem _ List.mem_cons_self⟩

/-- The host creates the cast, the guest joins it, and the guest's `Menu` is served. -/
def guestRun : List Event :=
  [.screen (.write createsCast),
    .guest (.requestAccess Membership.guest (txt ['a']) (txt ['p']) Membership.wedding),
    .carriedOut Membership.guest.uid joinsCast, .carriedOut Membership.guest.uid entersList,
    .screen (.deliverList .feedList 0), .screen (.deliverList .feedList 0),
    .screen (.deliver .feedList (0, 0) 0)]

theorem row_iff_permission_guest :
    (run (step MenuTree.byText) ⟨.init (fun _ _ => none) (fun _ _ => none),
        MenuTree.mount MenuTree.byText Membership.guest.uid .null⟩ guestRun).isSome ∧
      Throughout (step MenuTree.byText) (fun s => Membership.Settled s.guests Membership.guest.uid →
          (s.screen.menu.panel .feedList).Settled → RowRight Membership.guest.uid (txt ['a']) s)
        ⟨.init (fun _ _ => none) (fun _ _ => none),
          MenuTree.mount MenuTree.byText Membership.guest.uid .null⟩ guestRun := by
  have hnull : ∀ n : Node, ((.null : Value).child n.path).IsNull := fun n => PathTree.isNull_null
  refine ⟨by decide +kernel, ?_⟩
  refine row_iff_permission MenuTree.byText Membership.guest.uid (txt ['a']) (fun _ _ => none)
    (fun _ _ => none) ?_ ?_ ?_ (by decide) (by decide +kernel)
  · exact fun castId h => absurd (hnull _) h
  · exact fun key h => absurd (hnull _) h
  · exact ⟨iff_of_false (fun h => h (hnull _)) (by decide),
      iff_of_false (fun h => h (hnull _)) (by decide)⟩

end Wedcast.GuestMenu
