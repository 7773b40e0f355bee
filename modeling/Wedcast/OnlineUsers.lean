import Mathlib.Data.Finset.Sort
import Wedcast.Online
import Wedcast.StoreRuns

/-!
The online section of `FeedUsers`, over the apps of all users of a cast.

Every app writes the `online` of its own user, and issues the writes of its other screens as well.
Its client sends them in order, and the database carries them out between those of the other
clients. `FeedUsers` sorts the values it reads of the whole `members` node. Once the writes of a
user have settled, the user is in the online section exactly while the own app is active with a
`Main` mounted, as long as every app changes its state in an orderly way.
-/

namespace Wedcast.OnlineUsers

open Runs Store
open CreateFeed (PathSegment)
open FeedUsers (Child Snapshot)

/-! ### The value of `members` -/

/-- `feeds/feedNew/${castId}/members`, in parts. -/
def membersPath (castId : Text) : List Text := Place.path (.cast castId) ++ [Key.members]

/-- The children that `forEach` visits, in the order of their keys. -/
def children (t : Value) : List Child :=
  (t.keys.sort (· ≤ ·)).filterMap fun key => (readMember (t.child [key])).map (Child.mk key)

/-- A child is there just when its value can be read. -/
lemma mem_children {t : Value} {c : Child} :
    c ∈ children t ↔ readMember (t.child [c.key]) = some c.val := by
  simp only [children, List.mem_filterMap, Finset.mem_sort, Option.map_eq_some_iff]
  constructor
  · rintro ⟨key, -, m, hm, rfl⟩
    exact hm
  · intro hc
    refine ⟨c.key, PathTree.mem_keys.mpr fun hnull => ?_, c.val, hc, rfl⟩
    rw [readMember, if_pos hnull] at hc
    cases hc

lemma nodup_children (t : Value) : ((children t).map (·.key)).Nodup := by
  have hkeys : (children t).map (·.key) =
      (t.keys.sort (· ≤ ·)).filterMap fun key => (readMember (t.child [key])).map fun _ => key := by
    rw [children, List.map_filterMap]
    simp [Function.comp_def]
  rw [hkeys]
  refine (Finset.sort_nodup _ _).filterMap fun k l key hk hl => ?_
  simp only [Option.mem_def, Option.map_eq_some_iff] at hk hl
  obtain ⟨-, -, rfl⟩ := hk
  obtain ⟨-, -, rfl⟩ := hl
  rfl

/-- The value `FeedUsers` is given. -/
def snapshot (castId : Text) (db : Value) : Snapshot where
  children := children (db.child (membersPath castId))
  nodup := nodup_children _

/-- The value of a member in the database. -/
def memberOf (castId uid : Text) (db : Value) : Option FeedUsers.Member :=
  readMember (db.child (Node.member castId uid).path)

/-- The flag of a user who has no record is not set. -/
def isOnline (castId uid : Text) (db : Value) : Bool :=
  (memberOf castId uid db).any FeedUsers.Member.isOnline

lemma mem_snapshot {castId : Text} {db : Value} {c : Child} :
    c ∈ (snapshot castId db).children ↔ memberOf castId c.key db = some c.val := by
  have hpath : (Node.member castId c.key).path = membersPath castId ++ [c.key] := by
    simp [Node.path, membersPath]
  rw [memberOf, hpath, ← PathTree.child_child]
  exact mem_children

/-- Who is in a section, by the condition its members meet. -/
lemma mem_section {castId uid : Text} {db : Value} (p : FeedUsers.Member → Bool) :
    uid ∈ ((snapshot castId db).children.filter fun c => p c.val).map (·.key) ↔
      (memberOf castId uid db).any p := by
  simp only [List.mem_map, List.mem_filter, mem_snapshot, Option.any_eq_true]
  constructor
  · rintro ⟨c, ⟨hc, hp⟩, rfl⟩
    exact ⟨c.val, hc, hp⟩
  · rintro ⟨m, hm, hp⟩
    exact ⟨⟨uid, m⟩, ⟨hm, hp⟩, rfl⟩

/-- **The sections of a value**: the users whose flag is set, and the other ones who are let into
the cast. -/
theorem mem_sort {castId uid : Text} {db : Value} :
    (uid ∈ (snapshot castId db).online.map (·.key) ↔ isOnline castId uid db) ∧
      (uid ∈ (snapshot castId db).offline.map (·.key) ↔
        HasPermission db castId uid ∧ ¬isOnline castId uid db) := by
  have hmember : HasPermission db castId uid ↔ (memberOf castId uid db).isSome := by
    rw [HasPermission, memberOf, readMember]
    split_ifs with hnull <;> simp [hnull]
  refine ⟨mem_section FeedUsers.Member.isOnline, ?_⟩
  have hoffline : uid ∈ (snapshot castId db).offline.map (·.key) ↔
      (memberOf castId uid db).any fun m => !m.isOnline := mem_section fun m => !m.isOnline
  rw [hoffline, hmember, isOnline]
  cases memberOf castId uid db <;> simp

/-! ### What a write does to the flag -/

/-- The flag of a user after a write: `online` sets it, and a new record has none. -/
def onlineAfter (castId uid : Text) (flag : Bool) : StoreWrite → Bool
  | .online c u value => if c = castId ∧ u = uid then value else flag
  | .record _ (.member c u _) | .record _ (.removeMember c u) =>
    if c = castId ∧ u = uid then false else flag
  | _ => flag

lemma onlineAfter_of_node_ne {castId uid : Text} {w : StoreWrite}
    (h : w.node ≠ .member castId uid) (flag : Bool) : onlineAfter castId uid flag w = flag := by
  cases w with
  | record key write => cases write <;> grind [StoreWrite.node, onlineAfter]
  | online c u value => grind [StoreWrite.node, onlineAfter]
  | _ => rfl

/-- A record is written without the flag. -/
lemma not_isOnline_member (userObj : MemberRecord) :
    (readMember (member userObj)).any FeedUsers.Member.isOnline = false := by
  have honline : field (member userObj) Key.online = none := by
    simp +decide [member, field_node_cons]
  rw [readMember]
  split_ifs with hnull
  · rfl
  · simp [FeedUsers.Member.isOnline, honline]

lemma isOnline_apply {w : StoreWrite} (h : w.Clean) (castId uid : Text) (db : Value) :
    isOnline castId uid (db.apply w.change) = onlineAfter castId uid (isOnline castId uid db) w := by
  have hchild := h.child_apply db (.member castId uid)
  by_cases hn : w.node = .member castId uid
  · rw [if_pos hn] at hchild
    rw [isOnline, memberOf, hchild]
    rcases StoreWrite.member_cases hn with ⟨key, userObj, rfl⟩ | ⟨key, rfl⟩ | ⟨value, rfl⟩
    · simp [StoreWrite.below, StoreWrite.value, not_isOnline_member, onlineAfter]
    · simp [StoreWrite.below, StoreWrite.value, readMember, PathTree.isNull_null, onlineAfter]
    · simp [StoreWrite.below, StoreWrite.value, readMember_online, onlineAfter,
        FeedUsers.Member.isOnline]
  · rw [if_neg hn] at hchild
    rw [isOnline, memberOf, hchild, onlineAfter_of_node_ne hn]
    rfl

/-! ### The apps, the clients and the database -/

/-- A user, by an id that is a single segment. -/
abbrev Uid := {uid : Text // PathSegment uid}

/-- A write that some screen of the user's app issues, with ids that are single segments. -/
structure OwnWrite (uid : Uid) where
  write : StoreWrite
  clean : write.Clean
  issued : ∃ o : Operation, o.uid = uid ∧ write ∈ o.writes

/-- What the mounted `Main`s write on an event, one after the other. -/
def values (s : Online.State) : Online.Event → List Bool
  | .mount => [true]
  | .unmount _ => []
  | .change nextAppState => s.mains.filterMap (Online.handleAppStateChange · nextAppState)

structure World where
  db : Value
  /-- The app of each user. -/
  app : Uid → Online.State
  /-- The writes of each user's client not settled yet, the oldest first. -/
  pending : Uid → List StoreWrite
  /-- A `FeedUsers` of the cast, and the values it has been given. -/
  screen : FeedUsers.State × FeedUsers.Delivered

/-- No app has opened the cast yet, nor `FeedUsers`. -/
def World.init (db : Value) (current : Uid → Online.AppState) : World where
  db := db
  app uid := Online.init (current uid)
  pending _ := []
  screen := (FeedUsers.init, none, none)

def World.issue (w : World) (uid : Uid) (ws : List StoreWrite) : World :=
  { w with pending := Function.update w.pending uid (w.pending uid ++ ws) }

inductive Event where
  /-- A `Main` is mounted or unmounted, or the state of the app changes. -/
  | app (uid : Uid) (e : Online.Event)
  /-- Another screen issues a write. -/
  | issue (uid : Uid) (w : OwnWrite uid)
  /-- The oldest write of the user's client is accepted or rejected. -/
  | settle (uid : Uid) (accepted : Bool)
  /-- `FeedUsers` is given the value of the database. -/
  | value
  /-- The second `setState` of its callback. -/
  | setOffline

def step (castId : Text) (w : World) : Event → Option World
  | .app uid e =>
    (Online.step (w.app uid) e).map fun s =>
      { w.issue uid ((values (w.app uid) e).map (.online castId uid)) with
        app := Function.update w.app uid s }
  | .issue uid wr =>
    match wr.write with
    -- an `online` of this cast comes from `Main`
    | .online c _ _ => if c = castId then none else some (w.issue uid [wr.write])
    | _ => some (w.issue uid [wr.write])
  | .settle uid accepted =>
    match w.pending uid with
    | [] => none
    | wr :: rest =>
      let w := { w with pending := Function.update w.pending uid rest }
      some (if accepted then { w with db := w.db.apply wr.change } else w)
  | .value =>
    (noting FeedUsers.step FeedUsers.delivered w.screen (.value (snapshot castId w.db))).map
      fun screen => { w with screen }
  | .setOffline =>
    (noting FeedUsers.step FeedUsers.delivered w.screen .setOffline).map
      fun screen => { w with screen }

/-- The user has the cast open, in the active app. -/
def Present (s : Online.State) : Prop := s.mains ≠ [] ∧ s.current = .active

instance (s : Online.State) : Decidable (Present s) := inferInstanceAs (Decidable (_ ∧ _))

/-- Every app is orderly, no record is written or removed while its user is present, and the
database refuses no write to the record of a member. -/
def Orderly (castId : Text) (w : World) : Event → Prop
  | .app uid e => Online.Orderly (w.app uid) e
  | .issue uid wr => wr.write.node = .member castId uid → ¬Present (w.app uid)
  | .settle uid accepted => ∀ wr ∈ (w.pending uid).head?, wr.node = .member castId uid → accepted
  | .value | .setOffline => True

instance (castId : Text) (w : World) : (e : Event) → Decidable (Orderly castId w e)
  | .app uid e => inferInstanceAs (Decidable (Online.Orderly (w.app uid) e))
  | .issue _ _ => inferInstanceAs (Decidable (_ → _))
  | .settle uid accepted => inferInstanceAs
      (Decidable (∀ wr ∈ (w.pending uid).head?, wr.node = .member castId uid → accepted))
  | .value | .setOffline => isTrue trivial

/-- A `FeedUsers` that has sorted the value of the database shows the users whose writes have
settled where they belong. -/
def Shows (castId : Text) (w : World) : Prop :=
  w.screen.2.2 = some (snapshot castId w.db) → w.screen.1.callback = none →
    ∀ uid : Uid, w.pending uid = [] →
      (uid.1 ∈ (w.screen.1.onlineUsers.getD []).map (·.key) ↔ Present (w.app uid)) ∧
      (uid.1 ∈ (w.screen.1.offlineUsers.getD []).map (·.key) ↔
        HasPermission w.db castId uid ∧ ¬Present (w.app uid))

/-! ### Whole runs -/

/-- The values written one after the other leave the last one. -/
lemma writes_eq (online : Option Bool) (mains : List Online.AppState) (next : Online.AppState) :
    Online.writes online mains next =
      (mains.filterMap (Online.handleAppStateChange · next)).foldl (fun _ v => some v) online := by
  induction mains generalizing online with
  | nil => rfl
  | cons appState rest ih =>
    have hrest := ih ((Online.handleAppStateChange appState next).or online)
    rw [Online.writes, List.foldl_cons, ← Online.writes, hrest]
    cases h : Online.handleAppStateChange appState next <;> simp [h]

/-- The flag that an app's writes leave is the one the app remembers. -/
lemma foldl_values {s s' : Online.State} {e : Online.Event} (h : Online.step s e = some s')
    (castId : Text) (uid : Uid) :
    ((values s e).map (.online castId uid)).foldl (onlineAfter castId uid) (s.online.getD false) =
      s'.online.getD false := by
  have hlast : ∀ (vs : List Bool) (flag : Option Bool),
      (vs.map (.online castId uid)).foldl (onlineAfter castId uid) (flag.getD false) =
        (vs.foldl (fun _ v => some v) flag).getD false := by
    intro vs
    induction vs with
    | nil => exact fun _ => rfl
    | cons v vs ih =>
      intro flag
      simpa [onlineAfter] using ih (some v)
  rw [hlast]
  cases e with
  | mount =>
    simp only [Online.step] at h
    split_ifs at h
    cases h
    rfl
  | unmount i =>
    simp only [Online.step] at h
    split_ifs at h
    cases h
    rfl
  | change next =>
    cases h
    rw [values, ← writes_eq]

/-- Every app knows its state and every client writes the records of its own user; once all its
writes are carried out, the flag of a user is the one the app remembers. -/
structure Followed (castId : Text) (w : World) : Prop where
  synced : ∀ uid, Online.Synced (w.app uid)
  own : ∀ uid, ∀ wr ∈ w.pending uid, wr.Clean ∧ ∀ c v, wr.node = .member c v → v = uid.1
  flag : ∀ uid, (w.pending uid).foldl (onlineAfter castId uid) (isOnline castId uid w.db) =
    (w.app uid).online.getD false
  sorted : FeedUsers.Sorted w.screen

variable {castId : Text} {w : World}

lemma Followed.present_iff (h : Followed castId w) (uid : Uid) :
    Present (w.app uid) ↔ (w.app uid).online.getD false = true := by
  have hcorrect : (w.app uid).online = some true ↔ Present (w.app uid) := (h.synced uid).correct
  rw [← hcorrect]
  cases (w.app uid).online <;> simp

lemma Followed.shows (h : Followed castId w) : Shows castId w := by
  intro hvalue hidle uid hsettled
  have hflag := h.flag uid
  rw [hsettled, List.foldl_nil] at hflag
  have honline : w.screen.1.onlineUsers = some (snapshot castId w.db).online := by
    rw [h.sorted.online, hvalue]
    rfl
  have hoffline : w.screen.1.offlineUsers = some (snapshot castId w.db).offline := by
    rw [h.sorted.offline, hidle, hvalue]
    rfl
  rw [honline, hoffline, h.present_iff, ← hflag]
  exact mem_sort

lemma followed_init {db : Value} {current : Uid → Online.AppState}
    (hdb : ∀ uid : Uid, isOnline castId uid db = false) :
    Followed castId (World.init db current) where
  synced uid := Online.synced_init (current uid)
  own := by simp [World.init]
  flag uid := hdb uid
  sorted := ⟨rfl, rfl, by simp [World.init, FeedUsers.init]⟩

/-- A client issues writes of its own, and they leave the flag that the app remembers. -/
lemma Followed.issue (h : Followed castId w) {uid : Uid} {ws : List StoreWrite}
    {s : Online.State} (hs : Online.Synced s)
    (hown : ∀ wr ∈ ws, wr.Clean ∧ ∀ c v, wr.node = .member c v → v = uid.1)
    (hflag : ws.foldl (onlineAfter castId uid) ((w.app uid).online.getD false) =
      s.online.getD false) :
    Followed castId { w.issue uid ws with app := Function.update w.app uid s } where
  synced v := by
    by_cases hv : v = uid
    · subst hv
      simpa using hs
    · simpa [hv] using h.synced v
  own v wr hwr := by
    by_cases hv : v = uid
    · subst hv
      simp only [World.issue, Function.update_self] at hwr
      rcases List.mem_append.mp hwr with hwr | hwr
      · exact h.own v wr hwr
      · exact hown wr hwr
    · simp only [World.issue, Function.update_of_ne hv] at hwr
      exact h.own v wr hwr
  flag v := by
    by_cases hv : v = uid
    · subst hv
      simp only [World.issue, Function.update_self, List.foldl_append]
      rw [h.flag v, hflag]
    · simpa [World.issue, hv] using h.flag v
  sorted := h.sorted

/-- A `Main` writes as its app changes. -/
lemma Followed.app (h : Followed castId w) (hcast : PathSegment castId) {uid : Uid}
    {e : Online.Event} {s : Online.State} (hg : Online.Orderly (w.app uid) e)
    (hs : Online.step (w.app uid) e = some s) :
    Followed castId { w.issue uid ((values (w.app uid) e).map (.online castId uid)) with
      app := Function.update w.app uid s } := by
  refine h.issue (Online.synced_step (h.synced uid) hg hs) (fun wr hwr => ?_)
    (foldl_values hs castId uid)
  obtain ⟨value, -, rfl⟩ := List.mem_map.mp hwr
  refine ⟨?_, fun c v hnode => (Node.member.inj hnode).2.symm⟩
  have hkeys : ∀ part ∈ [Key.feeds, Key.feedNew, Key.members, Key.online], PathSegment part := by
    decide
  simp only [StoreWrite.Clean, StoreWrite.path, StoreWrite.place, StoreWrite.rest, Place.path]
  grind [uid.2]

/-- Another screen writes. -/
lemma Followed.screen (h : Followed castId w) {uid : Uid} {wr : OwnWrite uid}
    (hne : ∀ value, wr.write ≠ .online castId uid value)
    (hg : wr.write.node = .member castId uid → ¬Present (w.app uid)) :
    Followed castId (w.issue uid [wr.write]) := by
  obtain ⟨o, ho, hwr⟩ := wr.issued
  have hown : ∀ c v, wr.write.node = .member c v → v = uid.1 := by
    intro c v hnode
    have hcases := Operation.node_cases hwr
    rw [hnode] at hcases
    rw [← ho]
    exact hcases
  have hflag : onlineAfter castId uid ((w.app uid).online.getD false) wr.write =
      (w.app uid).online.getD false := by
    by_cases hn : wr.write.node = .member castId uid
    · have hfalse : (w.app uid).online.getD false = false :=
        Bool.eq_false_iff.mpr fun htrue => hg hn ((h.present_iff uid).mpr htrue)
      rcases StoreWrite.member_cases hn with ⟨key, userObj, hw⟩ | ⟨key, hw⟩ | ⟨value, hw⟩
      · simp [hw, onlineAfter, hfalse]
      · simp [hw, onlineAfter, hfalse]
      · exact absurd hw (hne value)
    · exact onlineAfter_of_node_ne hn _
  have hissue : Followed castId
      { w.issue uid [wr.write] with app := Function.update w.app uid (w.app uid) } :=
    h.issue (h.synced uid) (by simpa using ⟨wr.clean, hown⟩) (by simpa using hflag)
  rwa [Function.update_eq_self] at hissue

/-- The database settles a write: no flag changes but that of the user who wrote it. -/
lemma Followed.settle (h : Followed castId w) {uid : Uid} {wr : StoreWrite}
    {rest : List StoreWrite} {accepted : Bool} (hpending : w.pending uid = wr :: rest)
    (hg : wr.node = .member castId uid → accepted) :
    Followed castId { w with
      pending := Function.update w.pending uid rest
      db := if accepted then w.db.apply wr.change else w.db } := by
  have hwr : wr.Clean ∧ ∀ c v, wr.node = .member c v → v = uid.1 :=
    h.own uid wr (by simp [hpending])
  have hdb : ∀ v, isOnline castId v (if accepted then w.db.apply wr.change else w.db) =
      if accepted then onlineAfter castId v (isOnline castId v w.db) wr
      else isOnline castId v w.db := by
    intro v
    split_ifs
    · exact isOnline_apply hwr.1 castId v w.db
    · rfl
  refine ⟨h.synced, fun v wr' hwr' => ?_, fun v => ?_, h.sorted⟩
  · by_cases hv : v = uid
    · subst hv
      simp only [Function.update_self] at hwr'
      exact h.own v wr' (by simp [hpending, hwr'])
    · simp only [Function.update_of_ne hv] at hwr'
      exact h.own v wr' hwr'
  · have hflag := h.flag v
    by_cases hv : v = uid
    · subst hv
      rw [hpending, List.foldl_cons] at hflag
      simp only [Function.update_self, hdb]
      rw [← hflag]
      by_cases hn : wr.node = .member castId v
      · rw [if_pos (hg hn)]
      · rw [onlineAfter_of_node_ne hn, ite_self]
    · have hn : wr.node ≠ .member castId v := fun hn => hv (Subtype.ext (hwr.2 _ _ hn))
      simp only [Function.update_of_ne hv, hdb, onlineAfter_of_node_ne hn, ite_self]
      exact hflag

lemma Followed.setScreen (h : Followed castId w) {screen : FeedUsers.State × FeedUsers.Delivered}
    (hsorted : FeedUsers.Sorted screen) : Followed castId { w with screen } where
  synced := h.synced
  own := h.own
  flag := h.flag
  sorted := hsorted

/-- One orderly step. -/
lemma followed_step (hcast : PathSegment castId) {w' : World} {e : Event} (h : Followed castId w)
    (hg : Orderly castId w e) (hs : step castId w e = some w') : Followed castId w' := by
  cases e with
  | app uid e =>
    obtain ⟨s, hstep, rfl⟩ := Option.map_eq_some_iff.mp hs
    exact h.app hcast hg hstep
  | issue uid wr =>
    simp only [step] at hs
    split at hs
    · rename_i c v value hw
      split_ifs at hs with hc
      cases hs
      refine h.screen (fun value' hw' => hc ?_) hg
      rw [hw'] at hw
      exact (StoreWrite.online.inj hw).1.symm
    · rename_i hne
      cases hs
      exact h.screen (fun value => hne castId uid value) hg
  | settle uid accepted =>
    simp only [step] at hs
    split at hs
    · cases hs
    · rename_i wr rest hpending
      have hhead : wr.node = .member castId uid → accepted := hg wr (by simp [hpending])
      have hsettle := h.settle hpending hhead
      cases hs
      cases accepted <;> exact hsettle
  | value =>
    obtain ⟨screen, hstep, rfl⟩ := Option.map_eq_some_iff.mp hs
    exact h.setScreen (FeedUsers.sorted_step h.sorted hstep)
  | setOffline =>
    obtain ⟨screen, hstep, rfl⟩ := Option.map_eq_some_iff.mp hs
    exact h.setScreen (FeedUsers.sorted_step h.sorted hstep)

def following (hcast : PathSegment castId) : Invariant (step castId) (Orderly castId) where
  holds := Followed castId
  preserved := followed_step hcast

/-- **Who is online.** Whatever the order in which the database carries out the writes of all
clients, a `FeedUsers` that has sorted the value of the database shows every user whose writes
have settled in the online section while the cast is open in the user's active app, and otherwise
in the offline one, if the user is let in at all. -/
theorem shows_online (hcast : PathSegment castId) {db : Value} (current : Uid → Online.AppState)
    (hdb : ∀ uid : Uid, isOnline castId uid db = false) {es : List Event}
    (h : Along (step castId) (Orderly castId) (World.init db current) es) :
    Throughout (step castId) (Shows castId) (World.init db current) es :=
  (following hcast).throughout (fun _ hw => hw.shows) (followed_init hdb) h

def guest : Uid := ⟨txt ['u'], by decide⟩

/-- The guest joins the cast `a`. -/
def joins : OwnWrite guest where
  write := .record [] (.member (txt ['a']) (txt ['u'])
    (MemberRecords.Writer.userObj ⟨txt ['u'], none, none, false⟩ (.requestAccess (txt ['p']))))
  clean := by decide
  issued := ⟨.requestAccess ⟨txt ['u'], none, none, false⟩ (txt ['a']) (txt ['p'])
    Membership.exampleWedcast, rfl, List.mem_cons_self⟩

/-- The guest opens it, and another user looks at the members. -/
def guestRun : List Event :=
  [.issue guest joins, .app guest .mount, .settle guest true, .settle guest true, .value,
    .setOffline]

theorem shows_online_guest :
    (run (step (txt ['a'])) (World.init .null fun _ => .active) guestRun).isSome ∧
      Throughout (step (txt ['a'])) (Shows (txt ['a'])) (World.init .null fun _ => .active)
        guestRun :=
  ⟨by decide, shows_online (by decide) (fun _ => .active) (fun _ => rfl) (by decide)⟩

end Wedcast.OnlineUsers
