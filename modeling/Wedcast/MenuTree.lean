import Mathlib.Data.List.Sort
import Wedcast.MenuLists
import Wedcast.StoreRuns

/-!
The lists of `Menu`, read off the one tree of the database.

`Menu` listens to the two lists of its user and to the `chatInfo` of the casts in them. Here the
values that its listeners are sent come from the writes that the screens of all users issue, and
what is on the screen is stated about the tree: every cast that the user's list names and that is
there has one row, which shows its `chatInfo`, and there is no other row.
-/

namespace Wedcast.MenuTree

open Runs Store
open Menu (ListKind Casts)

/-! ### What `Menu` reads -/

/-- The order in which `forEach` visits the children; none of them has a `feedCount`. -/
structure KeyOrder where
  order : Finset Text → List Text
  mem_order : ∀ {keys : Finset Text} {key : Text}, key ∈ order keys ↔ key ∈ keys

/-- `users/${uid}/myWedding` and `users/${uid}/feedList`, in parts. -/
def listPath : ListKind → Text → List Text
  | .myWedding, uid => Place.path (.user uid) ++ [Key.myWedding]
  | .feedList, uid => Place.path (.user uid) ++ [Key.feedList]

/-- `data` of `getUserFeeds`: the castId of each child. -/
def castIds (K : KeyOrder) (t : Value) : List Text :=
  (K.order t.keys).filterMap fun key => (field (t.child [key]) Key.castId).bind Leaf.str?

def lists (K : KeyOrder) (db : Value) (kind : ListKind) (uid : Text) : List Text :=
  castIds K (db.child (listPath kind uid))

/-- The casts, as far as each is found under its own castId. -/
def casts (db : Value) : Casts where
  chatInfo castId :=
    (readChatInfo (db.child (Node.chatInfo castId).path)).filter (·.castId = castId)
  key h := by simpa using (Option.filter_eq_some_iff.mp h).2

/-- The list a node is an entry of. -/
def list? : Node → Option (ListKind × Text)
  | .myWedding uid _ => some (.myWedding, uid)
  | .feedList uid _ => some (.feedList, uid)
  | _ => none

/-- What the listeners are sent when the node is written, if its value has changed. -/
def emitted (K : KeyOrder) (db db' : Value) : Node → Option Menu.Event
  | .chatInfo castId =>
    let path := (Node.chatInfo castId).path
    if db'.child path = db.child path then none
    else
      match (casts db').chatInfo castId with
      | some feed => some (.chatInfo feed)
      | none => some (.removeChatInfo castId)
  | n => (list? n).bind fun (kind, uid) =>
    let path := listPath kind uid
    if db'.child path = db.child path then none else some (.list kind uid (lists K db' kind uid))

/-! ### The screen and the tree -/

structure State where
  db : Value
  menu : Menu.World

/-- `componentDidMount` -/
def mount (K : KeyOrder) (uid : Text) (db : Value) : State :=
  ⟨db, Menu.mount uid (casts db) (lists K db)⟩

inductive Event where
  | write (w : IssuedWrite)
  | deliverList (kind : ListKind) (a : ℕ)
  | deliver (kind : ListKind) (i : ℕ × ℕ) (l : ℕ)

def step (K : KeyOrder) (s : State) : Event → Option State
  | .write w =>
    (Store.step s.db w).bind fun db =>
      match emitted K s.db db w.write.node with
      | some e => (Menu.step s.menu e).map fun menu => ⟨db, menu⟩
      | none => some ⟨db, s.menu⟩
  | .deliverList kind a =>
    (Menu.step s.menu (.deliverList kind a)).map fun menu => { s with menu }
  | .deliver kind i l =>
    (Menu.step s.menu (.deliver kind i l)).map fun menu => { s with menu }

/-- No `avatarUri` is written to a cast that is not there, and every callback comes in time. -/
def InTime (s : State) : Event → Prop
  | .write w => AvatarInside s.db w
  | .deliverList _ _ => True
  | .deliver kind i l => Menu.InTime s.menu (.deliver kind i l)

instance (db : Value) (w : IssuedWrite) : Decidable (AvatarInside db w) :=
  match h : w.write with
  | .avatarUri castId _ =>
    decidable_of_iff (¬(db.child (Node.chatInfo castId).path).IsNull) (by simp [AvatarInside, h])
  | .record _ _ | .online _ _ _ | .newPassword _ _ | .upload _ _ _ | .removeUpload _ _
  | .profile _ _ => isTrue (by simp [AvatarInside, h])

instance (s : State) : (e : Event) → Decidable (InTime s e)
  | .write w => inferInstanceAs (Decidable (AvatarInside s.db w))
  | .deliverList _ _ => isTrue trivial
  | .deliver kind i l => inferInstanceAs (Decidable (Menu.InTime s.menu (.deliver kind i l)))

/-- The user's list names the cast. -/
def Listed (db : Value) (kind : ListKind) (uid castId : Text) : Prop :=
  ∃ key, field (db.child (listPath kind uid ++ [key])) Key.castId = some (.str castId)

variable {K : KeyOrder} {db db' : Value} {uid : Text}

/-! ### Reading -/

lemma mem_lists {kind : ListKind} {castId : Text} :
    castId ∈ lists K db kind uid ↔ Listed db kind uid castId := by
  have hstr : ∀ x : Option Leaf, x.bind Leaf.str? = some castId ↔ x = some (.str castId) := by
    intro x
    rcases x with _ | (_ | _ | _ | _) <;> simp [Leaf.str?]
  simp only [lists, castIds, List.mem_filterMap, K.mem_order, PathTree.child_child, hstr]
  constructor
  · rintro ⟨key, -, hcast⟩
    exact ⟨key, hcast⟩
  · rintro ⟨key, hcast⟩
    refine ⟨key, PathTree.mem_keys.mpr fun hnull => ?_, hcast⟩
    rw [PathTree.child_child] at hnull
    rw [field, PathTree.isNull_iff.mp hnull] at hcast
    cases hcast

/-- In a database that can be read, the casts are found under their own castIds. -/
lemma casts_chatInfo (h : WellFormed db) (castId : Text) :
    (casts db).chatInfo castId = readChatInfo (db.child (Node.chatInfo castId).path) := by
  simp only [casts]
  cases hread : readChatInfo (db.child (Node.chatInfo castId).path) with
  | none => rfl
  | some feed =>
    have hsome : ¬(db.child (Node.chatInfo castId).path).IsNull := by
      intro hnull
      rw [PathTree.eq_null hnull, readChatInfo_null] at hread
      cases hread
    obtain ⟨feed', hread', hkey⟩ := h castId hsome
    obtain rfl : feed = feed' := Option.some.inj (hread.symm.trans hread')
    simp [hkey]

/-! ### What a write changes -/

lemma meets_listPath {n : Node} {kind : ListKind} :
    PathTree.Meets n.path (listPath kind uid) → list? n = some (kind, uid) := by
  intro h
  cases n <;> cases kind <;>
    simp +decide [Node.path, Place.path, listPath, PathTree.Meets, list?] at h ⊢ <;> grind

/-- A list is changed by the writes of its entries only. -/
lemma child_listPath {w : IssuedWrite} (hs : Store.step db w = some db') (kind : ListKind)
    (uid : Text) (h : list? w.write.node ≠ some (kind, uid)) :
    db'.child (listPath kind uid) = db.child (listPath kind uid) := by
  obtain rfl := Option.some.inj hs
  rw [PathTree.apply, w.clean.change_eq, w.write.path_eq]
  exact PathTree.child_set_of_not_meets (fun hm => h (meets_listPath hm.of_append_left)) _

lemma casts_of_ne {w : IssuedWrite} (hs : Store.step db w = some db') {castId : Text}
    (h : w.write.node ≠ .chatInfo castId) :
    (casts db').chatInfo castId = (casts db).chatInfo castId := by
  have hchild := step_child hs (.chatInfo castId)
  rw [if_neg h] at hchild
  simp only [casts, hchild]

lemma casts_eq {a b : Casts} (h : ∀ castId, a.chatInfo castId = b.chatInfo castId) : a = b := by
  have hchatInfo : a.chatInfo = b.chatInfo := funext h
  cases a
  cases b
  congr

/-- What the screen takes the database to hold is what the tree holds. -/
structure Reads (K : KeyOrder) (db : Value) (m : Menu.World) : Prop where
  casts : m.casts = casts db
  lists : m.lists = lists K db

/-- A write to a `chatInfo`. -/
lemma reads_chatInfo {m : Menu.World} (h : Reads K db m) {w : IssuedWrite}
    (hs : Store.step db w = some db') {castId : Text} (hn : w.write.node = .chatInfo castId) :
    match emitted K db db' w.write.node with
    | some e => ∀ m', Menu.step m e = some m' → Reads K db' m'
    | none => Reads K db' m := by
  have hlists : lists K db = lists K db' := by
    funext kind uid
    have hchild := child_listPath hs kind uid (by simp [hn, list?])
    simp only [lists, hchild]
  have hcasts : ∀ c, c ≠ castId → (casts db').chatInfo c = (casts db).chatInfo c := by
    intro c hc
    exact casts_of_ne hs (by simp [hn, hc.symm])
  rw [hn]
  simp only [emitted]
  by_cases hsame : db'.child (Node.chatInfo castId).path = db.child (Node.chatInfo castId).path
  · simp only [if_pos hsame]
    refine ⟨h.casts.trans (casts_eq fun c => ?_), h.lists.trans hlists⟩
    by_cases hc : c = castId
    · simp only [casts, hc, hsame]
    · exact (hcasts c hc).symm
  · simp only [if_neg hsame]
    have hupdate : ∀ value hvalue, value = (casts db').chatInfo castId →
        Reads K db' (m.setChatInfo castId value hvalue) := by
      rintro value hvalue rfl
      refine ⟨casts_eq fun c => ?_, h.lists.trans hlists⟩
      by_cases hc : c = castId
      · subst hc
        simp [Menu.World.setChatInfo, Casts.update]
      · simp [Menu.World.setChatInfo, Casts.update, hc, h.casts, hcasts c hc]
    cases hcast : (casts db').chatInfo castId with
    | none =>
      rintro m' ⟨⟩
      exact hupdate none (by simp) hcast.symm
    | some feed =>
      rintro m' ⟨⟩
      obtain rfl := (casts db').key hcast
      exact hupdate (some feed) (by simp) hcast.symm

/-- A write to an entry of a list. -/
lemma reads_list {m : Menu.World} (h : Reads K db m) {w : IssuedWrite}
    (hs : Store.step db w = some db') {kind : ListKind} {uid : Text}
    (hn : list? w.write.node = some (kind, uid)) :
    match emitted K db db' w.write.node with
    | some e => ∀ m', Menu.step m e = some m' → Reads K db' m'
    | none => Reads K db' m := by
  have hcasts : casts db = casts db' := by
    refine casts_eq fun c => (casts_of_ne hs ?_).symm
    intro hc
    rw [hc] at hn
    cases hn
  have hlists : ∀ k v, (k, v) ≠ (kind, uid) → lists K db' k v = lists K db k v := by
    intro k v hkv
    have hchild := child_listPath hs k v (by simpa [hn] using hkv.symm)
    simp only [lists, hchild]
  have hemitted : emitted K db db' w.write.node =
      if db'.child (listPath kind uid) = db.child (listPath kind uid) then none
      else some (.list kind uid (lists K db' kind uid)) := by
    cases hnode : w.write.node <;> simp_all [emitted, list?]
  rw [hemitted]
  split_ifs with hsame
  · refine ⟨h.casts.trans hcasts, h.lists.trans (funext₂ fun k v => ?_)⟩
    by_cases hkv : (k, v) = (kind, uid)
    · obtain ⟨rfl, rfl⟩ := Prod.mk.inj hkv
      simp only [lists, hsame]
    · exact (hlists k v hkv).symm
  · rintro m' ⟨⟩
    refine ⟨h.casts.trans hcasts, funext₂ fun k v => ?_⟩
    by_cases hk : k = kind
    · subst hk
      by_cases hv : v = uid
      · subst hv
        simp
      · simp [hv, h.lists, hlists k v (by simp [hv])]
    · simp [hk, h.lists, hlists k v (by simp [hk])]

/-- A write of anything else is not seen. -/
lemma reads_other {m : Menu.World} (h : Reads K db m) {w : IssuedWrite}
    (hs : Store.step db w = some db') (hn : ∀ castId, w.write.node ≠ .chatInfo castId)
    (hlist : list? w.write.node = none) : Reads K db' m := by
  refine ⟨h.casts.trans (casts_eq fun c => (casts_of_ne hs (hn c)).symm),
    h.lists.trans (funext₂ fun k v => ?_)⟩
  have hchild := child_listPath hs k v (by simp [hlist])
  simp only [lists, hchild]

lemma reads_write {m : Menu.World} (h : Reads K db m) {w : IssuedWrite}
    (hs : Store.step db w = some db') :
    match emitted K db db' w.write.node with
    | some e => ∀ m', Menu.step m e = some m' → Reads K db' m'
    | none => Reads K db' m := by
  by_cases hchat : ∃ castId, w.write.node = .chatInfo castId
  · obtain ⟨castId, hn⟩ := hchat
    exact reads_chatInfo h hs hn
  · have hn : ∀ castId, w.write.node ≠ .chatInfo castId := fun castId heq => hchat ⟨castId, heq⟩
    cases hlist : list? w.write.node with
    | some kindUid => exact reads_list h hs hlist
    | none =>
      have hemitted : emitted K db db' w.write.node = none := by
        cases hnode : w.write.node <;> simp_all [emitted, list?]
      rw [hemitted]
      exact reads_other h hs hn hlist

/-! ### Runs -/

lemma write_cases {s s' : State} {w : IssuedWrite} (hs : step K s (.write w) = some s') :
    Store.step s.db w = some s'.db ∧
      match emitted K s.db s'.db w.write.node with
      | some e => Menu.step s.menu e = some s'.menu
      | none => s'.menu = s.menu := by
  simp only [step] at hs
  obtain ⟨db', hdb, hmenu⟩ := Option.bind_eq_some_iff.mp hs
  cases hemitted : emitted K s.db db' w.write.node with
  | none =>
    simp only [hemitted] at hmenu
    obtain rfl := Option.some.inj hmenu
    simp [hdb, hemitted]
  | some e =>
    simp only [hemitted] at hmenu
    obtain ⟨menu, hstep, rfl⟩ := Option.map_eq_some_iff.mp hmenu
    simp [hdb, hemitted, hstep]

/-- What a write makes the database send is no matter of time. -/
lemma inTime_of_emitted {n : Node} {e : Menu.Event} (h : emitted K db db' n = some e)
    (m : Menu.World) : Menu.InTime m e := by
  cases n with
  | chatInfo castId =>
    simp only [emitted] at h
    split_ifs at h
    split at h <;> cases h <;> trivial
  | myWedding uid key | feedList uid key =>
    simp only [emitted, list?, Option.bind_some] at h
    split_ifs at h
    cases h
    trivial
  | _ => cases h

/-- A callback does not change the database. -/
lemma reads_of_deliver {m m' : Menu.World} {e : Menu.Event}
    (he : (∃ kind a, e = .deliverList kind a) ∨ ∃ kind i l, e = .deliver kind i l)
    (h : Reads K db m) (hs : Menu.step m e = some m') : Reads K db m' := by
  rcases he with ⟨kind, a, rfl⟩ | ⟨kind, i, l, rfl⟩
  · obtain ⟨x, -, rfl⟩ := Option.map_eq_some_iff.mp hs
    exact ⟨h.casts, h.lists⟩
  · obtain ⟨x, -, rfl⟩ := Option.map_eq_some_iff.mp hs
    exact ⟨h.casts, h.lists⟩

/-- The screen reads the tree, and each of its lists is on its way to what it has read. -/
structure Following (K : KeyOrder) (uid : Text) (s : State) : Prop where
  wellFormed : WellFormed s.db
  reads : Reads K s.db s.menu
  fresh : ∀ kind,
    Menu.Fresh s.menu.casts (s.menu.lists kind uid) uid (s.menu.panel kind)

lemma Following.step {s s' : State} {e : Event} (h : Following K uid s) (hg : InTime s e)
    (hs : step K s e = some s') : Following K uid s' := by
  cases e with
  | write w =>
    obtain ⟨hdb, hmenu⟩ := write_cases hs
    have hformed := (wellFormed_step h.wellFormed hdb).mpr hg
    have hreads := reads_write h.reads hdb
    cases hemitted : emitted K s.db s'.db w.write.node with
    | none =>
      rw [hemitted] at hmenu hreads
      refine ⟨hformed, ?_, ?_⟩
      · rw [hmenu]
        exact hreads
      · rw [hmenu]
        exact h.fresh
    | some e =>
      rw [hemitted] at hmenu hreads
      refine ⟨hformed, hreads _ hmenu, fun kind => ?_⟩
      exact Menu.fresh_step h.fresh (inTime_of_emitted hemitted s.menu) hmenu kind
  | deliverList kind a =>
    obtain ⟨menu, hmenu, rfl⟩ := Option.map_eq_some_iff.mp hs
    refine ⟨h.wellFormed, reads_of_deliver (.inl ⟨kind, a, rfl⟩) h.reads hmenu, fun k => ?_⟩
    exact Menu.fresh_step (e := .deliverList kind a) h.fresh trivial hmenu k
  | deliver kind i l =>
    obtain ⟨menu, hmenu, rfl⟩ := Option.map_eq_some_iff.mp hs
    refine ⟨h.wellFormed, reads_of_deliver (.inr ⟨kind, i, l, rfl⟩) h.reads hmenu, fun k => ?_⟩
    exact Menu.fresh_step (e := .deliver kind i l) h.fresh hg hmenu k

def followed (K : KeyOrder) (uid : Text) : Invariant (step K) InTime where
  holds := Following K uid
  preserved h hg hs := h.step hg hs

/-- One row for each cast that the user's list names and that is there, with its `chatInfo`, and no
other row. -/
structure Shows (db : Value) (kind : ListKind) (uid : Text) (display : List (Option ChatInfo)) :
    Prop where
  once : display.Nodup
  rows : ∀ row, row ∈ display ↔ ∃ feed, row = some feed ∧ Listed db kind uid feed.castId ∧
    readChatInfo (db.child (Node.chatInfo feed.castId).path) = some feed

lemma Following.shows {s : State} (h : Following K uid s) {kind : ListKind}
    (hsettled : (s.menu.panel kind).Settled) :
    Shows s.db kind uid (s.menu.panel kind).display := by
  have hup := (h.fresh kind).upToDate hsettled
  rw [h.reads.casts, h.reads.lists] at hup
  refine ⟨hup.once, fun row => ⟨fun hrow => ?_, ?_⟩⟩
  · obtain ⟨hne, castId, hmem, hcast⟩ := hup.only row hrow
    obtain ⟨feed, rfl⟩ := Option.ne_none_iff_exists'.mp hne
    obtain rfl := (casts s.db).key hcast
    exact ⟨feed, rfl, mem_lists.mp hmem, (casts_chatInfo h.wellFormed _).symm.trans hcast⟩
  · rintro ⟨feed, rfl, hlisted, hread⟩
    have hcast := (casts_chatInfo h.wellFormed feed.castId).trans hread
    have hevery := hup.every feed.castId (mem_lists.mpr hlisted) (by simp [hcast])
    rwa [hcast] at hevery

/-- **The lists on the screen are those of the tree.** Whatever the screens of all users write, and
in whatever order the listeners of `Menu` are served as long as the callbacks come in time: whenever
none of them waits for a value, both lists show the casts of the user as the tree has them. -/
theorem shows_listed (K : KeyOrder) (uid : Text) {db : Value} (h : WellFormed db)
    {es : List Event} (hes : Along (step K) InTime (mount K uid db) es) :
    Throughout (step K) (fun s => ∀ kind, (s.menu.panel kind).Settled →
      Shows s.db kind uid (s.menu.panel kind).display) (mount K uid db) es := by
  refine (followed K uid).throughout (fun s hs kind hsettled => hs.shows hsettled) ?_ hes
  exact ⟨h, ⟨rfl, rfl⟩, Menu.fresh_mount uid (casts db) (lists K db)⟩

/-- The keys in the order of their code units. -/
def byText : KeyOrder where
  order keys := Quot.liftOn keys.val (·.insertionSort (· ≤ ·)) fun l l' h => by
    have hperm : (l.insertionSort (· ≤ ·)).Perm (l'.insertionSort (· ≤ ·)) :=
      (List.perm_insertionSort _ l).trans (h.trans (List.perm_insertionSort _ l').symm)
    exact hperm.eq_of_pairwise' (List.pairwise_insertionSort _ l) (List.pairwise_insertionSort _ l')
  mem_order := by
    rintro ⟨⟨keys⟩, hkeys⟩ key
    exact (List.perm_insertionSort _ keys).mem_iff

/-- A guest of the cast `a` gets it into the list. -/
def listsCast : IssuedWrite where
  write := .record [] (.feedList (txt ['g']) (txt ['a'])
    ⟨txt ['i'], txt ['h'], txt ['A'], 0, txt ['a'], none, .serverTimestamp⟩)
  clean := by decide
  issued := ⟨.requestAccess ⟨txt ['g'], none, none, true⟩ (txt ['a']) (txt ['p']) _,
    List.mem_cons_of_mem _ List.mem_cons_self⟩

/-- The host creates the cast and the guest joins it, with the guest's `Menu` mounted. -/
def guestRun : List Event :=
  [.write createsCast, .write listsCast, .deliverList .feedList 0, .deliverList .feedList 0,
    .deliver .feedList (0, 0) 0]

theorem shows_listed_guest :
    (run (step byText) (mount byText (txt ['g']) .null) guestRun).isSome ∧
      Throughout (step byText) (fun s => ∀ kind, (s.menu.panel kind).Settled →
        Shows s.db kind (txt ['g']) (s.menu.panel kind).display)
        (mount byText (txt ['g']) .null) guestRun := by
  have hnull : WellFormed .null := fun castId h => absurd PathTree.isNull_null h
  exact ⟨by decide +kernel, shows_listed byText (txt ['g']) hnull (by decide +kernel)⟩

end Wedcast.MenuTree
