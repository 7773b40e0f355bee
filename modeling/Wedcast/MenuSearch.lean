import Wedcast.StoreDirectory

/-!
Searches of `Menu` under way while the database changes.

`goToFeed` reads the cast first and the record of the user after it, and each answer comes when it
comes: several searches are under way at once, and the writes of other devices are carried out in
between. What a search opens is put together from two states of the database. It is nevertheless
what the directory opens at the second answer, up to the photo of the cast.
-/

namespace Wedcast.Store

open Runs

/-! ### One search -/

/-- A search that has not ended, by the read that is under way. -/
inductive Search where
  | chatInfo (feedId : Text)
  /-- The cast was there, and the user at that moment is the one asked about. -/
  | member (feedId uid : Text) (feed : ChatInfo)
  deriving DecidableEq

/-- How a read ends. -/
inductive Reply where
  | value
  /-- `database/permission-denied` -/
  | denied
  | failed

/-- What the callback does. -/
inductive Outcome where
  | reads (search : Search)
  | opens (feedId : Text) (opened : Menu.Opened)
  /-- The cast was there, and `null.uid` throws. -/
  | throws
  | nothing

/-- The callbacks of the two reads, with the uid of `state.currentUser`; only the second one has a
`catch`. -/
def Search.callback (currentUser : Option Text) (db : Value) : Search → Reply → Outcome
  | .chatInfo feedId, .value =>
    match readChatInfo (db.child (Node.chatInfo (Menu.key feedId)).path), currentUser with
    | some feed, some uid => .reads (.member feedId uid feed)
    | some _, none => .throws
    | none, _ => .opens feedId (.notFound feedId)
  | .chatInfo _, _ => .nothing
  | .member feedId uid feed, .value =>
    let castId := Menu.key feedId
    if HasPermission db castId uid then .opens feedId (.weddingDetails castId feed.feedName)
    else .opens feedId (.privateFeed feed feed.owner castId)
  | .member feedId _ feed, .denied => .opens feedId (.privateFeed feed feed.owner (Menu.key feedId))
  | .member _ _ _, .failed => .nothing

/-- The search asks about this user, as far as it has got to ask about one. -/
def Search.IsFor (uid : Text) : Search → Prop
  | .chatInfo _ => True
  | .member _ uid' _ => uid' = uid

instance (uid : Text) : (search : Search) → Decidable (search.IsFor uid)
  | .chatInfo _ => isTrue trivial
  | .member _ _ _ => inferInstanceAs (Decidable (_ = _))

def Outcome.opened : Outcome → Option (Text × Menu.Opened)
  | .opens feedId opened => some (feedId, opened)
  | _ => none

/-! ### All searches -/

/-- The database and the `Menu` of a user. -/
structure Searching where
  db : Value
  /-- The uid of `state.currentUser`. -/
  currentUser : Option Text
  errorMessage : Option Text
  searches : List Search

inductive SearchEvent where
  /-- The database carries out a write, of this or of another device. -/
  | write (w : IssuedWrite)
  /-- Another user, or none, comes into `state.currentUser`. -/
  | user (currentUser : Option Text)
  | goToFeed (feedId : Text)
  /-- The read of the search at the index ends. -/
  | reply (i : ℕ) (reply : Reply)

/-- ``Couldn't find Wedcast ${feedId}`` -/
def couldntFind (feedId : Text) : Text := txt "Couldn't find Wedcast ".toList ++ feedId

namespace Searching

def settle (s : Searching) (i : ℕ) : Outcome → Searching
  | .reads search => { s with errorMessage := none, searches := s.searches.set i search }
  | .throws => { s with errorMessage := none, searches := s.searches.eraseIdx i }
  | .opens feedId (.notFound _) =>
    { s with errorMessage := some (couldntFind feedId), searches := s.searches.eraseIdx i }
  | .opens _ _ | .nothing => { s with searches := s.searches.eraseIdx i }

def step (s : Searching) : SearchEvent → Option Searching
  | .write w => (Store.step s.db w).map fun db => { s with db := db }
  | .user currentUser => some { s with currentUser }
  | .goToFeed feedId => some { s with searches := s.searches ++ [.chatInfo feedId] }
  | .reply i reply =>
    (s.searches[i]?).map fun search => s.settle i (search.callback s.currentUser s.db reply)

/-- What comes up for the user on the event, and for which search. -/
def shows (uid : Text) (s : Searching) : SearchEvent → Option (Text × Menu.Opened)
  | .reply i reply => (s.searches[i]?).bind fun search =>
    if search.IsFor uid then (search.callback s.currentUser s.db reply).opened else none
  | _ => none

/-- A cast is not created anew between the two reads of a search of it, no field is written without
its record, and only a record that is not there is denied. -/
def Steady (s : Searching) : SearchEvent → Prop
  | .write w => Inside s.db w ∧ ∀ feedId uid feed, .member feedId uid feed ∈ s.searches →
      ∀ key feed', w.write ≠ .record key (.chatInfo (Menu.key feedId) feed')
  | .user _ | .goToFeed _ => True
  | .reply i reply => reply = .denied →
      ∀ feedId uid feed, s.searches[i]? = some (.member feedId uid feed) →
        ¬HasPermission s.db (Menu.key feedId) uid

end Searching

/-! ### What a search holds -/

/-- The cast without its photo. -/
def plain (feed : ChatInfo) : ChatInfo := { feed with avatarUri := none }

/-- The screen without the photo of the cast. -/
def plainScreen : Menu.Opened → Menu.Opened
  | .privateFeed feed owner castId => .privateFeed (plain feed) owner castId
  | .weddingDetails castId feedName => .weddingDetails castId feedName
  | .notFound feedId => .notFound feedId

lemma plain_eq {feed feed' : ChatInfo} (h : plain feed = plain feed') :
    feed.feedName = feed'.feedName ∧ feed.owner = feed'.owner := by
  injection h with _ howner hname
  exact ⟨hname, howner⟩

/-- What the search has read is in the directory still, up to the photo. -/
def Search.Current (d : Directory) : Search → Prop
  | .chatInfo _ => True
  | .member feedId _ feed => ∃ feed', d.cast (Menu.key feedId) = some feed' ∧ plain feed' = plain feed

/-- A write that does not create the cast keeps it, up to the photo. -/
lemma Directory.plain_after {d : Directory} {w : StoreWrite} {castId : Text} {feed : ChatInfo}
    (hcast : d.cast castId = some feed) (h : ∀ key feed, w ≠ .record key (.chatInfo castId feed)) :
    ∃ feed', (d.after w).cast castId = some feed' ∧ plain feed' = plain feed := by
  by_cases hn : w.node = .chatInfo castId
  · rcases StoreWrite.chatInfo_cases hn with ⟨key, feed, hw⟩ | ⟨avatarUri, hw⟩
    · exact absurd hw (h key feed)
    · exact ⟨{ feed with avatarUri := some avatarUri }, by simp [hw, Directory.after, hcast], rfl⟩
  · exact ⟨feed, (Directory.after_cast hn).trans hcast, rfl⟩

lemma Search.Current.after {d : Directory} {w : StoreWrite} {search : Search}
    (hcur : search.Current d)
    (h : ∀ feedId uid feed, search = .member feedId uid feed →
      ∀ key feed', w ≠ .record key (.chatInfo (Menu.key feedId) feed')) :
    search.Current (d.after w) := by
  cases search with
  | chatInfo feedId => trivial
  | member feedId uid feed =>
    obtain ⟨feed', hcast, hplain⟩ := hcur
    obtain ⟨feed'', hcast', hplain'⟩ := Directory.plain_after hcast (h feedId uid feed rfl)
    exact ⟨feed'', hcast', hplain'.trans hplain⟩

lemma Directory.opens_of_mem {d : Directory} {uid feedId : Text} {feed : ChatInfo}
    (hcast : d.cast (Menu.key feedId) = some feed) (hmem : uid ∈ d.members (Menu.key feedId)) :
    d.opens uid feedId = .weddingDetails (Menu.key feedId) feed.feedName := by
  simp [opens, hcast, hmem]

lemma Directory.opens_of_notMem {d : Directory} {uid feedId : Text} {feed : ChatInfo}
    (hcast : d.cast (Menu.key feedId) = some feed) (hmem : uid ∉ d.members (Menu.key feedId)) :
    d.opens uid feedId = .privateFeed feed feed.owner (Menu.key feedId) := by
  simp [opens, hcast, hmem]

/-- The second read is about a cast that is there. -/
lemma Search.callback_reads {currentUser : Option Text} {db : Value} {search search' : Search}
    {reply : Reply} (h : search.callback currentUser db reply = .reads search') :
    search'.Current (directory db) := by
  cases search with
  | chatInfo feedId =>
    cases reply with
    | value =>
      simp only [callback] at h
      split at h
      · rename_i feed uid hread
        obtain rfl := Outcome.reads.inj h
        exact ⟨feed, hread, rfl⟩
      · cases h
      · cases h
    | _ => cases h
  | member feedId uid feed =>
    cases reply with
    | value =>
      simp only [callback] at h
      split_ifs at h
    | _ => cases h

/-- **One answer.** What comes up is what the directory opens now. -/
lemma Search.callback_opens {currentUser : Option Text} {uid feedId : Text} {db : Value}
    {search : Search} {reply : Reply} {opened : Menu.Opened} (hfor : search.IsFor uid)
    (hcur : search.Current (directory db))
    (hdenied : reply = .denied → ∀ feedId uid feed, search = .member feedId uid feed →
      ¬HasPermission db (Menu.key feedId) uid)
    (h : search.callback currentUser db reply = .opens feedId opened) :
    plainScreen opened = plainScreen ((directory db).opens uid feedId) := by
  cases search with
  | chatInfo feedId' =>
    cases reply with
    | value =>
      simp only [callback] at h
      split at h
      · cases h
      · cases h
      · rename_i hread
        obtain ⟨rfl, rfl⟩ := Outcome.opens.inj h
        simp [Directory.opens, directory, hread]
    | _ => cases h
  | member feedId' uid' feed =>
    obtain rfl : uid' = uid := hfor
    obtain ⟨feed', hcast, hplain⟩ := hcur
    obtain ⟨hname, howner⟩ := plain_eq hplain
    cases reply with
    | value =>
      simp only [callback] at h
      by_cases hmember : HasPermission db (Menu.key feedId') uid'
      · rw [if_pos hmember] at h
        obtain ⟨rfl, rfl⟩ := Outcome.opens.inj h
        rw [Directory.opens_of_mem hcast hmember, hname]
      · rw [if_neg hmember] at h
        obtain ⟨rfl, rfl⟩ := Outcome.opens.inj h
        rw [Directory.opens_of_notMem hcast hmember, plainScreen, plainScreen, hplain, howner]
    | denied =>
      have hmember : ¬HasPermission db (Menu.key feedId') uid' := hdenied rfl _ _ _ rfl
      obtain ⟨rfl, rfl⟩ := Outcome.opens.inj h
      rw [Directory.opens_of_notMem hcast hmember, plainScreen, plainScreen, hplain, howner]
    | failed => cases h

/-! ### Whole runs -/

namespace Searching

/-- The directory along the run. -/
noncomputable def following (x : Searching × Directory) (e : SearchEvent) (_ : Searching) :
    Directory :=
  match e with
  | .write w => x.2.after w.write
  | _ => x.2

lemma mem_settle {s : Searching} {i : ℕ} {outcome : Outcome} {search : Search}
    (h : search ∈ (s.settle i outcome).searches) :
    search ∈ s.searches ∨ outcome = .reads search := by
  unfold settle at h
  split at h
  · rcases List.mem_or_eq_of_mem_set h with hmem | rfl
    · exact .inl hmem
    · exact .inr rfl
  · exact .inl (List.mem_of_mem_eraseIdx h)
  · exact .inl (List.mem_of_mem_eraseIdx h)
  · exact .inl (List.mem_of_mem_eraseIdx h)
  · exact .inl (List.mem_of_mem_eraseIdx h)

@[simp] lemma settle_db (s : Searching) (i : ℕ) (outcome : Outcome) :
    (s.settle i outcome).db = s.db := by
  unfold settle
  split <;> rfl

/-- The database can be read, the directory stands for it, and so does what the searches hold. -/
structure Held (x : Searching × Directory) : Prop where
  wellFormed : WellFormed x.1.db
  directory : x.2 = directory x.1.db
  current : ∀ search ∈ x.1.searches, search.Current x.2

lemma Held.step {x y : Searching × Directory} {e : SearchEvent} (h : Held x)
    (hg : Steady x.1 e) (hs : noting step following x e = some y) : Held y := by
  obtain ⟨s, d⟩ := x
  obtain ⟨s', d'⟩ := y
  obtain ⟨hstep, hnote⟩ := noting_some hs
  simp only at hstep hnote hg
  obtain rfl : d = Store.directory s.db := h.directory
  cases e with
  | write w =>
    simp only [Searching.step] at hstep
    obtain ⟨db, hdb, rfl⟩ := Option.map_eq_some_iff.mp hstep
    obtain rfl : d' = Store.directory db := hnote.trans (directory_step hg.1 hdb).symm
    refine ⟨(wellFormed_step h.wellFormed hdb).mpr hg.1.1, rfl, fun search hmem => ?_⟩
    rw [directory_step hg.1 hdb]
    refine (h.current search hmem).after ?_
    rintro feedId uid feed rfl
    exact hg.2 feedId uid feed hmem
  | user currentUser =>
    obtain rfl := Option.some.inj hstep
    obtain rfl : d' = Store.directory s.db := hnote
    exact ⟨h.wellFormed, rfl, h.current⟩
  | goToFeed feedId =>
    obtain rfl := Option.some.inj hstep
    obtain rfl : d' = Store.directory s.db := hnote
    refine ⟨h.wellFormed, rfl, fun search hmem => ?_⟩
    rcases List.mem_append.mp hmem with hmem | hmem
    · exact h.current search hmem
    · rw [List.mem_singleton.mp hmem]
      trivial
  | reply i reply =>
    simp only [Searching.step] at hstep
    obtain ⟨search, hi, rfl⟩ := Option.map_eq_some_iff.mp hstep
    obtain rfl : d' = Store.directory s.db := hnote
    refine ⟨?_, ?_, fun search' hmem => ?_⟩
    · rw [settle_db]
      exact h.wellFormed
    · rw [settle_db]
    · rcases mem_settle hmem with hmem | hreads
      · exact h.current search' hmem
      · exact Search.callback_reads hreads

def holding : Invariant (noting step following) fun x e => Steady x.1 e where
  holds := Held
  preserved h hg hs := h.step hg hs

lemma Held.shows {x : Searching × Directory} {e : SearchEvent} (h : Held x)
    (hg : Steady x.1 e) {uid feedId : Text} {opened : Menu.Opened}
    (hshows : x.1.shows uid e = some (feedId, opened)) :
    plainScreen opened = plainScreen (x.2.opens uid feedId) := by
  obtain ⟨s, d⟩ := x
  obtain rfl : d = Store.directory s.db := h.directory
  cases e with
  | write | user | goToFeed => cases hshows
  | reply i reply =>
    obtain ⟨search, hi, hopened⟩ := Option.bind_eq_some_iff.mp hshows
    split_ifs at hopened with hfor
    have hopens : search.callback s.currentUser s.db reply = .opens feedId opened := by
      cases hcallback : search.callback s.currentUser s.db reply with
      | opens => simpa [hcallback, Outcome.opened] using hopened
      | _ => simp [hcallback, Outcome.opened] at hopened
    refine Search.callback_opens hfor (h.current search (List.mem_of_getElem? hi)) ?_ hopens
    rintro hdenied feedId' uid' feed rfl
    exact hg hdenied feedId' uid' feed hi

/-- **Every search is answered at one moment.** However the reads of the searches, the changes of
the user and the writes of all devices come after each other, what a search opens is what the
directory opens for its user when the search ends, up to the photo of the cast. -/
theorem searches_atomic {s : Searching} (h : WellFormed s.db) (hnew : s.searches = [])
    {es : List SearchEvent} (hes : Along step Steady s es) :
    Along (noting step following) (fun x e => ∀ uid feedId opened,
        x.1.shows uid e = some (feedId, opened) →
          plainScreen opened = plainScreen (x.2.opens uid feedId))
      (s, Store.directory s.db) es := by
  have hheld : Held (s, Store.directory s.db) := by
    refine ⟨h, rfl, fun search hmem => ?_⟩
    rw [hnew] at hmem
    cases hmem
  have hnoting : Along (noting step following) (fun x e => Steady x.1 e)
      (s, Store.directory s.db) es := along_noting.mpr hes
  exact holding.along (fun x e _ hx hg _ _ _ _ hshows => hx.shows hg hshows) hheld hnoting

/-- The guest searches the cast while the host creates it, and joins it between the two reads. -/
def searchesAndJoins : List SearchEvent :=
  [.goToFeed (txt ['a']), .write createsCast, .reply 0 .value, .write joins, .reply 0 .value]

theorem searches_atomic_guest :
    (run step ⟨.null, some (txt ['g']), none, []⟩ searchesAndJoins).isSome ∧
      Along (noting step following) (fun x e => ∀ uid feedId opened,
          x.1.shows uid e = some (feedId, opened) →
            plainScreen opened = plainScreen (x.2.opens uid feedId))
        (⟨.null, some (txt ['g']), none, []⟩, Store.directory .null) searchesAndJoins := by
  have hnull : WellFormed .null := fun castId h => absurd PathTree.isNull_null h
  refine ⟨by decide, searches_atomic hnull rfl ?_⟩
  intro s hs
  refine ⟨trivial, fun s' _ => ⟨⟨⟨?_, ?_⟩, ?_⟩, fun _ _ => ⟨?_, fun _ _ => ⟨⟨⟨?_, ?_⟩, ?_⟩,
    fun _ _ => ⟨?_, trivial⟩⟩⟩⟩⟩
  · rintro castId avatarUri ⟨⟩
  · rintro castId uid value ⟨⟩
  · intro feedId uid feed hmem
    obtain rfl := Option.some.inj hs
    simp at hmem
  · rintro ⟨⟩
  · rintro castId avatarUri ⟨⟩
  · rintro castId uid value ⟨⟩
  · rintro feedId uid feed hmem key feed' ⟨⟩
  · rintro ⟨⟩

end Searching

end Wedcast.Store
