import Mathlib.Data.Option.Basic
import Wedcast.Lib.Indexed
import Wedcast.Lib.Keyed
import Wedcast.Menu

/-!
What the lists of `Menu` show for one signed-in user.

The array of the latest refresh gets one entry for each cast of the list whose snapshot has come.
A listener of an earlier refresh may publish its own array in between, as long as the latest
refresh publishes again after it, and as long as the entry that a callback writes into the array
on the screen does not go missing from the latest one.
-/

namespace Wedcast.Menu

open Runs Keyed Indexed

/-- No value of the list and no snapshot waits for delivery. -/
def Panel.Settled (p : Panel) : Prop :=
  ∀ s ∈ p.sessions, s.queue = [] ∧ ∀ r ∈ s.refreshes, ∀ l ∈ r.listeners, l.queue = []

/-- One entry for each cast of the list that exists, its latest `chatInfo`, and no other entry. -/
structure UpToDate (db : Casts) (list : List Text) (display : List (Option ChatInfo)) : Prop where
  once : display.Nodup
  only : ∀ x ∈ display, x ≠ none ∧ ∃ c ∈ list, db.chatInfo c = x
  every : ∀ c ∈ list, db.chatInfo c ≠ none → db.chatInfo c ∈ display

/-- The array has an entry for the cast. -/
def HasEntry (feeds : List (Option ChatInfo)) (castId : Text) : Prop :=
  ∃ entry ∈ feeds, ∃ feed ∈ entry, feed.castId = castId

/-- A snapshot other than null waits for a listener of the latest refresh. -/
def Panel.Awaits (p : Panel) : Prop :=
  ∃ s ∈ p.sessions.head?, ∃ r ∈ s.refreshes.head?, ∃ l ∈ r.listeners, ∃ cast ∈ l.queue, cast ≠ none

/-- A snapshot waits for a listener of the latest refresh on the cast. -/
def Panel.AwaitsCast (p : Panel) (castId : Text) : Prop :=
  ∃ s ∈ p.sessions.head?, ∃ r ∈ s.refreshes.head?, ∃ l ∈ r.listeners,
    l.castId = castId ∧ l.queue ≠ []

/-- The latest array has the snapshot, or a later one for its cast is still to come. -/
def Panel.Provides (p : Panel) (new : ChatInfo) : Prop :=
  some new ∈ p.feeds (0, 0) ∨ p.AwaitsCast new.castId

/-- The callback may run in this state, with the snapshot taken from the queue. A null changes
nothing and is not about an entry of the latest array. A callback of the latest refresh that finds
another array on the screen finds its cast in both or in neither. One of an earlier refresh runs
before one of the latest, and what it writes into the latest array is right. -/
def Timely (kind : ListKind) (p : Panel) (i : ℕ × ℕ) (castId : Text) : Option ChatInfo → Prop
  | none => Harmless kind p none ∧
      (i = (0, 0) → HasEntry (p.feeds (0, 0)) castId → p.AwaitsCast castId)
  | some new =>
      (i = (0, 0) → ∀ j ∈ p.shown, j ≠ (0, 0) →
        (HasEntry (p.feeds j) new.castId → p.Provides new) ∧
          (HasEntry (p.feeds (0, 0)) new.castId → HasEntry (p.feeds j) new.castId)) ∧
      (i ≠ (0, 0) → p.Awaits ∧
        (p.shown = some (0, 0) → HasEntry (p.feeds (0, 0)) new.castId → p.Provides new))

/-- The steps of one signed-in user on which the lists stay right. -/
def InTime (m : World) : Event → Prop
  | .deliver kind i l => ∀ x ∈ (m.panel kind).listener? i l, ∀ y ∈ (m.panel kind).pop i l,
      Timely kind y.2 i x.castId y.1
  | .signIn _ => False
  | _ => True

instance (p : Panel) : Decidable p.Settled :=
  inferInstanceAs (Decidable (∀ s ∈ p.sessions, _))

instance (db : Casts) (list : List Text) (display : List (Option ChatInfo)) :
    Decidable (UpToDate db list display) :=
  decidable_of_iff (display.Nodup ∧ (∀ x ∈ display, x ≠ none ∧ ∃ c ∈ list, db.chatInfo c = x) ∧
      ∀ c ∈ list, db.chatInfo c ≠ none → db.chatInfo c ∈ display)
    ⟨fun ⟨h₁, h₂, h₃⟩ => ⟨h₁, h₂, h₃⟩, fun h => ⟨h.once, h.only, h.every⟩⟩

instance (feeds : List (Option ChatInfo)) (castId : Text) : Decidable (HasEntry feeds castId) :=
  inferInstanceAs (Decidable (∃ entry ∈ feeds, _))

instance (p : Panel) : Decidable p.Awaits :=
  inferInstanceAs (Decidable (∃ s ∈ p.sessions.head?, ∃ r ∈ _, ∃ l ∈ _, ∃ cast ∈ _, _))

instance (p : Panel) (castId : Text) : Decidable (p.AwaitsCast castId) :=
  inferInstanceAs (Decidable (∃ s ∈ p.sessions.head?, ∃ r ∈ _, ∃ l ∈ _, _))

instance (p : Panel) (new : ChatInfo) : Decidable (p.Provides new) :=
  inferInstanceAs (Decidable (_ ∨ _))

instance (kind : ListKind) (p : Panel) (i : ℕ × ℕ) (castId : Text) :
    (cast : Option ChatInfo) → Decidable (Timely kind p i castId cast)
  | none => inferInstanceAs (Decidable (_ ∧ (_ → _ → _)))
  | some _ => inferInstanceAs (Decidable ((_ → ∀ j ∈ p.shown, _) ∧ (_ → _ ∧ (_ → _ → _))))

instance (m : World) : (e : Event) → Decidable (InTime m e)
  | .deliver _ _ _ => inferInstanceAs (Decidable (∀ x ∈ _, ∀ y ∈ _, _))
  | .signIn _ => isFalse id
  | .chatInfo _ | .removeChatInfo _ | .list _ _ _ | .deliverList _ _ => isTrue trivial

/-! ### The latest refresh -/

/-- The latest refresh `r` has published its array, or will. -/
def Published (shown : Option (ℕ × ℕ)) (r : Refresh) : Prop :=
  shown = some (0, 0) ∨ shown = none ∧ r.feeds = [] ∨
    (∃ g, shown = some (0, g + 1)) ∧ ∃ l ∈ r.listeners, ∃ cast ∈ l.queue, cast ≠ none

/-- The array of the latest refresh holds the `feeds`, and every listener of it is on its way to
what the database holds. -/
structure Current (db : Casts) (list : List Text) (r : Refresh) (feeds : List ChatInfo) : Prop where
  array : r.feeds = feeds.map some
  keys : (feeds.map (·.castId)).Nodup
  listed : ∀ feed ∈ feeds, feed.castId ∈ list
  listens : ∀ c ∈ list, ∃ l ∈ r.listeners, l.castId = c
  onList : ∀ l ∈ r.listeners, l.castId ∈ list
  last : ∀ l ∈ r.listeners, ∀ cast ∈ l.queue.getLast?, cast = db.chatInfo l.castId
  about : ∀ l ∈ r.listeners, ∀ cast ∈ l.queue, ∀ feed ∈ cast, feed.castId = l.castId
  agrees : ∀ c ∈ list, (∃ l ∈ r.listeners, l.castId = c ∧ l.queue ≠ []) ∨
    ∀ feed, (feed ∈ feeds ∧ feed.castId = c) ↔ db.chatInfo c = some feed

/-- No null has entered the array. -/
def Solid (feeds : List (Option ChatInfo)) : Prop := ∃ fs : List ChatInfo, feeds = fs.map some

/-- One user's only session, before its first refresh and after it. -/
def Fresh (db : Casts) (stored : List Text) (uid : Text) (p : Panel) : Prop :=
  ∃ s, p.sessions = [s] ∧ s.uid = uid ∧ s.queue.getLast?.getD p.list = stored ∧
    (s.refreshes = [] ∧ s.queue ≠ [] ∨
      ∃ r old feeds, s.refreshes = r :: old ∧ Current db p.list r feeds ∧ Published p.shown r ∧
        ∀ r' ∈ old, Solid r'.feeds)

lemma Current.upToDate {db : Casts} {list : List Text} {r : Refresh}
    {feeds : List ChatInfo} (h : Current db list r feeds)
    (hidle : ∀ l ∈ r.listeners, l.queue = []) : UpToDate db list (feeds.map some) := by
  have hagrees : ∀ c ∈ list, ∀ feed, (feed ∈ feeds ∧ feed.castId = c) ↔
      db.chatInfo c = some feed := by
    intro c hc
    rcases h.agrees c hc with ⟨l, hl, -, hne⟩ | hagree
    · exact absurd (hidle l hl) hne
    · exact hagree
  refine ⟨(List.Nodup.of_map _ h.keys).map <| Option.some_injective _, ?_, ?_⟩
  · intro x hx
    obtain ⟨feed, hfeed, rfl⟩ := List.mem_map.mp hx
    exact ⟨by simp, feed.castId, h.listed feed hfeed,
      (hagrees _ (h.listed feed hfeed) feed).mp ⟨hfeed, rfl⟩⟩
  · intro c hc hsome
    obtain ⟨feed, hfeed⟩ := Option.ne_none_iff_exists'.mp hsome
    rw [hfeed]
    exact List.mem_map_of_mem ((hagrees c hc feed).mpr hfeed).1

lemma Fresh.upToDate {db : Casts} {stored : List Text} {uid : Text} {p : Panel}
    (h : Fresh db stored uid p) (hs : p.Settled) : UpToDate db stored p.display := by
  obtain ⟨s, hsess, -, hlist, hcase⟩ := h
  obtain ⟨hqueue, hidle⟩ := hs s (by simp [hsess])
  rcases hcase with ⟨-, hne⟩ | ⟨r, old, feeds, hr, hcur, hpub, -⟩
  · exact absurd hqueue hne
  · obtain rfl : p.list = stored := by simpa [hqueue] using hlist
    have hdisplay : p.display = feeds.map some := by
      rcases hpub with h00 | ⟨hnone, hempty⟩ | ⟨-, l, hl, cast, hcast, -⟩
      · simp [Panel.display, Panel.feeds, h00, hsess, hr, hcur.array]
      · simp [Panel.display, hnone, ← hcur.array, hempty]
      · simp [hidle r (by simp [hr]) l hl] at hcast
    rw [hdisplay]
    exact hcur.upToDate (hidle r (by simp [hr]))

/-! ### The steps on the latest refresh -/

lemma hasEntry_map_some {feeds : List ChatInfo} {castId : Text} :
    HasEntry (feeds.map some) castId ↔ castId ∈ feeds.map (·.castId) := by
  simp [HasEntry]

lemma send_castId (c : Text) (value : Option ChatInfo) (l : Listener) :
    (l.send c value).castId = l.castId := by
  unfold Listener.send
  split_ifs <;> rfl

lemma Current.notify {db : Casts} {list : List Text} {r : Refresh} {feeds : List ChatInfo}
    (h : Current db list r feeds) {c : Text} {value : Option ChatInfo}
    (hvalue : ∀ feed ∈ value, feed.castId = c) :
    Current (db.update c value hvalue) list
      { r with listeners := r.listeners.map (Listener.send c value) } feeds := by
  refine ⟨h.array, h.keys, h.listed, ?_, ?_, ?_, ?_, ?_⟩
  · intro c' hc'
    obtain ⟨l, hl, hlc⟩ := h.listens c' hc'
    exact ⟨_, List.mem_map_of_mem hl, (send_castId ..).trans hlc⟩
  · intro l' hl'
    obtain ⟨l, hl, rfl⟩ := List.mem_map.mp hl'
    rw [send_castId]
    exact h.onList l hl
  · intro l' hl'
    obtain ⟨l, hl, rfl⟩ := List.mem_map.mp hl'
    by_cases hlc : l.castId = c
    · simp [Listener.send, hlc, Casts.update]
    · simpa [Listener.send, hlc, Casts.update] using h.last l hl
  · intro l' hl' cast hcast
    obtain ⟨l, hl, rfl⟩ := List.mem_map.mp hl'
    rw [send_castId]
    by_cases hlc : l.castId = c
    · have hmem : cast ∈ l.queue ∨ cast = value := by simpa [Listener.send, hlc] using hcast
      rcases hmem with hmem | rfl
      · exact h.about l hl cast hmem
      · exact hlc ▸ hvalue
    · exact h.about l hl cast (by simpa [Listener.send, hlc] using hcast)
  · intro c' hc'
    by_cases hcc : c' = c
    · subst hcc
      obtain ⟨l, hl, hlc⟩ := h.listens c' hc'
      exact .inl ⟨_, List.mem_map_of_mem hl, (send_castId ..).trans hlc, by
        simp [Listener.send, hlc]⟩
    · rcases h.agrees c' hc' with ⟨l, hl, rfl, hne⟩ | hagree
      · exact .inl ⟨_, List.mem_map_of_mem hl, send_castId .., by
          simpa [Listener.send, hcc] using hne⟩
      · exact .inr (by simpa [Casts.update, hcc] using hagree)

lemma Published.notify {shown : Option (ℕ × ℕ)} {r : Refresh} (h : Published shown r) (c : Text)
    (value : Option ChatInfo) :
    Published shown { r with listeners := r.listeners.map (Listener.send c value) } := by
  refine h.imp_right <| .imp_right fun ⟨hg, l, hl, cast, hcast, hne⟩ => ?_
  refine ⟨hg, l.send c value, List.mem_map_of_mem hl, cast, ?_, hne⟩
  unfold Listener.send
  split_ifs
  · exact List.mem_append_left _ hcast
  · exact hcast

/-- A listener of the latest refresh takes a snapshot. The new array has the snapshot for the
listener's cast, unless another one waits, and for every other cast what it had. -/
lemma Current.take {db : Casts} {list : List Text} {r : Refresh} {feeds feeds' : List ChatInfo}
    (h : Current db list r feeds) {i : ℕ} {l : Listener} {cast : Option ChatInfo}
    {queue : List (Option ChatInfo)} (hl : r.listeners[i]? = some l)
    (hqueue : l.queue = cast :: queue) (hkeys : (feeds'.map (·.castId)).Nodup)
    (hown : (∃ l' ∈ r.listeners.modify i fun l => { l with queue },
        l'.castId = l.castId ∧ l'.queue ≠ []) ∨
      ∀ feed, (feed ∈ feeds' ∧ feed.castId = l.castId) ↔ cast = some feed)
    (hothers : ∀ feed, feed.castId ≠ l.castId → (feed ∈ feeds' ↔ feed ∈ feeds)) :
    Current db list ⟨feeds'.map some, r.listeners.modify i fun l => { l with queue }⟩ feeds' := by
  have hmem : l ∈ r.listeners := List.mem_of_getElem? hl
  have hlisteners : ∀ l' ∈ r.listeners.modify i fun l => { l with queue },
      l' = { l with queue } ∨ l' ∈ r.listeners := fun l' hl' => mem_modify hl hl'
  refine ⟨rfl, hkeys, ?_, ?_, ?_, ?_, ?_, ?_⟩
  · intro feed hfeed
    by_cases hc : feed.castId = l.castId
    · exact hc ▸ h.onList l hmem
    · exact h.listed feed ((hothers feed hc).mp hfeed)
  · intro c hc
    obtain ⟨l', hl', hlc⟩ := h.listens c hc
    by_cases he : l' = l
    · subst he
      exact ⟨_, mem_modify_self hl, hlc⟩
    · exact ⟨l', mem_modify_of_ne hl hl' he, hlc⟩
  · intro l' hl'
    rcases hlisteners l' hl' with rfl | hl'
    · exact h.onList l hmem
    · exact h.onList l' hl'
  · intro l' hl' last hlast
    rcases hlisteners l' hl' with rfl | hl'
    · refine h.last l hmem last ?_
      rw [hqueue, List.getLast?_cons]
      simp_all
    · exact h.last l' hl' last hlast
  · intro l' hl' v hv
    rcases hlisteners l' hl' with rfl | hl'
    · exact h.about l hmem v (hqueue ▸ List.mem_cons_of_mem _ hv)
    · exact h.about l' hl' v hv
  · intro c hc
    by_cases hlc : c = l.castId
    · subst hlc
      by_cases hq : queue = []
      · have hlast : cast = db.chatInfo l.castId := h.last l hmem cast (by simp [hqueue, hq])
        rwa [hlast] at hown
      · exact .inl ⟨_, mem_modify_self hl, rfl, hq⟩
    · rcases h.agrees c hc with ⟨l', hl', rfl, hne⟩ | hagree
      · exact .inl ⟨l', mem_modify_of_ne hl hl' (fun he => hlc (he ▸ rfl)), rfl, hne⟩
      · right
        intro feed
        rw [← hagree feed]
        constructor
        · rintro ⟨hfeed, rfl⟩
          exact ⟨(hothers feed hlc).mp hfeed, rfl⟩
        · rintro ⟨hfeed, rfl⟩
          exact ⟨(hothers feed hlc).mpr hfeed, rfl⟩

/-- The entry of a snapshot in an array without two entries for one cast. -/
lemma mem_and_castId {feeds : List ChatInfo} {new : ChatInfo} (hkeys : (feeds.map (·.castId)).Nodup)
    (hnew : new ∈ feeds) (feed : ChatInfo) :
    (feed ∈ feeds ∧ feed.castId = new.castId) ↔ some new = some feed := by
  constructor
  · rintro ⟨hfeed, hc⟩
    exact congrArg some (List.inj_on_of_nodup_map hkeys hnew hfeed hc.symm)
  · intro he
    cases he
    exact ⟨hnew, rfl⟩

section take

variable {db : Casts} {list : List Text} {r : Refresh} {feeds : List ChatInfo} {i : ℕ}
  {l : Listener} {new : ChatInfo} {queue : List (Option ChatInfo)}

lemma Current.castId_eq (h : Current db list r feeds) (hl : r.listeners[i]? = some l)
    (hqueue : l.queue = some new :: queue) : new.castId = l.castId :=
  h.about l (List.mem_of_getElem? hl) (some new) (by simp [hqueue]) new rfl

/-- The snapshot is entered into the array. -/
lemma Current.take_upsert (h : Current db list r feeds) (hl : r.listeners[i]? = some l)
    (hqueue : l.queue = some new :: queue) :
    Current db list ⟨(upsert (·.castId) new feeds).map some,
      r.listeners.modify i fun l => { l with queue }⟩ (upsert (·.castId) new feeds) := by
  have hnew := h.castId_eq hl hqueue
  refine h.take hl hqueue (nodup_upsert h.keys) (.inr fun feed => ?_) fun feed hne => ?_
  · have hmem : new ∈ upsert (·.castId) new feeds := (mem_upsert h.keys).mpr (.inl rfl)
    rw [← hnew]
    exact mem_and_castId (nodup_upsert h.keys) hmem feed
  · rw [mem_upsert h.keys, hnew]
    constructor
    · rintro (rfl | ⟨hfeed, -⟩)
      · exact absurd hnew hne
      · exact hfeed
    · exact fun hfeed => .inr ⟨hfeed, hne⟩

/-- The array stays as it is: it has the snapshot, or waits for a later one. -/
lemma Current.take_provided (h : Current db list r feeds) (hl : r.listeners[i]? = some l)
    (hqueue : l.queue = some new :: queue)
    (hprov : new ∈ feeds ∨ ∃ l' ∈ r.listeners.modify i fun l => { l with queue },
      l'.castId = new.castId ∧ l'.queue ≠ []) :
    Current db list ⟨feeds.map some, r.listeners.modify i fun l => { l with queue }⟩ feeds := by
  have hnew := h.castId_eq hl hqueue
  refine h.take hl hqueue h.keys ?_ fun _ _ => Iff.rfl
  rw [← hnew]
  rcases hprov with hmem | hwait
  · exact .inr (mem_and_castId h.keys hmem)
  · exact .inl hwait

/-- A null leaves the array as it is. -/
lemma Current.take_null (h : Current db list r feeds) (hl : r.listeners[i]? = some l)
    (hqueue : l.queue = none :: queue)
    (hwait : HasEntry r.feeds l.castId → ∃ l' ∈ r.listeners.modify i fun l => { l with queue },
      l'.castId = l.castId ∧ l'.queue ≠ []) :
    Current db list ⟨r.feeds, r.listeners.modify i fun l => { l with queue }⟩ feeds := by
  rw [h.array] at hwait ⊢
  refine h.take hl hqueue h.keys ?_ fun _ _ => Iff.rfl
  by_cases hentry : HasEntry (feeds.map some) l.castId
  · exact .inl (hwait hentry)
  · right
    rw [hasEntry_map_some] at hentry
    intro feed
    constructor
    · rintro ⟨hfeed, hc⟩
      exact absurd (List.mem_map.mpr ⟨feed, hfeed, hc⟩) hentry
    · simp

lemma Published.take_null {shown : Option (ℕ × ℕ)} (h : Published shown r)
    (hl : r.listeners[i]? = some l) (hqueue : l.queue = none :: queue) :
    Published shown ⟨r.feeds, r.listeners.modify i fun l => { l with queue }⟩ := by
  refine h.imp_right <| .imp_right fun ⟨hg, l', hl', cast, hcast, hne⟩ => ⟨hg, ?_⟩
  by_cases he : l' = l
  · subst he
    refine ⟨_, mem_modify_self hl, cast, ?_, hne⟩
    simpa [hqueue, hne] using hcast
  · exact ⟨l', mem_modify_of_ne hl hl' he, cast, hcast, hne⟩

end take

/-- A callback of an earlier refresh replaces an entry of the latest array. -/
lemma Current.replace {db : Casts} {list : List Text} {r : Refresh} {feeds : List ChatInfo}
    (h : Current db list r feeds) {new : ChatInfo} (hmem : new.castId ∈ feeds.map (·.castId))
    (hnew : new ∈ feeds ∨ ∃ l ∈ r.listeners, l.castId = new.castId ∧ l.queue ≠ []) :
    Current db list { r with feeds := (upsert (·.castId) new feeds).map some }
      (upsert (·.castId) new feeds) := by
  refine ⟨rfl, nodup_upsert h.keys, ?_, h.listens, h.onList, h.last, h.about, ?_⟩
  · intro feed hfeed
    obtain ⟨old, hold, hc⟩ := List.mem_map.mp hmem
    rcases (mem_upsert h.keys).mp hfeed with rfl | ⟨hfeed, -⟩
    · exact hc ▸ h.listed old hold
    · exact h.listed feed hfeed
  · intro c hc
    by_cases hcn : c = new.castId
    · subst hcn
      rcases hnew with hnew | hwait
      · refine (h.agrees _ hc).imp_right fun hagree feed => ?_
        rw [← hagree feed, mem_and_castId h.keys hnew,
          mem_and_castId (nodup_upsert h.keys) ((mem_upsert h.keys).mpr (.inl rfl))]
      · exact .inl hwait
    · refine (h.agrees c hc).imp_right fun hagree feed => ?_
      rw [← hagree feed, mem_upsert h.keys]
      constructor
      · rintro ⟨rfl | ⟨hfeed, -⟩, hfc⟩
        · exact absurd hfc.symm hcn
        · exact ⟨hfeed, hfc⟩
      · rintro ⟨hfeed, rfl⟩
        exact ⟨.inr ⟨hfeed, hcn⟩, rfl⟩

/-! ### The steps on the screen -/

lemma search_some (new : ChatInfo) (feeds : List ChatInfo) :
    search (some new) (feeds.map some) = some (decide (new.castId ∉ feeds.map (·.castId)),
      if new.castId ∈ feeds.map (·.castId) then (upsert (·.castId) new feeds).map some
      else feeds.map some) := by
  induction feeds with
  | nil => rfl
  | cons feed rest ih =>
    by_cases hc : feed.castId = new.castId
    · simp [search, upsert, hc]
    · have hc' : ¬new.castId = feed.castId := fun he => hc he.symm
      simp only [List.map_cons, search, hc, if_false, ih, Option.map_some, List.mem_cons, hc',
        false_or, upsert]
      split_ifs <;> rfl

/-- What a callback does with a snapshot other than null: it replaces an entry of the array on the
screen, or appends one to its own array, and publishes its own array. -/
lemma place_cases {p : Panel} (own : ℕ × ℕ) (new : ChatInfo)
    (hsolid : ∀ j ∈ p.shown, Solid (p.feeds j)) :
    (∃ j feeds, p.shown = some j ∧ p.feeds j = feeds.map some ∧
      new.castId ∈ feeds.map (·.castId) ∧ p.place own (some new) =
        { p.setFeeds j ((upsert (·.castId) new feeds).map some) with shown := some own }) ∨
    (∀ j ∈ p.shown, ¬HasEntry (p.feeds j) new.castId) ∧ p.place own (some new) =
      { p.setFeeds own (p.feeds own ++ [some new]) with shown := some own } := by
  cases hs : p.shown with
  | none => exact .inr ⟨by simp, by simp [Panel.place, hs]⟩
  | some j =>
    obtain ⟨feeds, hfeeds⟩ := hsolid j hs
    by_cases hmem : new.castId ∈ feeds.map (·.castId)
    · refine .inl ⟨j, feeds, rfl, hfeeds, hmem, ?_⟩
      simp [Panel.place, hs, hfeeds, search_some, hmem]
    · refine .inr ⟨?_, ?_⟩
      · intro i hi
        obtain rfl : j = i := by simpa using hi
        rwa [hfeeds, hasEntry_map_some]
      · simp [Panel.place, hs, hfeeds, search_some, hmem]

/-- A callback of the only session. The latest array has an entry replaced, gets a new one, or
stays as it is. -/
lemma place_fresh {list : List Text} {uid : Text} {queue : List (List Text)} {r : Refresh}
    {old : List Refresh} {shown : Option (ℕ × ℕ)} {feeds : List ChatInfo} {new : ChatInfo}
    {p : Panel} (hp : p = ⟨list, [⟨uid, queue, r :: old⟩], shown⟩) (hr : r.feeds = feeds.map some)
    (hours : Ours shown) (hold : ∀ r' ∈ old, Solid r'.feeds) (g : ℕ) :
    ∃ old' feeds', p.place (0, g) (some new) =
        ⟨list, [⟨uid, queue, { r with feeds := feeds'.map some } :: old'⟩], some (0, g)⟩ ∧
      (∀ r' ∈ old', Solid r'.feeds) ∧
      (shown = some (0, 0) ∧ new.castId ∈ feeds.map (·.castId) ∧
          feeds' = upsert (·.castId) new feeds ∨
        g = 0 ∧ (∀ j ∈ shown, ¬HasEntry (p.feeds j) new.castId) ∧ feeds' = feeds ++ [new] ∨
        feeds' = feeds ∧ (g = 0 → ∃ j ∈ shown, j ≠ (0, 0) ∧ HasEntry (p.feeds j) new.castId)) := by
  subst hp
  have hfirst : Panel.feeds ⟨list, [⟨uid, queue, r :: old⟩], shown⟩ (0, 0) = feeds.map some := by
    simp [feeds_first, hr]
  have hlater : ∀ h, Solid (Panel.feeds ⟨list, [⟨uid, queue, r :: old⟩], shown⟩ (0, h + 1)) := by
    intro h
    rw [feeds_first]
    cases hh : old[h]? with
    | none => exact ⟨[], by simp [hh]⟩
    | some r' => simpa [hh] using hold r' (List.mem_of_getElem? hh)
  have hset : ∀ h {feeds' : List (Option ChatInfo)}, Solid feeds' →
      ∀ r' ∈ old.modify h fun r => { r with feeds := feeds' }, Solid r'.feeds := fun h _ hs =>
    forall_mem_modify hold fun _ _ => hs
  have hsolid : ∀ j ∈ shown, Solid (Panel.feeds ⟨list, [⟨uid, queue, r :: old⟩], shown⟩ j) := by
    rintro ⟨a, h⟩ hj
    obtain rfl : a = 0 := hours _ hj
    cases h with
    | zero => exact ⟨feeds, hfirst⟩
    | succ h => exact hlater h
  rcases place_cases (p := ⟨list, [⟨uid, queue, r :: old⟩], shown⟩) (0, g) new hsolid with
    ⟨⟨a, h⟩, fs, hj, hfs, hmem, heq⟩ | ⟨hno, heq⟩
  · obtain rfl : a = 0 := hours _ hj
    cases h with
    | zero =>
      obtain rfl : feeds = fs := List.map_injective_iff.mpr (Option.some_injective _)
        (hfirst.symm.trans hfs)
      refine ⟨old, _, ?_, hold, .inl ⟨hj, hmem, rfl⟩⟩
      simp [heq, Panel.setFeeds, modifyRefresh_first]
    | succ h =>
      have hentry := hasEntry_map_some.mpr hmem
      rw [← hfs] at hentry
      refine ⟨old.modify h fun r => { r with feeds := (upsert (·.castId) new fs).map some }, feeds,
        ?_, hset h ⟨_, rfl⟩, .inr (.inr ⟨rfl, fun _ => ⟨_, hj, by simp, hentry⟩⟩)⟩
      simp [heq, Panel.setFeeds, modifyRefresh_first, ← hr]
  · cases g with
    | zero =>
      refine ⟨old, feeds ++ [new], ?_, hold, .inr (.inl ⟨rfl, hno, rfl⟩)⟩
      simp [heq, Panel.setFeeds, modifyRefresh_first, hfirst]
    | succ g =>
      obtain ⟨fs, hfs⟩ := hlater g
      refine ⟨old.modify g fun r => { r with feeds := (fs ++ [new]).map some }, feeds, ?_,
        hset g ⟨_, rfl⟩, .inr (.inr ⟨rfl, by simp⟩)⟩
      simp [heq, Panel.setFeeds, modifyRefresh_first, hfs, ← hr]

lemma Published.ours {shown : Option (ℕ × ℕ)} {r : Refresh} (h : Published shown r) :
    Ours shown := by
  rcases h with rfl | ⟨rfl, -⟩ | ⟨⟨g, rfl⟩, -⟩ <;> simp [Ours]

lemma Current.fresh {db : Casts} {list stored : List Text} {uid : Text} {queue : List (List Text)}
    {r : Refresh} {old : List Refresh} {shown : Option (ℕ × ℕ)} {feeds : List ChatInfo}
    (h : Current db list r feeds) (hlist : queue.getLast?.getD list = stored)
    (hpub : Published shown r) (hold : ∀ r' ∈ old, Solid r'.feeds) :
    Fresh db stored uid ⟨list, [⟨uid, queue, r :: old⟩], shown⟩ :=
  ⟨_, rfl, rfl, hlist, .inr ⟨r, old, feeds, rfl, h, hpub, hold⟩⟩

lemma update_some (kind : ListKind) (own : ℕ × ℕ) (new : ChatInfo) (p : Panel) :
    update kind own (some new) p = p.place own (some new) := by
  cases kind <;> rfl

section deliver

variable {db : Casts} {list stored : List Text} {uid : Text} {queue : List (List Text)}
  {r : Refresh} {old : List Refresh} {shown : Option (ℕ × ℕ)} {feeds : List ChatInfo}
  {kind : ListKind}

@[simp] lemma feeds_latest :
    Panel.feeds ⟨list, [⟨uid, queue, r :: old⟩], shown⟩ (0, 0) = r.feeds := by
  simp [feeds_first]

@[simp] lemma awaits_latest : Panel.Awaits ⟨list, [⟨uid, queue, r :: old⟩], shown⟩ ↔
    ∃ l ∈ r.listeners, ∃ cast ∈ l.queue, cast ≠ none := by
  simp [Panel.Awaits]

@[simp] lemma awaitsCast_latest {castId : Text} :
    Panel.AwaitsCast ⟨list, [⟨uid, queue, r :: old⟩], shown⟩ castId ↔
      ∃ l ∈ r.listeners, l.castId = castId ∧ l.queue ≠ [] := by
  simp [Panel.AwaitsCast]

@[simp] lemma provides_latest {new : ChatInfo} :
    Panel.Provides ⟨list, [⟨uid, queue, r :: old⟩], shown⟩ new ↔
      some new ∈ r.feeds ∨ ∃ l ∈ r.listeners, l.castId = new.castId ∧ l.queue ≠ [] := by
  simp [Panel.Provides]

/-- A snapshot for a listener of the latest refresh. -/
lemma Current.deliver_latest (h : Current db list r feeds) (hpub : Published shown r)
    (hold : ∀ r' ∈ old, Solid r'.feeds) (hlist : queue.getLast?.getD list = stored) {n : ℕ}
    {l : Listener} {cast : Option ChatInfo} {rest : List (Option ChatInfo)}
    (hl : r.listeners[n]? = some l) (hq : l.queue = cast :: rest) {p : Panel}
    (hp : p = ⟨list, [⟨uid, queue, ⟨r.feeds, r.listeners.modify n fun l => { l with queue := rest }⟩
      :: old⟩], shown⟩)
    (ht : Timely kind p (0, 0) l.castId cast) :
    Fresh db stored uid (update kind (0, 0) cast p) := by
  cases cast with
  | some new =>
    obtain ⟨old', feeds', heq, hold', hcase⟩ := place_fresh hp h.array hpub.ours hold 0
    rw [update_some, heq]
    subst hp
    rcases hcase with ⟨-, -, rfl⟩ | ⟨-, hno, rfl⟩ | ⟨rfl, hentry⟩
    · exact (h.take_upsert hl hq).fresh hlist (.inl rfl) hold'
    · have hnot : new.castId ∉ feeds.map (·.castId) := by
        rw [← hasEntry_map_some, ← h.array]
        rcases hpub with rfl | ⟨-, hnil⟩ | ⟨⟨g, rfl⟩, -⟩
        · simpa using hno _ rfl
        · simp [hnil, HasEntry]
        · intro hentry
          exact hno _ rfl ((ht.1 rfl (0, g + 1) rfl (by simp)).2 (by simpa using hentry))
      rw [← upsert_of_notMem hnot]
      exact (h.take_upsert hl hq).fresh hlist (.inl rfl) hold'
    · obtain ⟨j, hj, hne, hentry⟩ := hentry rfl
      have hprov := provides_latest.mp ((ht.1 rfl j hj hne).1 hentry)
      exact (h.take_provided hl hq (by simpa [h.array] using hprov)).fresh hlist (.inl rfl) hold'
  | none =>
    rw [update_harmless ht.1]
    subst hp
    exact (h.take_null hl hq (by simpa using ht.2 rfl)).fresh hlist (hpub.take_null hl hq) hold

/-- A snapshot for a listener of an earlier refresh. -/
lemma Current.deliver_earlier (h : Current db list r feeds) (hpub : Published shown r)
    (hold : ∀ r' ∈ old, Solid r'.feeds) (hlist : queue.getLast?.getD list = stored) {g : ℕ}
    {castId : Text} {cast : Option ChatInfo} {p : Panel}
    (hp : p = ⟨list, [⟨uid, queue, r :: old⟩], shown⟩)
    (ht : Timely kind p (0, g + 1) castId cast) :
    Fresh db stored uid (update kind (0, g + 1) cast p) := by
  cases cast with
  | some new =>
    obtain ⟨hawaits, hprov⟩ := ht.2 (by simp)
    obtain ⟨old', feeds', heq, hold', hcase⟩ := place_fresh hp h.array hpub.ours hold (g + 1)
    rw [update_some, heq]
    subst hp
    have hwait := awaits_latest.mp hawaits
    have hpub' : ∀ feeds, Published (some (0, g + 1)) { r with feeds } := fun _ =>
      .inr (.inr ⟨⟨g, rfl⟩, hwait⟩)
    rcases hcase with ⟨rfl, hmem, rfl⟩ | ⟨hg, -⟩ | ⟨rfl, -⟩
    · have hentry : HasEntry r.feeds new.castId := h.array ▸ hasEntry_map_some.mpr hmem
      have hprov := provides_latest.mp (hprov rfl (by simpa using hentry))
      exact (h.replace hmem (by simpa [h.array] using hprov)).fresh hlist (hpub' _) hold'
    · simp at hg
    · have hsame := hpub' r.feeds
      rw [← h.array]
      exact h.fresh hlist hsame hold'
  | none =>
    rw [update_harmless ht.1, hp]
    exact h.fresh hlist hpub hold

end deliver

/-- A snapshot that comes in time. -/
lemma Fresh.deliver {db : Casts} {stored : List Text} {uid : Text} {kind : ListKind}
    {p p' : Panel} {i : ℕ × ℕ} {n : ℕ} {cast : Option ChatInfo} (h : Fresh db stored uid p)
    (hg : ∀ x ∈ p.listener? i n, ∀ y ∈ p.pop i n, Timely kind y.2 i x.castId y.1)
    (hpop : p.pop i n = some (cast, p')) : Fresh db stored uid (update kind i cast p') := by
  obtain ⟨l, queue, hl, hq, rfl⟩ := pop_eq hpop
  have ht := hg l hl _ hpop
  obtain ⟨⟨uid, squeue, refreshes⟩, hs, rfl, hlist, hcase⟩ := h
  obtain ⟨list, sessions, shown⟩ := p
  obtain rfl : sessions = [⟨uid, squeue, refreshes⟩] := hs
  obtain ⟨a, g⟩ := i
  obtain rfl : a = 0 := by
    by_contra hne
    obtain ⟨b, rfl⟩ := Nat.exists_eq_succ_of_ne_zero hne
    simp [Panel.listener?] at hl
  rcases hcase with ⟨hnil, -⟩ | ⟨r, old, feeds, hr, hcur, hpub, hold⟩
  · obtain rfl : refreshes = [] := hnil
    simp [Panel.listener?] at hl
  obtain rfl : refreshes = r :: old := hr
  cases g with
  | zero =>
    refine hcur.deliver_latest hpub hold hlist (by simpa [Panel.listener?] using hl) hq ?_ ht
    simp [modifyRefresh_first]
  | succ g =>
    have hold' : ∀ r' ∈ old.modify g fun r =>
        ⟨r.feeds, r.listeners.modify n fun l => { l with queue }⟩, Solid r'.feeds :=
      forall_mem_modify hold fun _ h => h
    refine hcur.deliver_earlier hpub hold' hlist ?_ ht
    simp [modifyRefresh_first]

lemma Fresh.deliverList {db : Casts} {stored : List Text} {uid : Text} {p p' : Panel} {a : ℕ}
    {data : List Text} (h : Fresh db stored uid p) (hpop : p.popList a = some (data, p')) :
    Fresh db stored uid (p'.refresh db a data) := by
  obtain ⟨⟨uid, squeue, refreshes⟩, hs, rfl, hlist, hcase⟩ := h
  obtain ⟨list, sessions, shown⟩ := p
  obtain rfl : sessions = [⟨uid, squeue, refreshes⟩] := hs
  obtain ⟨s, queue, hs, hq, rfl⟩ := popList_eq hpop
  obtain rfl : a = 0 := by
    by_contra hne
    obtain ⟨b, rfl⟩ := Nat.exists_eq_succ_of_ne_zero hne
    simp at hs
  obtain rfl : ⟨uid, squeue, refreshes⟩ = s := by simpa using hs
  obtain rfl : squeue = data :: queue := hq
  have hold : ∀ r ∈ refreshes, Solid r.feeds := by
    rcases hcase with ⟨rfl, -⟩ | ⟨r, old, feeds, rfl, hcur, -, hold⟩
    · simp
    · exact List.forall_mem_cons.mpr ⟨⟨feeds, hcur.array⟩, hold⟩
  have hcur : Current db data ⟨[], data.map fun castId => ⟨castId, [db.chatInfo castId]⟩⟩ [] := by
    refine ⟨rfl, by simp, by simp, ?_, ?_, ?_, ?_, ?_⟩
    · exact fun c hc => ⟨_, List.mem_map_of_mem hc, rfl⟩
    · intro l hl
      obtain ⟨c, hc, rfl⟩ := List.mem_map.mp hl
      exact hc
    · intro l hl
      obtain ⟨c, hc, rfl⟩ := List.mem_map.mp hl
      simp
    · intro l hl
      obtain ⟨c, hc, rfl⟩ := List.mem_map.mp hl
      intro cast hcast feed hfeed
      obtain rfl := List.mem_singleton.mp hcast
      exact db.key hfeed
    · exact fun c hc => .inl ⟨_, List.mem_map_of_mem hc, rfl, by simp⟩
  exact hcur.fresh (by simpa [List.getLast?_cons] using hlist) (.inr (.inl ⟨rfl, rfl⟩)) hold

lemma Fresh.notify {db : Casts} {stored : List Text} {uid : Text} {p : Panel}
    (h : Fresh db stored uid p) {c : Text} {value : Option ChatInfo}
    (hvalue : ∀ feed ∈ value, feed.castId = c) :
    Fresh (db.update c value hvalue) stored uid (p.notify c value) := by
  obtain ⟨s, hs, huid, hlist, hcase⟩ := h
  refine ⟨s.send c value, by simp [Panel.notify, hs], huid, hlist, ?_⟩
  rcases hcase with ⟨hnil, hne⟩ | ⟨r, old, feeds, hr, hcur, hpub, hold⟩
  · exact .inl ⟨by simp [Session.send, hnil], hne⟩
  · exact .inr ⟨_, _, feeds, congrArg _ hr, hcur.notify hvalue, hpub.notify c value,
      List.forall_mem_map.mpr hold⟩

lemma Fresh.notifyList {db : Casts} {stored data : List Text} {uid other : Text} {p : Panel}
    (h : Fresh db stored uid p) :
    Fresh db (if uid = other then data else stored) uid (p.notifyList other data) := by
  obtain ⟨s, hs, rfl, hlist, hcase⟩ := h
  by_cases ho : s.uid = other
  · refine ⟨{ s with queue := s.queue ++ [data] }, by simp [Panel.notifyList, hs, ho], rfl, ?_, ?_⟩
    · simp [ho]
    · exact hcase.imp_left fun ⟨hnil, _⟩ => ⟨hnil, by simp⟩
  · refine ⟨s, by simp [Panel.notifyList, hs, ho], rfl, ?_, hcase⟩
    simpa [Panel.notifyList, ho] using hlist

lemma fresh_mount (uid : Text) (casts : Casts) (lists : ListKind → Text → List Text)
    (kind : ListKind) :
    Fresh casts (lists kind uid) uid ((mount uid casts lists).panel kind) :=
  ⟨⟨uid, [lists kind uid], []⟩, rfl, rfl, rfl, .inl ⟨rfl, by simp⟩⟩

/-- One step in time. -/
lemma fresh_step {uid : Text} {m m' : World} {e : Event}
    (h : ∀ kind, Fresh m.casts (m.lists kind uid) uid (m.panel kind)) (hg : InTime m e)
    (hstep : step m e = some m') (k : ListKind) :
    Fresh m'.casts (m'.lists k uid) uid (m'.panel k) := by
  cases e with
  | chatInfo feed =>
    cases hstep
    exact (h k).notify (by simp)
  | removeChatInfo castId =>
    cases hstep
    exact (h k).notify (by simp)
  | list kind other data =>
    cases hstep
    by_cases hk : k = kind
    · subst hk
      simpa [Function.update] using (h k).notifyList
    · simpa [hk, Function.update] using h k
  | deliverList kind a =>
    obtain ⟨⟨data, p⟩, hpop, rfl⟩ := Option.map_eq_some_iff.mp hstep
    by_cases hk : k = kind
    · subst hk
      simpa using (h k).deliverList hpop
    · simpa [hk] using h k
  | deliver kind i n =>
    obtain ⟨⟨cast, p⟩, hpop, rfl⟩ := Option.map_eq_some_iff.mp hstep
    by_cases hk : k = kind
    · subst hk
      simpa using (h k).deliver hg hpop
    · simpa [hk] using h k
  | signIn other => exact hg.elim

def freshness (uid : Text) : Invariant step InTime where
  holds m := ∀ kind, Fresh m.casts (m.lists kind uid) uid (m.panel kind)
  preserved := fresh_step

/-- **The lists are up to date.** When every callback comes in time, each list shows exactly the
existing casts of the user's list, each with its latest `chatInfo`, whenever nothing waits for
delivery. -/
theorem upToDate_of_inTime (uid : Text) (casts : Casts) (lists : ListKind → Text → List Text)
    (kind : ListKind) (es : List Event) (h : Along step InTime (mount uid casts lists) es) :
    Throughout step
      (fun m => (m.panel kind).Settled →
        UpToDate m.casts (m.lists kind uid) (m.panel kind).display)
      (mount uid casts lists) es :=
  (freshness uid).throughout (fun _ hm => (hm kind).upToDate) (fresh_mount uid casts lists) h

/-- A cast of a host. -/
def guestCast (castId feedName : Text) : ChatInfo :=
  ⟨txt ['i'], txt ['h'], feedName, 0, castId, none, .ms 0⟩

def noCasts : Casts := ⟨fun _ => none, by simp⟩

/-- The guest's list holds the casts `a` and `b`, and `a` exists. -/
def guestLists : ListKind → Text → List Text
  | .feedList, _ => [txt ['a'], txt ['b']]
  | .myWedding, _ => []

def guestCasts : Casts :=
  noCasts.update (txt ['a']) (some (guestCast (txt ['a']) [])) (by simp [guestCast])

/-- Both snapshots come, then `b` is created and `a` renamed, the guest leaves `b`, and `a` is
renamed again: the listener of the first refresh on it gets the snapshot before the latest one. -/
def guestRun : List Event :=
  [.deliverList .feedList 0, .deliver .feedList (0, 0) 0, .deliver .feedList (0, 0) 1,
    .chatInfo (guestCast (txt ['b']) []), .deliver .feedList (0, 0) 1,
    .chatInfo (guestCast (txt ['a']) (txt ['x'])), .deliver .feedList (0, 0) 0,
    .list .feedList (txt ['u']) [txt ['a']], .deliverList .feedList 0,
    .deliver .feedList (0, 0) 0, .chatInfo (guestCast (txt ['a']) (txt ['y'])),
    .deliver .feedList (0, 1) 0, .deliver .feedList (0, 0) 0]

theorem upToDate_of_inTime_guest :
    (run step (mount (txt ['u']) guestCasts guestLists) guestRun).isSome ∧
      Throughout step
        (fun m => (m.panel .feedList).Settled →
          UpToDate m.casts (m.lists .feedList (txt ['u'])) (m.panel .feedList).display)
        (mount (txt ['u']) guestCasts guestLists) guestRun :=
  ⟨by decide, upToDate_of_inTime (txt ['u']) guestCasts guestLists .feedList guestRun (by decide)⟩

/-- After `guestRun`, the `chatInfo` of the cast the guest has left changes. -/
def leftCastRun : List Event :=
  guestRun ++ [.chatInfo (guestCast (txt ['b']) (txt ['z'])), .deliver .feedList (0, 1) 1]

/-- **A left cast comes back.** Its listener is still active and publishes the old array. -/
theorem not_always_upToDate :
    ¬∀ (uid : Text) (casts : Casts) (lists : ListKind → Text → List Text) (kind : ListKind)
      (es : List Event), (∀ e ∈ es, ∀ other, e ≠ .signIn other) →
      Throughout step
        (fun m => (m.panel kind).Settled →
          UpToDate m.casts (m.lists kind uid) (m.panel kind).display)
        (mount uid casts lists) es := by
  intro h
  have hrun := h (txt ['u']) guestCasts guestLists .feedList leftCastRun
    (by simp [leftCastRun, guestRun])
  revert hrun
  decide

end Wedcast.Menu
