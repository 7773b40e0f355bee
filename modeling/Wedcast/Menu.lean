import Mathlib.Logic.Function.Basic
import Wedcast.Lib.Runs
import Wedcast.Database

/-!
The two lists of casts on the `Menu` screen.

`getUserFeeds` listens to the user's `myWedding` and `feedList`. Every value of such a list starts
a refresh: a new array `feeds`, a new listener on the `chatInfo` of each cast in the list, and a
state array set to null. Nothing calls `.off`, so the listeners of every earlier refresh, and of
every user signed in before, stay active. The state array is always null or the `feeds` array of
some refresh, and a callback may replace an entry of one array and then publish another.
-/

namespace Wedcast.Menu

inductive ListKind where
  | myWedding
  | feedList
  deriving DecidableEq

/-- The `chatInfo` of every cast, each under its own castId. -/
structure Casts where
  chatInfo : Text → Option ChatInfo
  key : ∀ {castId feed}, chatInfo castId = some feed → feed.castId = castId

def Casts.update (db : Casts) (castId : Text) (value : Option ChatInfo)
    (h : ∀ feed ∈ value, feed.castId = castId) : Casts where
  chatInfo := Function.update db.chatInfo castId value
  key := by
    intro c feed hc
    by_cases hcc : c = castId
    · subst hcc
      exact h feed (by simpa using hc)
    · exact db.key (by simpa [hcc] using hc)

/-- A listener on a `chatInfo`, with the snapshots not delivered to it yet, the oldest first. -/
structure Listener where
  castId : Text
  queue : List (Option ChatInfo)

/-- One call of `updateMyWeddingFeeds` or `updateFeeds`: its array and its listeners. -/
structure Refresh where
  feeds : List (Option ChatInfo)
  listeners : List Listener

/-- One call of `getUserFeeds`, for one of the two lists: its refreshes, the latest in front, and
the values of the list not delivered yet. -/
structure Session where
  uid : Text
  queue : List (List Text)
  refreshes : List Refresh

/-- One of the two lists of the screen. -/
structure Panel where
  /-- `state.myWeddingList`, respectively `state.feedList`. -/
  list : List Text
  /-- The calls of `getUserFeeds`, the latest in front. -/
  sessions : List Session
  /-- `state.myWeddings`, respectively `state.userFeeds`: null, or the session and the refresh
  whose array it is. -/
  shown : Option (ℕ × ℕ)

/-- The array of a refresh. -/
def Panel.feeds (p : Panel) (i : ℕ × ℕ) : List (Option ChatInfo) :=
  (((p.sessions[i.1]?).bind (·.refreshes[i.2]?)).map (·.feeds)).getD []

/-- The list on the screen, null as empty. -/
def Panel.display (p : Panel) : List (Option ChatInfo) := (p.shown.map p.feeds).getD []

def Panel.modifyRefresh (p : Panel) (i : ℕ × ℕ) (f : Refresh → Refresh) : Panel :=
  { p with
    sessions := p.sessions.modify i.1 fun s => { s with refreshes := s.refreshes.modify i.2 f } }

def Panel.setFeeds (p : Panel) (i : ℕ × ℕ) (feeds : List (Option ChatInfo)) : Panel :=
  p.modifyRefresh i fun r => { r with feeds := feeds }

/-! ### The callbacks on `chatInfo` -/

/-- The loop of both callbacks over the state array: whether the cast is new, and the array with
its entry replaced if not; `none` when `castId` of a null is read. -/
def search (cast : Option ChatInfo) :
    List (Option ChatInfo) → Option (Bool × List (Option ChatInfo))
  | [] => some (true, [])
  | none :: _ => none
  | some feed :: rest =>
    match cast with
    | none => none
    | some new =>
      if feed.castId = new.castId then some (false, cast :: rest)
      else (search cast rest).map fun (newCast, rest) => (newCast, some feed :: rest)

/-- The loop, `feeds.push` and `setState`, in the closure of the refresh `own`. An exception
leaves everything as it was. -/
def Panel.place (own : ℕ × ℕ) (cast : Option ChatInfo) (p : Panel) : Panel :=
  match p.shown with
  | none => { p.setFeeds own (p.feeds own ++ [cast]) with shown := some own }
  | some i =>
    match search cast (p.feeds i) with
    | none => p
    | some (false, feeds) => { p.setFeeds i feeds with shown := some own }
    | some (true, _) => { p.setFeeds own (p.feeds own ++ [cast]) with shown := some own }

/-- The callback of `updateMyWeddingFeeds`, which ignores a null. -/
def updateMyWeddingFeeds (own : ℕ × ℕ) (cast : Option ChatInfo) (p : Panel) : Panel :=
  match cast with
  | none => p
  | some _ => p.place own cast

/-- The callback of `updateFeeds`. -/
def updateFeeds (own : ℕ × ℕ) (cast : Option ChatInfo) (p : Panel) : Panel :=
  p.place own cast

def update : ListKind → ℕ × ℕ → Option ChatInfo → Panel → Panel
  | .myWedding => updateMyWeddingFeeds
  | .feedList => updateFeeds

/-! ### The screen and the database -/

structure World where
  panel : ListKind → Panel
  casts : Casts
  /-- The castIds under `users/<uid>/myWedding` and `users/<uid>/feedList`. -/
  lists : ListKind → Text → List Text

/-- The callback of `getUserFeeds` and the start of the refresh: a listener is first sent what the
database holds. -/
def Panel.refresh (db : Casts) (a : ℕ) (data : List Text) (p : Panel) : Panel where
  list := data
  sessions := p.sessions.modify a fun s =>
    { s with refreshes :=
      ⟨[], data.map fun castId => ⟨castId, [db.chatInfo castId]⟩⟩ :: s.refreshes }
  shown := none

/-- A new session; the indices of the earlier ones move by one. -/
def Panel.subscribe (uid : Text) (data : List Text) (p : Panel) : Panel :=
  { p with
    sessions := ⟨uid, [data], []⟩ :: p.sessions
    shown := p.shown.map fun i => (i.1 + 1, i.2) }

/-- `getUserFeeds` with `uid` signed in. -/
def getUserFeeds (uid : Text) (m : World) : World :=
  { m with panel := fun kind => (m.panel kind).subscribe uid (m.lists kind uid) }

/-- `componentDidMount` -/
def mount (uid : Text) (casts : Casts) (lists : ListKind → Text → List Text) : World :=
  getUserFeeds uid { panel := fun _ => ⟨[], [], none⟩, casts, lists }

def Listener.send (castId : Text) (value : Option ChatInfo) (l : Listener) : Listener :=
  if l.castId = castId then { l with queue := l.queue ++ [value] } else l

def Session.send (castId : Text) (value : Option ChatInfo) (s : Session) : Session :=
  { s with refreshes := s.refreshes.map fun r =>
    { r with listeners := r.listeners.map (Listener.send castId value) } }

/-- A `chatInfo` changes: every listener on it is sent the value. -/
def Panel.notify (castId : Text) (value : Option ChatInfo) (p : Panel) : Panel :=
  { p with sessions := p.sessions.map (Session.send castId value) }

/-- A user's list changes: every listener on it is sent the castIds. -/
def Panel.notifyList (uid : Text) (data : List Text) (p : Panel) : Panel :=
  { p with
    sessions := p.sessions.map fun s =>
      if s.uid = uid then { s with queue := s.queue ++ [data] } else s }

def Panel.listener? (p : Panel) (i : ℕ × ℕ) (l : ℕ) : Option Listener :=
  ((p.sessions[i.1]?).bind (·.refreshes[i.2]?)).bind (·.listeners[l]?)

/-- The next snapshot of a listener, taken from its queue. -/
def Panel.pop (p : Panel) (i : ℕ × ℕ) (l : ℕ) : Option (Option ChatInfo × Panel) :=
  (p.listener? i l).bind fun x =>
    match x.queue with
    | [] => none
    | value :: queue =>
      some (value, p.modifyRefresh i fun r =>
        { r with listeners := r.listeners.modify l fun x => { x with queue } })

/-- The next value of a session's list, taken from its queue. -/
def Panel.popList (p : Panel) (a : ℕ) : Option (List Text × Panel) :=
  (p.sessions[a]?).bind fun s =>
    match s.queue with
    | [] => none
    | data :: queue =>
      some (data, { p with sessions := p.sessions.modify a fun s => { s with queue } })

inductive Event where
  | chatInfo (feed : ChatInfo)
  | removeChatInfo (castId : Text)
  | list (kind : ListKind) (uid : Text) (data : List Text)
  /-- The next value of a list is delivered to its listener in session `a`. -/
  | deliverList (kind : ListKind) (a : ℕ)
  /-- The next snapshot is delivered to the `l`-th listener of a refresh. -/
  | deliver (kind : ListKind) (i : ℕ × ℕ) (l : ℕ)
  /-- Another user, or the same one, returns to the mounted `Menu`. -/
  | signIn (uid : Text)

def World.setPanel (m : World) (kind : ListKind) (p : Panel) : World :=
  { m with panel := Function.update m.panel kind p }

def World.setChatInfo (m : World) (castId : Text) (value : Option ChatInfo)
    (h : ∀ feed ∈ value, feed.castId = castId) : World :=
  { m with
    panel := fun kind => (m.panel kind).notify castId value
    casts := m.casts.update castId value h }

def step (m : World) : Event → Option World
  | .chatInfo feed => some (m.setChatInfo feed.castId (some feed) (by simp))
  | .removeChatInfo castId => some (m.setChatInfo castId none (by simp))
  | .list kind uid data =>
    let m := { m with
      lists := Function.update m.lists kind (Function.update (m.lists kind) uid data) }
    some (m.setPanel kind ((m.panel kind).notifyList uid data))
  | .deliverList kind a =>
    ((m.panel kind).popList a).map fun (data, p) => m.setPanel kind (p.refresh m.casts a data)
  | .deliver kind i l =>
    ((m.panel kind).pop i l).map fun (cast, p) => m.setPanel kind (update kind i cast p)
  | .signIn uid => some (getUserFeeds uid m)

@[simp] lemma setPanel_casts (m : World) (kind : ListKind) (p : Panel) :
    (m.setPanel kind p).casts = m.casts := rfl

@[simp] lemma setPanel_lists (m : World) (kind : ListKind) (p : Panel) :
    (m.setPanel kind p).lists = m.lists := rfl

@[simp] lemma setPanel_panel (m : World) (kind k : ListKind) (p : Panel) :
    (m.setPanel kind p).panel k = if k = kind then p else m.panel k := by
  by_cases h : k = kind <;> simp [World.setPanel, Function.update, h]

/-! ### The first session -/

/-- Null, or an array of the first session. -/
def Ours (shown : Option (ℕ × ℕ)) : Prop := ∀ i ∈ shown, i.1 = 0

lemma feeds_first (list : List Text) (s : Session) (rest : List Session)
    (shown : Option (ℕ × ℕ)) (g : ℕ) : Panel.feeds ⟨list, s :: rest, shown⟩ (0, g) =
      ((s.refreshes[g]?).map (·.feeds)).getD [] := by
  simp [Panel.feeds]

lemma modifyRefresh_first (list : List Text) (s : Session) (rest : List Session)
    (shown : Option (ℕ × ℕ)) (g : ℕ) (f : Refresh → Refresh) :
    Panel.modifyRefresh ⟨list, s :: rest, shown⟩ (0, g) f =
      ⟨list, { s with refreshes := s.refreshes.modify g f } :: rest, shown⟩ := by
  simp [Panel.modifyRefresh]

/-! ### What is delivered next -/

lemma feeds_modifyRefresh {p : Panel} {i j : ℕ × ℕ} {f : Refresh → Refresh}
    (hf : ∀ r, (f r).feeds = r.feeds) : (p.modifyRefresh i f).feeds j = p.feeds j := by
  simp only [Panel.feeds, Panel.modifyRefresh, List.getElem?_modify]
  cases hs : p.sessions[j.1]? with
  | none => simp
  | some s =>
    by_cases hi : i.1 = j.1
    · by_cases hj : i.2 = j.2 <;>
        cases hr : s.refreshes[j.2]? <;> simp [hi, hj, hr, hf]
    · simp [hi]

lemma display_modifyRefresh {p : Panel} {i : ℕ × ℕ} {f : Refresh → Refresh}
    (hf : ∀ r, (f r).feeds = r.feeds) : (p.modifyRefresh i f).display = p.display := by
  have hfeeds : (p.modifyRefresh i f).feeds = p.feeds := funext fun j => feeds_modifyRefresh hf
  rw [Panel.display, hfeeds]
  rfl

lemma pop_eq {p p' : Panel} {i : ℕ × ℕ} {n : ℕ} {cast : Option ChatInfo}
    (h : p.pop i n = some (cast, p')) : ∃ l queue, p.listener? i n = some l ∧
      l.queue = cast :: queue ∧ p' = p.modifyRefresh i fun r =>
        { r with listeners := r.listeners.modify n fun l => { l with queue } } := by
  obtain ⟨l, hl, h⟩ := Option.bind_eq_some_iff.mp h
  cases hq : l.queue with
  | nil => simp [hq] at h
  | cons value queue =>
    obtain ⟨rfl, rfl⟩ : value = cast ∧ _ = p' := by simpa [hq] using h
    exact ⟨l, queue, hl, hq, rfl⟩

lemma popList_eq {p p' : Panel} {a : ℕ} {data : List Text} (h : p.popList a = some (data, p')) :
    ∃ s queue, p.sessions[a]? = some s ∧ s.queue = data :: queue ∧
      p' = { p with sessions := p.sessions.modify a fun s => { s with queue } } := by
  obtain ⟨s, hs, h⟩ := Option.bind_eq_some_iff.mp h
  cases hq : s.queue with
  | nil => simp [hq] at h
  | cons value queue =>
    obtain ⟨rfl, rfl⟩ : value = data ∧ _ = p' := by simpa [hq] using h
    exact ⟨s, queue, hs, hq, rfl⟩

/-! ### The callbacks that change nothing -/

/-- A null changes nothing, unless `updateFeeds` gets it while its list is empty. -/
def Harmless (kind : ListKind) (p : Panel) (cast : Option ChatInfo) : Prop :=
  cast = none ∧ (kind = .feedList → p.display ≠ [])

instance (kind : ListKind) (p : Panel) (cast : Option ChatInfo) :
    Decidable (Harmless kind p cast) :=
  inferInstanceAs (Decidable (_ ∧ (_ → _)))

lemma search_none {feeds : List (Option ChatInfo)} (h : feeds ≠ []) : search none feeds = none := by
  match feeds with
  | none :: _ | some _ :: _ => rfl

lemma update_harmless {kind : ListKind} {own : ℕ × ℕ} {cast : Option ChatInfo} {p : Panel}
    (h : Harmless kind p cast) : update kind own cast p = p := by
  obtain ⟨rfl, hne⟩ := h
  cases kind with
  | myWedding => rfl
  | feedList =>
    have hne := hne rfl
    cases hs : p.shown with
    | none => simp [Panel.display, hs] at hne
    | some i =>
      have hfeeds : p.feeds i ≠ [] := by simpa [Panel.display, hs] using hne
      simp [update, updateFeeds, Panel.place, hs, search_none hfeeds]

end Wedcast.Menu
