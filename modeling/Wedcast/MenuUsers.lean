import Wedcast.Lib.Unwinding
import Wedcast.MenuLists

/-!
What the lists of `Menu` show to a user who signs in after another one.

The new user's session is the first of each list. Once its own list has come, the screen shows one
of its arrays, and only a listener of an earlier session can put another one there. Two runs with
the same events for the user are compared through the first session and the shown array.
-/

namespace Wedcast.Menu

open Runs

/-- The list of the user signed in last has been delivered. -/
def Panel.Delivered (p : Panel) : Prop := ∃ s ∈ p.sessions.head?, s.refreshes ≠ []

/-- The events of the casts and of the user signed in last. -/
def own (v : Text) : Event → Bool
  | .chatInfo _ | .removeChatInfo _ | .signIn _ => true
  | .list _ uid _ => uid = v
  | .deliverList _ a => a = 0
  | .deliver _ i _ => i.1 = 0

/-- Once the user's own list has come, the listeners of the earlier sessions only get snapshots
that change nothing. -/
def Inside (m : World) : Event → Prop
  | .deliverList kind a => a = 0 ∨ ¬(m.panel kind).Delivered
  | .deliver kind i l => i.1 = 0 ∨ ¬(m.panel kind).Delivered ∨
      ∀ x ∈ (m.panel kind).listener? i l, ∀ cast ∈ x.queue.head?, Harmless kind (m.panel kind) cast
  | .signIn _ => False
  | _ => True

instance (p : Panel) : Decidable p.Delivered :=
  inferInstanceAs (Decidable (∃ s ∈ p.sessions.head?, _))

instance (m : World) : (e : Event) → Decidable (Inside m e)
  | .deliverList _ _ => inferInstanceAs (Decidable (_ ∨ _))
  | .deliver _ _ _ => inferInstanceAs (Decidable (_ ∨ _ ∨ ∀ x ∈ _, ∀ cast ∈ _, _))
  | .signIn _ => isFalse id
  | .chatInfo _ | .removeChatInfo _ | .list _ _ _ => isTrue trivial

/-! ### Two screens of one user -/

/-- The first session is the same, and so is what the screen shows once its list has come. -/
def Alike (v : Text) (p q : Panel) : Prop :=
  ∃ s rest rest', p.sessions = s :: rest ∧ q.sessions = s :: rest' ∧ s.uid = v ∧
    (s.refreshes ≠ [] → p.shown = q.shown ∧ Ours p.shown)

lemma Alike.symm {v : Text} {p q : Panel} (h : Alike v p q) : Alike v q p := by
  obtain ⟨s, rest, rest', hp, hq, hv, hshown⟩ := h
  refine ⟨s, rest', rest, hq, hp, hv, fun hne => ?_⟩
  obtain ⟨hsame, hours⟩ := hshown hne
  exact ⟨hsame.symm, hsame ▸ hours⟩

lemma Alike.display_eq {v : Text} {p q : Panel} (h : Alike v p q) (hd : p.Delivered) :
    p.display = q.display := by
  obtain ⟨s, rest, rest', hp, hq, -, hshown⟩ := h
  obtain ⟨hsame, hours⟩ := hshown (by simpa [Panel.Delivered, hp] using hd)
  cases hs : p.shown with
  | none => simp [Panel.display, ← hsame, hs]
  | some i =>
    have hi : i.1 = 0 := hours i hs
    simp [Panel.display, ← hsame, hs, Panel.feeds, hi, hp, hq]

/-- An earlier session changes, and what the screen shows only before the list has come. -/
lemma Alike.left {v : Text} {p p' q : Panel} (h : Alike v p q)
    (hhead : p'.sessions.head? = p.sessions.head?)
    (hshown : p.Delivered → p'.shown = p.shown) : Alike v p' q := by
  obtain ⟨s, rest, rest', hp, hq, hv, hsame⟩ := h
  obtain ⟨tail, hp'⟩ : ∃ tail, p'.sessions = s :: tail := by
    cases hs : p'.sessions with
    | nil => simp [hs, hp] at hhead
    | cons s' tail => exact ⟨tail, by simpa [hs, hp] using hhead⟩
  refine ⟨s, tail, rest', hp', hq, hv, fun hne => ?_⟩
  rw [hshown ⟨s, by simp [hp], hne⟩]
  exact hsame hne

lemma delivered_congr {p q : Panel} (h : p.sessions.head? = q.sessions.head?) :
    p.Delivered ↔ q.Delivered := by
  simp only [Panel.Delivered, h]

/-! ### The foreign events -/

/-- Changing another session, or an array of a session without any, keeps the first session. -/
lemma head?_modifyRefresh {p : Panel} {i : ℕ × ℕ} {f : Refresh → Refresh}
    (h : i.1 ≠ 0 ∨ ¬p.Delivered) :
    (p.modifyRefresh i f).sessions.head? = p.sessions.head? := by
  obtain ⟨a, g⟩ := i
  cases hs : p.sessions with
  | nil => simp [Panel.modifyRefresh, hs]
  | cons s rest =>
    cases a with
    | zero =>
      have hnil : s.refreshes = [] := by simpa [Panel.Delivered, hs] using h
      simp [Panel.modifyRefresh, hs, hnil]
      rw [← hnil]
    | succ a => simp [Panel.modifyRefresh, hs]

lemma head?_update {kind : ListKind} {own : ℕ × ℕ} {cast : Option ChatInfo} {p : Panel}
    (h : ¬p.Delivered) : (update kind own cast p).sessions.head? = p.sessions.head? := by
  have hplace : (p.place own cast).sessions.head? = p.sessions.head? := by
    unfold Panel.place
    split
    · exact head?_modifyRefresh (.inr h)
    · split
      · rfl
      · exact head?_modifyRefresh (.inr h)
      · exact head?_modifyRefresh (.inr h)
  cases kind with
  | myWedding => cases cast <;> first | rfl | exact hplace
  | feedList => exact hplace

/-- A snapshot of an earlier session is taken. -/
lemma pop_foreign {p p' : Panel} {i : ℕ × ℕ} {n : ℕ} {cast : Option ChatInfo}
    (h : p.pop i n = some (cast, p')) (hi : i.1 ≠ 0) :
    ∃ l, p.listener? i n = some l ∧ l.queue.head? = some cast ∧
      p'.sessions.head? = p.sessions.head? ∧ p'.shown = p.shown ∧ p'.display = p.display := by
  obtain ⟨l, queue, hl, hq, rfl⟩ := pop_eq h
  exact ⟨l, hl, by simp [hq], head?_modifyRefresh (.inl hi), rfl,
    display_modifyRefresh fun _ => rfl⟩

/-- What two worlds have in common for `v`. -/
def SameFor (v : Text) (m w : World) : Prop :=
  m.casts = w.casts ∧ (∀ kind, m.lists kind v = w.lists kind v) ∧
    ∀ kind, Alike v (m.panel kind) (w.panel kind)

lemma SameFor.symm {v : Text} {m w : World} (h : SameFor v m w) : SameFor v w m :=
  ⟨h.1.symm, fun kind => (h.2.1 kind).symm, fun kind => (h.2.2 kind).symm⟩

lemma SameFor.setPanel {v : Text} {m w : World} (h : SameFor v m w) {kind : ListKind} {p : Panel}
    (hp : Alike v p (w.panel kind)) : SameFor v (m.setPanel kind p) w := by
  refine ⟨h.1, h.2.1, fun k => ?_⟩
  by_cases hk : k = kind
  · subst hk; simpa using hp
  · simpa [hk] using h.2.2 k

/-- A foreign event changes nothing the user sees. -/
lemma sameFor_left {v : Text} {m m' w : World} {e : Event} (h : SameFor v m w)
    (hown : own v e = false) (hg : Inside m e) (hs : step m e = some m') : SameFor v m' w := by
  cases e with
  | chatInfo feed => simp [own] at hown
  | removeChatInfo castId => simp [own] at hown
  | list kind uid data =>
    cases hs
    have huid : uid ≠ v := by simpa [own] using hown
    have hlists : SameFor v
        { m with lists := Function.update m.lists kind (Function.update (m.lists kind) uid data) }
        w := by
      refine ⟨h.1, fun k => ?_, h.2.2⟩
      by_cases hk : k = kind
      · subst hk; simpa [Ne.symm huid] using h.2.1 k
      · simpa [hk] using h.2.1 k
    refine hlists.setPanel ((h.2.2 kind).left ?_ fun _ => rfl)
    obtain ⟨s, rest, -, hp, -, hv, -⟩ := h.2.2 kind
    have hne : s.uid ≠ uid := fun he => huid (he ▸ hv)
    simp [Panel.notifyList, hp, hne]
  | deliverList kind a =>
    obtain ⟨⟨data, p⟩, hpop, rfl⟩ := Option.map_eq_some_iff.mp hs
    have ha : a ≠ 0 := by simpa [own] using hown
    have hdel : ¬(m.panel kind).Delivered := hg.resolve_left ha
    obtain ⟨s, queue, -, -, rfl⟩ := popList_eq hpop
    refine h.setPanel ((h.2.2 kind).left ?_ fun hd => absurd hd hdel)
    simp [Panel.refresh, Indexed.head?_modify ha]
  | deliver kind i n =>
    obtain ⟨⟨cast, p⟩, hpop, rfl⟩ := Option.map_eq_some_iff.mp hs
    have hi : i.1 ≠ 0 := by simpa [own] using hown
    obtain ⟨l, hl, hq, hhead, hshown, hdisplay⟩ := pop_foreign hpop hi
    rcases hg.resolve_left hi with hdel | hharm
    · have hdel' : ¬p.Delivered := by rwa [delivered_congr hhead]
      exact h.setPanel ((h.2.2 kind).left ((head?_update hdel').trans hhead)
        fun hd => absurd hd hdel)
    · have hharm : Harmless kind (m.panel kind) cast := hharm l hl cast hq
      have hsame : update kind i cast p = p := update_harmless ⟨hharm.1, hdisplay ▸ hharm.2⟩
      simp only [hsame]
      exact h.setPanel ((h.2.2 kind).left hhead fun _ => hshown)
  | signIn uid => simp [own] at hown

/-! ### The user's own events -/

/-- A callback of the first session reads and writes the first session only. -/
lemma update_ours (kind : ListKind) (g : ℕ) (cast : Option ChatInfo) {s : Session}
    {shown : Option (ℕ × ℕ)} (h : Ours shown) : ∃ s' shown', s'.uid = s.uid ∧ Ours shown' ∧
      ∀ list rest, update kind (0, g) cast ⟨list, s :: rest, shown⟩ =
        ⟨list, s' :: rest, shown'⟩ := by
  have hplace : ∃ s' shown', s'.uid = s.uid ∧ Ours shown' ∧ ∀ list rest,
      Panel.place (0, g) cast ⟨list, s :: rest, shown⟩ = ⟨list, s' :: rest, shown'⟩ := by
    let write (g' : ℕ) (feeds : List (Option ChatInfo)) : Session :=
      { s with refreshes := s.refreshes.modify g' fun r => { r with feeds := feeds } }
    let array (g' : ℕ) := ((s.refreshes[g']?).map (·.feeds)).getD []
    have ours : Ours (some (0, g)) := by simp [Ours]
    cases shown with
    | none =>
      refine ⟨write g (array g ++ [cast]), some (0, g), rfl, ours, fun list rest => ?_⟩
      simp [Panel.place, Panel.setFeeds, feeds_first, modifyRefresh_first, write, array]
    | some i =>
      obtain ⟨a, g'⟩ := i
      obtain rfl : a = 0 := h _ rfl
      cases hsearch : search cast (array g') with
      | none =>
        refine ⟨s, some (0, g'), rfl, h, fun list rest => ?_⟩
        simp [Panel.place, feeds_first, array, hsearch]
      | some r =>
        obtain ⟨newCast, feeds⟩ := r
        cases newCast with
        | false =>
          refine ⟨write g' feeds, some (0, g), rfl, ours, fun list rest => ?_⟩
          simp [Panel.place, Panel.setFeeds, feeds_first, modifyRefresh_first, write, array,
            hsearch]
        | true =>
          refine ⟨write g (array g ++ [cast]), some (0, g), rfl, ours, fun list rest => ?_⟩
          simp [Panel.place, Panel.setFeeds, feeds_first, modifyRefresh_first, write, array,
            hsearch]
  cases kind with
  | myWedding =>
    cases cast with
    | none => exact ⟨s, shown, rfl, h, fun _ _ => rfl⟩
    | some feed => exact hplace
  | feedList => exact hplace

lemma Alike.notify {v : Text} {p q : Panel} (h : Alike v p q) (c : Text)
    (value : Option ChatInfo) : Alike v (p.notify c value) (q.notify c value) := by
  obtain ⟨s, rest, rest', hp, hq, hv, hshown⟩ := h
  refine ⟨s.send c value, rest.map (Session.send c value), rest'.map (Session.send c value),
    by simp [Panel.notify, hp], by simp [Panel.notify, hq], hv, ?_⟩
  intro hne
  exact hshown fun hnil => hne (by simp [Session.send, hnil])

lemma Alike.notifyList {v : Text} {p q : Panel} (h : Alike v p q) (data : List Text) :
    Alike v (p.notifyList v data) (q.notifyList v data) := by
  obtain ⟨s, rest, rest', hp, hq, rfl, hshown⟩ := h
  exact ⟨{ s with queue := s.queue ++ [data] }, (p.notifyList s.uid data).sessions.tail,
    (q.notifyList s.uid data).sessions.tail, by simp [Panel.notifyList, hp],
    by simp [Panel.notifyList, hq], rfl, hshown⟩

lemma Alike.deliverList {v : Text} {p p' q q' : Panel} {data data' : List Text} (db : Casts)
    (h : Alike v p q) (hp : p.popList 0 = some (data, p'))
    (hq : q.popList 0 = some (data', q')) :
    Alike v (p'.refresh db 0 data) (q'.refresh db 0 data') := by
  obtain ⟨s, rest, rest', hps, hqs, hv, -⟩ := h
  obtain ⟨s₁, queue, hs₁, hq₁, rfl⟩ := popList_eq hp
  obtain ⟨s₂, queue', hs₂, hq₂, rfl⟩ := popList_eq hq
  obtain rfl : s = s₁ := by simpa [hps] using hs₁
  obtain rfl : s = s₂ := by simpa [hqs] using hs₂
  obtain ⟨rfl, rfl⟩ : data = data' ∧ queue = queue' := by simpa [hq₁] using hq₂
  refine ⟨⟨s.uid, queue, ⟨[], data.map fun castId => ⟨castId, [db.chatInfo castId]⟩⟩ ::
    s.refreshes⟩, rest, rest', ?_, ?_, hv, fun _ => ⟨rfl, by simp [Ours, Panel.refresh]⟩⟩
  · simp [Panel.refresh, hps]
  · simp [Panel.refresh, hqs]

lemma Alike.deliver {v : Text} {p p' q q' : Panel} {kind : ListKind} {g n : ℕ}
    {cast cast' : Option ChatInfo} (h : Alike v p q) (hp : p.pop (0, g) n = some (cast, p'))
    (hq : q.pop (0, g) n = some (cast', q')) :
    Alike v (update kind (0, g) cast p') (update kind (0, g) cast' q') := by
  obtain ⟨s, rest, rest', hps, hqs, hv, hshown⟩ := h
  obtain ⟨l, queue, hl, hlq, rfl⟩ := pop_eq hp
  obtain ⟨l', queue', hl', hlq', rfl⟩ := pop_eq hq
  obtain ⟨pl, ps, psh⟩ := p
  obtain ⟨ql, qs, qsh⟩ := q
  obtain rfl : ps = s :: rest := hps
  obtain rfl : qs = s :: rest' := hqs
  obtain rfl : l = l' := by
    have hl₂ : Panel.listener? ⟨ql, s :: rest', qsh⟩ (0, g) n = some l := hl
    exact Option.some.inj (hl₂.symm.trans hl')
  obtain ⟨rfl, rfl⟩ : cast = cast' ∧ queue = queue' := by simpa [hlq] using hlq'
  have hne : s.refreshes ≠ [] := by
    intro hnil
    simp [Panel.listener?, hnil] at hl
  obtain ⟨rfl, hours⟩ := hshown hne
  rw [modifyRefresh_first, modifyRefresh_first]
  obtain ⟨s', shown', huid, hours', hup⟩ := update_ours kind g cast hours
  rw [hup, hup]
  exact ⟨s', rest, rest', rfl, rfl, huid.trans hv, fun _ => ⟨rfl, hours'⟩⟩

/-- An own event does the same on both sides. -/
lemma sameFor_both {v : Text} {m m' w w' : World} {e : Event} (h : SameFor v m w)
    (hown : own v e = true) (hg : Inside m e) (hm : step m e = some m')
    (hw : step w e = some w') : SameFor v m' w' := by
  obtain ⟨hcasts, hlists, hpanel⟩ := h
  cases e with
  | chatInfo feed =>
    cases hm
    cases hw
    exact ⟨by simp [World.setChatInfo, hcasts], hlists, fun kind => (hpanel kind).notify _ _⟩
  | removeChatInfo castId =>
    cases hm
    cases hw
    exact ⟨by simp [World.setChatInfo, hcasts], hlists, fun kind => (hpanel kind).notify _ _⟩
  | list kind uid data =>
    cases hm
    cases hw
    obtain rfl : uid = v := by simpa [own] using hown
    refine ⟨hcasts, fun k => ?_, fun k => ?_⟩
    · by_cases hk : k = kind
      · subst hk; simp
      · simpa [hk] using hlists k
    · by_cases hk : k = kind
      · subst hk; simpa using (hpanel k).notifyList data
      · simpa [hk] using hpanel k
  | deliverList kind a =>
    obtain rfl : a = 0 := by simpa [own] using hown
    obtain ⟨⟨data, p⟩, hpop, rfl⟩ := Option.map_eq_some_iff.mp hm
    obtain ⟨⟨data', q⟩, hpop', rfl⟩ := Option.map_eq_some_iff.mp hw
    refine ⟨hcasts, hlists, fun k => ?_⟩
    by_cases hk : k = kind
    · subst hk; simpa [← hcasts] using (hpanel k).deliverList m.casts hpop hpop'
    · simpa [hk] using hpanel k
  | deliver kind i n =>
    obtain ⟨a, g⟩ := i
    obtain rfl : a = 0 := by simpa [own] using hown
    obtain ⟨⟨cast, p⟩, hpop, rfl⟩ := Option.map_eq_some_iff.mp hm
    obtain ⟨⟨cast', q⟩, hpop', rfl⟩ := Option.map_eq_some_iff.mp hw
    refine ⟨hcasts, hlists, fun k => ?_⟩
    by_cases hk : k = kind
    · subst hk; simpa using (hpanel k).deliver hpop hpop'
    · simpa [hk] using hpanel k
  | signIn uid => exact hg.elim

def sameness (v : Text) : Unwinding step Inside (own v) where
  rel := SameFor v
  left := sameFor_left
  right h hown hg hs := (sameFor_left h.symm hown hg hs).symm
  both h hown hg _ hm hw := sameFor_both h hown hg hm hw

lemma sameFor_getUserFeeds {v : Text} {m w : World} (hcasts : m.casts = w.casts)
    (hlists : ∀ kind, m.lists kind v = w.lists kind v) :
    SameFor v (getUserFeeds v m) (getUserFeeds v w) :=
  ⟨hcasts, hlists, fun kind => ⟨⟨v, [m.lists kind v], []⟩, (m.panel kind).sessions,
    (w.panel kind).sessions, rfl, by simp [getUserFeeds, Panel.subscribe, hlists], rfl, by simp⟩⟩

/-- **The lists are the user's own.** `v` signs in over two screens with any histories that hold
the same casts and the same lists of `v`. When the listeners of earlier sessions publish nothing
after the delivery of `v`'s lists, two runs with the same events of the casts and of `v` show the
same, whatever the other users' lists and listeners do. -/
theorem display_eq_of_inside (v : Text) (m w m' w' : World) (es fs : List Event)
    (hcasts : m.casts = w.casts) (hlists : ∀ kind, m.lists kind v = w.lists kind v)
    (hes : Along step Inside (getUserFeeds v m) es)
    (hfs : Along step Inside (getUserFeeds v w) fs)
    (hown : es.filter (own v) = fs.filter (own v))
    (hm : run step (getUserFeeds v m) es = some m')
    (hw : run step (getUserFeeds v w) fs = some w')
    (kind : ListKind) (hdel : (m'.panel kind).Delivered) :
    (m'.panel kind).display = (w'.panel kind).display := by
  have hsame := (sameness v).of_run (sameFor_getUserFeeds hcasts hlists) hown hes hfs hm hw
  exact (hsame.2.2 kind).display_eq hdel

/-- Only one user's `feedList` holds the cast `a`. -/
def listsOf (uid : Text) : ListKind → Text → List Text
  | .feedList, u => if u = uid then [txt ['a']] else []
  | .myWedding, _ => []

/-- The list of `v` comes, then the snapshot of its cast; `u` has no cast. -/
def ownRun : List Event := [.deliverList .feedList 0, .deliver .feedList (0, 0) 0]

/-- The same after a change of the list of `u`, delivered before the list of `v`. -/
def foreignRun : List Event :=
  [.list .feedList (txt ['u']) [txt ['a']], .deliverList .feedList 1] ++ ownRun

def screenOf (lists : ListKind → Text → List Text) : World :=
  getUserFeeds (txt ['v']) (mount (txt ['u']) guestCasts lists)

theorem display_eq_of_inside_foreign :
    ∃ m' w', run step (screenOf (listsOf (txt ['v']))) ownRun = some m' ∧
      run step (screenOf (listsOf (txt ['v']))) foreignRun = some w' ∧
      (m'.panel .feedList).display = (w'.panel .feedList).display := by
  let start := mount (txt ['u']) guestCasts (listsOf (txt ['v']))
  exact ⟨_, _, rfl, rfl, display_eq_of_inside (txt ['v']) start start _ _ ownRun foreignRun rfl
    (fun _ => rfl) (by decide) (by decide) rfl rfl rfl .feedList (by decide)⟩

/-- **A user sees another user's cast.** The listener `u` left on the cast publishes its array
while `v` is signed in. -/
theorem not_always_display_eq :
    ¬∀ (u v : Text) (casts : Casts) (lists lists' : ListKind → Text → List Text)
      (pre es fs : List Event) (m w m' w' : World), (∀ kind, lists kind v = lists' kind v) →
      run step (mount u casts lists) pre = some m → run step (mount u casts lists') pre = some w →
      (∀ e ∈ es ++ fs, ∀ uid, e ≠ .signIn uid) → es.filter (own v) = fs.filter (own v) →
      run step (getUserFeeds v m) es = some m' → run step (getUserFeeds v w) fs = some w' →
      ∀ kind, (m'.panel kind).Delivered →
        (m'.panel kind).display = (w'.panel kind).display := by
  intro h
  have hrun := h (txt ['u']) (txt ['v']) guestCasts (listsOf (txt ['u'])) (listsOf [])
    [.deliverList .feedList 0] [.deliverList .feedList 0, .deliver .feedList (1, 0) 0]
    [.deliverList .feedList 0] _ _ _ _ (by intro kind; cases kind <;> decide) rfl rfl
    (by simp) rfl rfl rfl .feedList (by decide)
  revert hrun
  decide

end Wedcast.Menu
