import Wedcast.Lib.History
import Wedcast.Lib.Keyed
import Wedcast.Text

/-!
The members of a cast, as `FeedUsers` shows them.

The listener sorts every value of `members` into an online and an offline array and stores them by
two calls of `setState`. Outside of React's own event handlers each call renders at once, so
between them the screen shows the new members online and the old ones offline.
-/

namespace Wedcast.FeedUsers

open Runs

/-- What the screen reads of the value of a member, and what else is stored there. -/
structure Member where
  userName : Option Text
  avatar : Option Text
  avatarUri : Option Text
  castId : Option Text
  password : Option Text
  online : Option Bool
  deriving DecidableEq

/-- `ss.val().online` as a condition -/
def Member.isOnline (m : Member) : Bool := m.online.getD false

/-- A child of `members`, by the uid of the user. -/
structure Child where
  key : Text
  val : Member
  deriving DecidableEq

structure Snapshot where
  children : List Child
  nodup : (children.map (·.key)).Nodup

/-- The two arrays hold the values of the children; the keys are kept to tell the members
apart. -/
structure State where
  onlineUsers : Option (List Child)
  offlineUsers : Option (List Child)
  /-- The array `offlineUsers` of the callback, until its second `setState`. -/
  callback : Option (List Child)
  deriving DecidableEq

def init : State := ⟨none, none, none⟩

/-- The arrays of the callback: one loop that pushes each value onto one of them. -/
def sort (snapshot : Snapshot) : List Child × List Child :=
  snapshot.children.partition fun ss => ss.val.isOnline

/-- The sections of the `SectionList`, the online members in front. -/
def State.sections (s : State) : List Child := s.onlineUsers.getD [] ++ s.offlineUsers.getD []

/-- What `renderItem` gives its `ListItem`. -/
structure Row where
  id : Option Text
  title : Option Text
  /-- The picture; `none` is the placeholder. -/
  source : Option Text
  /-- The dot has the color of an online member. -/
  online : Bool
  deriving DecidableEq

def renderItem (item : Member) : Row where
  id := item.castId
  title := item.userName
  source := item.avatarUri
  online := item.isOnline

inductive Event where
  /-- A value is delivered: the callback runs to the end of its first `setState`. -/
  | value (snapshot : Snapshot)
  /-- The second `setState` of the callback. -/
  | setOffline

def step (s : State) : Event → Option State
  | .value snapshot =>
    match s.callback with
    | some _ => none
    | none =>
      let (onlineUsers, offlineUsers) := sort snapshot
      some { s with onlineUsers := some onlineUsers, callback := some offlineUsers }
  | .setOffline =>
    s.callback.map fun offlineUsers =>
      { s with offlineUsers := some offlineUsers, callback := none }

/-! ### What is shown of a member -/

/-- The value before the last one, and the last one. -/
abbrev Delivered := Option Snapshot × Option Snapshot

def delivered (x : State × Delivered) (e : Event) (_ : State) : Delivered :=
  match e with
  | .value snapshot => (x.2.2, some snapshot)
  | .setOffline => x.2

/-- Whoever is a member in both values is shown once. -/
def ShownOnce (x : State × Delivered) : Prop :=
  ∀ old ∈ x.2.1, ∀ new ∈ x.2.2, ∀ k ∈ old.children.map (·.key), k ∈ new.children.map (·.key) →
    (x.1.sections.map (·.key)).count k = 1

/-- No member on the screen belongs to the other section by the new value. -/
def Steady (s : State) : Event → Prop
  | .value new => ∀ c ∈ s.sections, ∀ d ∈ new.children, d.key = c.key →
      d.val.isOnline = c.val.isOnline
  | .setOffline => True

instance (x : State × Delivered) : Decidable (ShownOnce x) :=
  inferInstanceAs (Decidable (∀ old ∈ x.2.1, ∀ new ∈ x.2.2, ∀ k ∈ _, _ → _))

instance (s : State) : (e : Event) → Decidable (Steady s e)
  | .value _ => inferInstanceAs (Decidable (∀ c ∈ _, ∀ d ∈ _, _ → _))
  | .setOffline => isTrue trivial

def Snapshot.online (snapshot : Snapshot) : List Child :=
  snapshot.children.filter (·.val.isOnline)

def Snapshot.offline (snapshot : Snapshot) : List Child :=
  snapshot.children.filter (!·.val.isOnline)

lemma sort_eq (snapshot : Snapshot) : sort snapshot = (snapshot.online, snapshot.offline) := by
  rw [sort, List.partition_eq_filter_filter]
  rfl

lemma step_value {s s' : State} {new : Snapshot} (h : step s (.value new) = some s') :
    s.callback = none ∧ s' = ⟨some new.online, s.offlineUsers, some new.offline⟩ := by
  simp only [step] at h
  split at h
  · cases h
  · rename_i hidle
    rw [sort_eq] at h
    cases h
    exact ⟨hidle, rfl⟩

lemma step_setOffline {s s' : State} (h : step s .setOffline = some s') :
    ∃ offlineUsers, s.callback = some offlineUsers ∧
      s' = ⟨s.onlineUsers, some offlineUsers, none⟩ := by
  obtain ⟨offlineUsers, hcallback, rfl⟩ := Option.map_eq_some_iff.mp h
  exact ⟨offlineUsers, hcallback, rfl⟩

/-- How often a member of two values is shown, online by the one and offline by the other. -/
lemma count_sections {old new : Snapshot} {c d : Child} (hc : c ∈ old.children)
    (hd : d ∈ new.children) (hkey : d.key = c.key) :
    ((new.online ++ old.offline).map (·.key)).count c.key =
      (if d.val.isOnline then 1 else 0) + if c.val.isOnline then 0 else 1 := by
  have hnew : (new.online.map (·.key)).count c.key = if d.val.isOnline then 1 else 0 := by
    rw [← hkey]
    exact Keyed.count_filter_key new.nodup hd
  have hold : (old.offline.map (·.key)).count c.key = if c.val.isOnline then 0 else 1 := by
    have hcount := Keyed.count_filter_key (p := fun c => !c.val.isOnline) old.nodup hc
    rw [Snapshot.offline, hcount]
    cases c.val.isOnline <;> rfl
  rw [List.map_append, List.count_append, hnew, hold]

/-- A member is shown once exactly when its two flags agree. -/
lemma count_sections_eq_one_iff {old new : Snapshot} {c d : Child} (hc : c ∈ old.children)
    (hd : d ∈ new.children) (hkey : d.key = c.key) :
    ((new.online ++ old.offline).map (·.key)).count c.key = 1 ↔
      d.val.isOnline = c.val.isOnline := by
  rw [count_sections hc hd hkey]
  cases c.val.isOnline <;> cases d.val.isOnline <;> decide

/-! ### Whole runs -/

/-- Between two values the screen shows the last one; in a callback it shows the members online of
the last one and the members offline of the one before. -/
structure Sorted (x : State × Delivered) : Prop where
  online : x.1.onlineUsers = x.2.2.map Snapshot.online
  offline : x.1.offlineUsers =
    (if x.1.callback.isSome then x.2.1 else x.2.2).map Snapshot.offline
  callback : ∀ offlineUsers ∈ x.1.callback, ∃ new, x.2.2 = some new ∧ offlineUsers = new.offline

lemma sorted_step {x y : State × Delivered} {e : Event} (h : Sorted x)
    (hs : noting step delivered x e = some y) : Sorted y := by
  obtain ⟨s, old, new⟩ := x
  obtain ⟨s', n'⟩ := y
  obtain ⟨hstep, hnote⟩ := noting_some hs
  obtain ⟨honline, hoffline, hcallback⟩ := h
  simp only at hstep hnote honline hoffline hcallback
  cases e with
  | value snapshot =>
    obtain ⟨hidle, rfl⟩ := step_value hstep
    obtain rfl : n' = (new, some snapshot) := hnote
    refine ⟨rfl, ?_, fun offlineUsers hmem => ⟨snapshot, rfl, ?_⟩⟩
    · simpa [hidle] using hoffline
    · exact (Option.some.inj hmem).symm
  | setOffline =>
    obtain ⟨offlineUsers, hrun, rfl⟩ := step_setOffline hstep
    obtain rfl : n' = (old, new) := hnote
    obtain ⟨snapshot, hnew, hlist⟩ := hcallback offlineUsers hrun
    refine ⟨honline, ?_, by simp⟩
    simp [hnew, hlist]

/-- The two flags of a member in two values of `members` agree. -/
def Snapshot.Agrees (old new : Snapshot) : Prop :=
  ∀ c ∈ old.children, ∀ d ∈ new.children, d.key = c.key → d.val.isOnline = c.val.isOnline

lemma mem_sections {snapshot : Snapshot} {c : Child} :
    c ∈ snapshot.online ++ snapshot.offline ↔ c ∈ snapshot.children := by
  rw [List.mem_append, Snapshot.online, Snapshot.offline, List.mem_filter, List.mem_filter]
  cases c.val.isOnline <;> simp

/-- While the members online of a value are shown with the members offline of another, whoever is
a member in both is shown once exactly when no flag differs. -/
lemma shownOnce_iff_agrees (old new : Snapshot) :
    (∀ k ∈ old.children.map (·.key), k ∈ new.children.map (·.key) →
      ((new.online ++ old.offline).map (·.key)).count k = 1) ↔ old.Agrees new := by
  constructor
  · intro h c hc d hd hkey
    refine (count_sections_eq_one_iff hc hd hkey).mp (h c.key (List.mem_map_of_mem hc) ?_)
    exact hkey ▸ List.mem_map_of_mem hd
  · intro h k hold hnew
    obtain ⟨c, hc, rfl⟩ := List.mem_map.mp hold
    obtain ⟨d, hd, hkey⟩ := List.mem_map.mp hnew
    exact (count_sections_eq_one_iff hc hd hkey).mpr (h c hc d hd hkey)

/-- One value agrees with itself. -/
lemma agrees_self (snapshot : Snapshot) : snapshot.Agrees snapshot := by
  intro c hc d hd hkey
  rw [List.inj_on_of_nodup_map snapshot.nodup hd hc hkey]

lemma shownOnce_step_iff {x y : State × Delivered} {e : Event} (h : Sorted x)
    (hs : noting step delivered x e = some y) : ShownOnce y ↔ Steady x.1 e := by
  obtain ⟨s, old, new⟩ := x
  obtain ⟨s', n'⟩ := y
  obtain ⟨hstep, hnote⟩ := noting_some hs
  obtain ⟨honline, hoffline, hcallback⟩ := h
  simp only at hstep hnote honline hoffline hcallback
  cases e with
  | value snapshot =>
    obtain ⟨hidle, rfl⟩ := step_value hstep
    obtain rfl : n' = (new, some snapshot) := hnote
    rw [hidle] at hoffline
    have hsections : s.sections = (new.map Snapshot.online).getD [] ++
        (new.map Snapshot.offline).getD [] := by
      rw [State.sections, honline, hoffline]
      rfl
    cases new with
    | none => exact iff_of_true (by simp [ShownOnce]) (by simp [Steady, hsections])
    | some old =>
      have hshown := shownOnce_iff_agrees old snapshot
      have hsteady : Steady s (.value snapshot) ↔ old.Agrees snapshot := by
        simp only [Steady, hsections, Option.map_some, Option.getD_some, mem_sections]
        exact Iff.rfl
      rw [hsteady, ← hshown]
      simp [ShownOnce, State.sections, hoffline]
  | setOffline =>
    obtain ⟨offlineUsers, hrun, rfl⟩ := step_setOffline hstep
    obtain rfl : n' = (old, new) := hnote
    obtain ⟨snapshot, hnew, hlist⟩ := hcallback offlineUsers hrun
    have hsections : State.sections ⟨s.onlineUsers, some offlineUsers, none⟩ =
        snapshot.online ++ snapshot.offline := by
      rw [State.sections, honline, hnew, hlist]
      rfl
    refine iff_of_true ?_ trivial
    intro old _ new' hnew' k _ hk
    obtain rfl : snapshot = new' := Option.some.inj (hnew.symm.trans hnew')
    rw [hsections]
    exact (shownOnce_iff_agrees snapshot snapshot).mpr (agrees_self snapshot) k hk hk

/-- The sorting goes on whatever is delivered, so it is kept along every run. -/
def sorting : Invariant (noting step delivered) fun x e => Steady x.1 e where
  holds x := Sorted x ∧ ShownOnce x
  preserved h hg hs := ⟨sorted_step h.1 hs, (shownOnce_step_iff h.1 hs).mpr hg⟩

/-- **Every member is shown once** in every state on the screen exactly when no value of `members`
moves a member from one section to the other. -/
theorem shownOnce_iff_steady (es : List Event) :
    Throughout (noting step delivered) ShownOnce (init, none, none) es ↔
      Along step Steady init es := by
  have hinit : Sorted (init, none, none) := ⟨rfl, rfl, by simp [init]⟩
  have hnone : ShownOnce (init, none, none) := by simp [ShownOnce]
  have hnoting : Along (noting step delivered) (fun x e => Steady x.1 e) (init, none, none) es ↔
      Along step Steady init es := along_noting
  rw [← hnoting]
  refine sorting.throughout_iff (fun _ hx => hx.2) ?_ ⟨hinit, hnone⟩
  exact fun x e y hx hs hy => (shownOnce_step_iff hx.1 hs).mp hy

/-- A member with a name and a flag. -/
def guest (name : Text) (online : Bool) : Child :=
  ⟨name, some name, none, none, none, none, some online⟩

/-- A guest opens the camera. -/
def comesOnline : List Event :=
  [.value ⟨[guest (txt ['a']) false], List.nodup_singleton _⟩, .setOffline,
    .value ⟨[guest (txt ['a']) true], List.nodup_singleton _⟩]

/-- **A guest is shown twice.** -/
theorem not_always_shownOnce :
    ¬∀ es : List Event,
      Throughout (noting step delivered) ShownOnce (init, none, none) es := by
  intro h
  have hrun := h comesOnline
  revert hrun
  decide

end Wedcast.FeedUsers
