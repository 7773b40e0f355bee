import Wedcast.TextFields

/-!
The key a cast is created under, and the key it is looked up by.

`CreateFeed` stores the castId without a `#` and removes one before it writes; `Menu` puts a `#` in
front of what is searched for and removes one before it reads. Both strip the same characters, a
`#` among them, and `toLowerCase` brings none of them back, so the two keys are one.
-/

namespace Wedcast

open Runs Delayed

/-! ### The keys -/

namespace CreateFeed

/-- `createFeed` sets the `chatInfo` of its key, which holds that key. -/
lemma chatInfo_mem_createFeed (newFeedId : Text) (s : State) :
    ∃ newFeed, newFeed.castId = dropHash s.castId ∧
      .chatInfo (dropHash s.castId) newFeed ∈ createFeed newFeedId s :=
  ⟨_, rfl, List.mem_cons_self⟩

/-- The wizard has settled on the castId `text`, which was typed without overtaking a timer and
not changed since. -/
def SettledOn (L : LowerCase) (text : Text) (s' : State) : Prop :=
  ∃ s es, run (step L) s (.changeText .castId text :: es) = some s' ∧
    Unhurried (sanitize L .castId text) text (s.cell .castId).timers ∧
    (∀ e ∈ es, ¬e.Writes .castId) ∧ (s'.cell .castId).timers = []

end CreateFeed

namespace Menu

/-- The castId `goToFeed` looks up. -/
def key (feedId : Text) : Text := dropHash feedId

/-- How the read of the user's own record under the cast ends. -/
inductive Permission where
  | value (hasPermission : Bool)
  | denied
  | failed
  deriving DecidableEq

/-- What the user gets to see. -/
inductive Opened where
  | privateFeed (feed : ChatInfo) (owner castId : Text)
  | weddingDetails (castId feedName : Text)
  /-- ``Couldn't find Wedcast ${feedId}`` -/
  | notFound (feedId : Text)
  deriving DecidableEq

def goToFeed (chatInfo : Text → Option ChatInfo) (permission : Text → Permission)
    (feedId : Text) : Option Opened :=
  let castId := key feedId
  match chatInfo castId with
  | none => some (.notFound feedId)
  | some feed =>
    match permission castId with
    | .value true => some (.weddingDetails castId feed.feedName)
    | .value false | .denied => some (.privateFeed feed feed.owner castId)
    | .failed => none

/-- What is stored under the castId decides what a search for the text shows: nothing is found, the
wedding of a member, or the private feed of anybody else. -/
structure LooksUp (feedId castId : Text) : Prop where
  missing : ∀ chatInfo permission, chatInfo castId = none →
    goToFeed chatInfo permission feedId = some (.notFound feedId)
  member : ∀ chatInfo permission feed, chatInfo castId = some feed →
    permission castId = .value true →
      goToFeed chatInfo permission feedId = some (.weddingDetails castId feed.feedName)
  stranger : ∀ chatInfo permission feed, chatInfo castId = some feed →
    permission castId = .value false ∨ permission castId = .denied →
      goToFeed chatInfo permission feedId = some (.privateFeed feed feed.owner castId)

lemma looksUp_key (feedId : Text) : LooksUp feedId (key feedId) where
  missing chatInfo permission hcast := by simp only [goToFeed, hcast]
  member chatInfo permission feed hcast hmember := by simp only [goToFeed, hcast, hmember]
  stranger chatInfo permission feed hcast hstranger := by
    rcases hstranger with hno | hdenied
    · simp only [goToFeed, hcast, hno]
    · simp only [goToFeed, hcast, hdenied]

lemma looksUp_of_key {feedId castId : Text} (h : key feedId = castId) : LooksUp feedId castId :=
  h ▸ looksUp_key feedId

/-- The search has settled on `text`, which was typed without overtaking a timer. -/
def SettledOn (L : LowerCase) (text : Text) (c' : Cell Text) : Prop :=
  ∃ c es, run (Delayed.step (addHashTag L)) c (.changeText text :: es) = some c' ∧
    Unhurried (hashTag L text) text c.timers ∧ (∀ e ∈ es, e = .timer) ∧ c'.timers = []

end Menu

/-! ### What the fields settle on -/

variable {L : LowerCase}

lemma CreateFeed.SettledOn.castId {text : Text} {s : State} (h : SettledOn L text s) :
    s.castId = sanitize L .castId text := by
  obtain ⟨s₀, es, hrun, hunhurried, hes, hnil⟩ := h
  obtain ⟨s₁, hput, hrest⟩ := run_cons_some hrun
  obtain ⟨-, rfl⟩ := step_cases hput
  have hsettled := settled_run hrest hes
  rw [Cell.settled_of_nil hnil, cell_changeText_self] at hsettled
  exact hsettled.trans (Cell.settled_put_eq_iff.mpr hunhurried)

lemma Menu.SettledOn.feedId {text : Text} {c : Cell Text} (h : SettledOn L text c) :
    c.value = hashTag L text := by
  obtain ⟨c₀, es, hrun, hunhurried, hes, hnil⟩ := h
  obtain ⟨c₁, hput, hrest⟩ := run_cons_some hrun
  obtain rfl : addHashTag L text c₀ = c₁ := Option.some.inj hput
  have hsettled := settled_run_timers hrest hes
  rw [Cell.settled_of_nil hnil] at hsettled
  exact hsettled.trans (Cell.settled_put_eq_iff.mpr hunhurried)

/-! ### One key -/

/-- The sanitised castId of the wizard, which is also the key. -/
lemma hash_notMem_sanitize (text : Text) : ch '#' ∉ CreateFeed.sanitize L .castId text := by
  intro hmem
  have hfree := CreateFeed.free_sanitize (L := L) .castId text
  exact hfree _ hmem (by decide)

lemma dropHash_sanitize (text : Text) :
    dropHash (CreateFeed.sanitize L .castId text) = CreateFeed.sanitize L .castId text :=
  List.erase_of_not_mem (hash_notMem_sanitize text)

/-- The `#` in front of a searched castId is the one that is removed. -/
lemma key_hashTag (text : Text) :
    Menu.key (Menu.hashTag L text) = CreateFeed.sanitize L .castId text := by
  have hsan : L.toLowerCase (removeAll forbidden text) = CreateFeed.sanitize L .castId text := rfl
  rw [Menu.key, Menu.hashTag, hsan]
  split_ifs
  · rw [dropHash, List.erase_cons_head]
  · exact dropHash_sanitize text

/-- Sanitising is idempotent on its image, with a `#` in front or without. -/
lemma sanitize_hash_sanitize (text : Text) :
    CreateFeed.sanitize L .castId (ch '#' :: CreateFeed.sanitize L .castId text) =
      CreateFeed.sanitize L .castId text := by
  have hfree : Free forbidden (CreateFeed.sanitize L .castId text) :=
    CreateFeed.free_sanitize (L := L) .castId text
  have hstrip : removeAll forbidden (ch '#' :: CreateFeed.sanitize L .castId text) =
      CreateFeed.sanitize L .castId text := by
    have hhash : removeAll forbidden (ch '#' :: CreateFeed.sanitize L .castId text) =
        removeAll forbidden (CreateFeed.sanitize L .castId text) :=
      List.filter_cons_of_neg (by decide)
    rw [hhash, removeAll_of_free hfree]
  have hlower : CreateFeed.sanitize L .castId (ch '#' :: CreateFeed.sanitize L .castId text) =
      L.toLowerCase (CreateFeed.sanitize L .castId text) := congrArg L.toLowerCase hstrip
  rw [hlower]
  exact L.idem _

lemma CreateFeed.SettledOn.key {text : Text} {s : State} (h : SettledOn L text s) :
    dropHash s.castId = sanitize L .castId text := by
  rw [h.castId, dropHash_sanitize]

lemma Menu.SettledOn.key {text : Text} {c : Cell Text} (h : SettledOn L text c) :
    Menu.key c.value = CreateFeed.sanitize L .castId text := by
  rw [h.feedId, key_hashTag]

variable {text : Text} {s : CreateFeed.State} {c : Cell Text}

lemma key_search (hs : CreateFeed.SettledOn L text s) (hc : Menu.SettledOn L text c) :
    Menu.key c.value = dropHash s.castId := by
  rw [hs.key, hc.key]

/-- A row of a list looks up the key it shows. -/
lemma key_row (hs : CreateFeed.SettledOn L text s) :
    Menu.key (dropHash s.castId) = dropHash s.castId := by
  rw [hs.key, Menu.key, dropHash_sanitize]

lemma key_search_hash (hs : CreateFeed.SettledOn L text s)
    (hc : Menu.SettledOn L (ch '#' :: dropHash s.castId) c) :
    Menu.key c.value = dropHash s.castId := by
  have hkey := hs.key
  rw [hc.key, hkey, sanitize_hash_sanitize]

/-- **Creating and searching agree on the key.** The castId under which `createFeed` writes what was
typed as `t` is the one that `goToFeed` looks up in a search for `t`, from a row that shows it, and
in a search for it with a `#`. -/
theorem key_agrees (L : LowerCase) (t : Text) (s : CreateFeed.State)
    (hs : CreateFeed.SettledOn L t s) (newFeedId : Text) :
    ∃ castId newFeed, .chatInfo castId newFeed ∈ CreateFeed.createFeed newFeedId s ∧
      newFeed.castId = castId ∧
      (∀ w ∈ CreateFeed.createFeed newFeedId s, ∀ key ∈ w.castId?, key = castId) ∧
      (∀ c, Menu.SettledOn L t c → Menu.LooksUp c.value castId) ∧
      Menu.LooksUp castId castId ∧
      ∀ c, Menu.SettledOn L (ch '#' :: castId) c → Menu.LooksUp c.value castId := by
  obtain ⟨newFeed, hcastId, hmem⟩ := CreateFeed.chatInfo_mem_createFeed newFeedId s
  refine ⟨_, newFeed, hmem, hcastId, fun w hw key hkey =>
    CreateFeed.castId?_of_mem_createFeed hw hkey, ?_, ?_, ?_⟩
  · exact fun c hc => Menu.looksUp_of_key (key_search hs hc)
  · exact Menu.looksUp_of_key (key_row hs)
  · exact fun c hc => Menu.looksUp_of_key (key_search_hash hs hc)

/-- The castId `#A b` becomes the key `ab`, and `#A b` and `#ab` are searched for. -/
theorem key_agrees_typed :
    ∃ s newFeed, CreateFeed.SettledOn asciiLowerCase (txt ['#', 'A', ' ', 'b']) s ∧
      .chatInfo (txt ['a', 'b']) newFeed ∈ CreateFeed.createFeed (txt ['i']) s ∧
      Menu.SettledOn asciiLowerCase (txt ['#', 'A', ' ', 'b']) ⟨txt ['#', 'a', 'b'], []⟩ ∧
      Menu.LooksUp (txt ['#', 'a', 'b']) (txt ['a', 'b']) ∧
      Menu.LooksUp (txt ['a', 'b']) (txt ['a', 'b']) := by
  have hs : ∃ s, CreateFeed.SettledOn asciiLowerCase (txt ['#', 'A', ' ', 'b']) s ∧
      dropHash s.castId = txt ['a', 'b'] :=
    ⟨_, ⟨CreateFeed.mount CreateFeed.host, [.timer], rfl, by decide,
      by simp [CreateFeed.Event.Writes], by decide⟩, by decide⟩
  obtain ⟨s, hs, hab⟩ := hs
  have hc : Menu.SettledOn asciiLowerCase (txt ['#', 'A', ' ', 'b']) ⟨txt ['#', 'a', 'b'], []⟩ :=
    ⟨Menu.mountSearch, [.timer], rfl, by decide, by simp, rfl⟩
  obtain ⟨castId, newFeed, hmem, -, -, hsearch, hrow, -⟩ :=
    key_agrees asciiLowerCase _ s hs (txt ['i'])
  obtain rfl : castId = txt ['a', 'b'] :=
    (CreateFeed.castId?_of_mem_createFeed hmem rfl).trans hab
  exact ⟨s, newFeed, hs, hmem, hc, hsearch _ hc, hrow⟩

end Wedcast
