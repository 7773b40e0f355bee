import Mathlib.Data.List.Nodup
import Mathlib.Logic.Function.Basic
import Wedcast.CreateFeedFields

/-!
How often one wizard creates a cast.

"Finish" and the end of an account link both run `createFeed`, as often as they come: the screen
stays mounted under `WeddingDetails`, and nothing remembers that the cast exists. `chatInfo` is set
again with a new id and a new time, and `myWedding` gets another child.

The database handles the messages of one client in their order, so a write is applied where it is
issued.
-/

namespace Wedcast.CreateFeed

open Runs

variable {L : LowerCase}

/-- The `chatInfo` of every cast and the user's `myWedding`, as the wizard finds them. -/
structure Stored where
  chatInfo : Text → Option ChatInfo
  myWedding : List ChatInfo
  once : (myWedding.map (·.castId)).Nodup

/-- One host with its wizard, and the database. -/
structure Host where
  wizard : State
  chatInfo : Text → Option ChatInfo
  /-- The children of `users/<uid>/myWedding`. -/
  myWedding : List ChatInfo
  /-- The server's time. -/
  now : ℕ
  /-- History: the id and the time first written to a `chatInfo`. -/
  first : Text → Option (Text × Time)

/-- The placeholder becomes the server's time. -/
def resolve (now : ℕ) (feed : ChatInfo) : ChatInfo :=
  match feed.startedAt with
  | .serverTimestamp => { feed with startedAt := .ms now }
  | .ms _ => feed

def stamp (feed : ChatInfo) : Text × Time := (feed.feedId, feed.startedAt)

/-- The database applies a write; the paths outside `chatInfo` and `myWedding` are left out. -/
def Host.apply (w : Host) : Write → Host
  | .chatInfo castId feed =>
    let feed := resolve w.now feed
    { w with
      chatInfo := Function.update w.chatInfo castId (some feed)
      first := Function.update w.first castId (w.first castId <|> some (stamp feed)) }
  | .myWedding _ feed => { w with myWedding := w.myWedding ++ [resolve w.now feed] }
  | _ => w

inductive HostEvent where
  /-- An event of the wizard, other than an answer of the database. -/
  | wizard (e : Event)
  /-- The database answers the `i`-th pending read. -/
  | serve (i : ℕ)
  /-- Time passes. -/
  | wait (ms : ℕ)

def Host.step (L : LowerCase) (w : Host) : HostEvent → Option Host
  | .wizard e =>
    if e.isAnswer then none
    else (CreateFeed.step L w.wizard e).map fun s' =>
      let w' := { w with wizard := s' }
      match e.newFeedId? with
      | some newFeedId => (createFeed newFeedId w.wizard).foldl Host.apply w'
      | none => w'
  | .serve i =>
    w.wizard.reads[i]?.bind fun r =>
      (CreateFeed.step L w.wizard (.answer i (w.chatInfo r.castId).isSome)).map fun s' =>
        { w with wizard := s' }
  | .wait ms => some { w with now := w.now + ms }

/-- A fresh wizard over a database with any casts in it. -/
def Host.init (u : User) (db : Stored) (now : ℕ) : Host where
  wizard := mount u
  chatInfo := db.chatInfo
  myWedding := db.myWedding
  now := now
  first castId := (db.chatInfo castId).map stamp

/-- `myWedding` has at most one child for the castId, and its `chatInfo` has the id and the time
first written to it. -/
def CreatedOnce (castId : Text) (w : Host) : Prop :=
  (w.myWedding.map (·.castId)).count castId ≤ 1 ∧
    w.first castId = (w.chatInfo castId).map stamp

/-- `createFeed` runs for the castId only while `myWedding` has no child for it, or gets none from a
user who is signed out, and no `chatInfo` but one with the very id and time. -/
def Unused (castId : Text) (w : Host) : HostEvent → Prop
  | .wizard e => ∀ newFeedId ∈ e.newFeedId?, dropHash w.wizard.castId = castId →
      (w.wizard.signedIn → castId ∉ w.myWedding.map (·.castId)) ∧
        ∀ feed ∈ w.chatInfo castId, stamp feed = (newFeedId, .ms w.now)
  | _ => True

instance (castId : Text) (w : Host) : Decidable (CreatedOnce castId w) :=
  inferInstanceAs (Decidable (_ ∧ _))

/-! ### What a step does to the cast -/

/-- `createFeed` sets the `chatInfo` of its castId, and adds a child while the user is signed in. -/
lemma foldl_createFeed (newFeedId : Text) (s : State) (w : Host) :
    ∃ feed : ChatInfo, feed.castId = dropHash s.castId ∧ stamp feed = (newFeedId, .ms w.now) ∧
      (createFeed newFeedId s).foldl Host.apply w =
        { w with
          chatInfo := Function.update w.chatInfo (dropHash s.castId) (some feed)
          first := Function.update w.first (dropHash s.castId)
            (w.first (dropHash s.castId) <|> some (stamp feed))
          myWedding := w.myWedding ++ if s.signedIn then [feed] else [] } := by
  refine ⟨⟨newFeedId, s.currentUser.uid, s.feedName, s.castType, dropHash s.castId, s.avatarUri,
    .ms w.now⟩, rfl, rfl, ?_⟩
  cases hin : s.signedIn <;> simp [createFeed, hin, Host.apply, resolve]

/-- A step runs `createFeed`, or leaves the casts alone. -/
lemma host_step_cases {w w' : Host} {e : HostEvent} (hs : w.step L e = some w') :
    (∃ event newFeedId s', e = .wizard event ∧ event.newFeedId? = some newFeedId ∧
      w' = (createFeed newFeedId w.wizard).foldl Host.apply { w with wizard := s' }) ∨
    ((∀ event, e = .wizard event → event.newFeedId? = none) ∧ w'.chatInfo = w.chatInfo ∧
      w'.myWedding = w.myWedding ∧ w'.first = w.first) := by
  cases e with
  | wizard event =>
    simp only [Host.step] at hs
    split_ifs at hs
    obtain ⟨s', -, hs⟩ := Option.map_eq_some_iff.mp hs
    cases hid : event.newFeedId? with
    | some newFeedId =>
      rw [hid] at hs
      exact .inl ⟨event, newFeedId, s', rfl, hid, hs.symm⟩
    | none =>
      rw [hid] at hs
      subst hs
      exact .inr ⟨fun _ h => by cases h; exact hid, rfl, rfl, rfl⟩
  | serve i =>
    obtain ⟨r, -, hs⟩ := Option.bind_eq_some_iff.mp hs
    obtain ⟨s', -, rfl⟩ := Option.map_eq_some_iff.mp hs
    exact .inr ⟨fun _ h => (by cases h), rfl, rfl, rfl⟩
  | wait ms =>
    cases hs
    exact .inr ⟨fun _ h => (by cases h), rfl, rfl, rfl⟩

/-- Creating another cast. -/
lemma createdOnce_of_ne {castId : Text} {w : Host} {newFeedId : Text} {s : State}
    (hne : dropHash s.castId ≠ castId) (h : CreatedOnce castId w) :
    CreatedOnce castId ((createFeed newFeedId s).foldl Host.apply w) := by
  obtain ⟨feed, hcast, -, heq⟩ := foldl_createFeed newFeedId s w
  have hcount : ((w.myWedding ++ if s.signedIn then [feed] else []).map (·.castId)).count castId =
      (w.myWedding.map (·.castId)).count castId := by
    have hother : castId ∉ [dropHash s.castId] := by simpa using hne.symm
    split_ifs
    · rw [List.map_append, List.count_append, List.map_singleton, hcast,
        List.count_eq_zero.mpr hother]
      omega
    · rw [List.append_nil]
  rw [heq]
  constructor
  · rw [hcount]
    exact h.1
  · simp only [Function.update_of_ne hne.symm]
    exact h.2

/-- Creating the cast. -/
lemma createdOnce_create_iff {w : Host} {newFeedId : Text} {s : State}
    (h : CreatedOnce (dropHash s.castId) w) :
    CreatedOnce (dropHash s.castId) ((createFeed newFeedId s).foldl Host.apply w) ↔
      (s.signedIn → dropHash s.castId ∉ w.myWedding.map (·.castId)) ∧
        ∀ feed ∈ w.chatInfo (dropHash s.castId), stamp feed = (newFeedId, .ms w.now) := by
  obtain ⟨feed, hcast, hstamp, heq⟩ := foldl_createFeed newFeedId s w
  rw [heq]
  refine and_congr ?_ ?_
  · cases hin : s.signedIn with
    | true =>
      have hcount : ((w.myWedding ++ [feed]).map (·.castId)).count (dropHash s.castId) =
          (w.myWedding.map (·.castId)).count (dropHash s.castId) + 1 := by
        rw [List.map_append, List.count_append, List.map_singleton, hcast,
          List.count_singleton_self]
      rw [if_pos rfl, hcount, forall_prop_of_true rfl, ← List.count_eq_zero]
      omega
    | false => simpa using h.1
  · -- what was written first is what the new `chatInfo` has, or there was nothing
    have hfirst := h.2
    simp only [Function.update_self, hfirst, Option.map_some, hstamp]
    cases w.chatInfo (dropHash s.castId) with
    | none => simp
    | some old => simp

lemma createdOnce_step {castId : Text} {w w' : Host} {e : HostEvent} (h : CreatedOnce castId w)
    (hs : w.step L e = some w') : CreatedOnce castId w' ↔ Unused castId w e := by
  rcases host_step_cases hs with ⟨event, newFeedId, s', rfl, hid, rfl⟩ | ⟨hid, hdb, hlist, hfirst⟩
  · by_cases hc : dropHash w.wizard.castId = castId
    · subst hc
      have hw : CreatedOnce (dropHash w.wizard.castId) { w with wizard := s' } := h
      rw [createdOnce_create_iff hw]
      simp [Unused, hid]
    · have hw : CreatedOnce castId { w with wizard := s' } := h
      refine iff_of_true (createdOnce_of_ne hc hw) fun _ _ he => ?_
      exact absurd he hc
  · refine iff_of_true ?_ ?_
    · rw [CreatedOnce, hlist, hdb, hfirst]
      exact h
    · cases e with
      | wizard event => simp [Unused, hid event rfl]
      | serve _ | wait _ => trivial

def creation (L : LowerCase) (castId : Text) : Invariant (Host.step L) (Unused castId) where
  holds := CreatedOnce castId
  preserved := fun h hg hs => (createdOnce_step h hs).mpr hg

lemma createdOnce_init (castId : Text) (u : User) (db : Stored) (now : ℕ) :
    CreatedOnce castId (.init u db now) :=
  ⟨List.nodup_iff_count_le_one.mp db.once castId, rfl⟩

/-- **Creating a cast once, exactly.** A castId keeps its one child in `myWedding` and the id and
the time of its `chatInfo` on exactly the runs in which `createFeed` finds it unused. -/
theorem createdOnce_iff_unused (L : LowerCase) (u : User) (db : Stored) (now : ℕ) (castId : Text)
    (es : List HostEvent) :
    Throughout (Host.step L) (CreatedOnce castId) (.init u db now) es ↔
      Along (Host.step L) (Unused castId) (.init u db now) es :=
  (creation L castId).throughout_iff (fun _ h => h)
    (fun _ _ _ h hs hP => (createdOnce_step h hs).mp hP) (createdOnce_init castId u db now)

/-- A cast is created, and "Finish" is pressed again a second later. -/
def finishedTwice : List HostEvent :=
  [.wizard (.changeText .feedName (txt ['q'])), .wizard .next,
    .wizard (.changeText .castId (txt ['a'])), .wizard .next, .serve 0, .wizard (.reply 0),
    .wizard (.changeText .password (txt ['p'])), .wizard .next,
    .wizard (.finish (txt ['i'])), .wait 1000, .wizard (.finish (txt ['j']))]

/-- **A cast is created twice.** -/
theorem not_always_createdOnce :
    ¬∀ (L : LowerCase) (u : User) (db : Stored) (now : ℕ) (castId : Text) (es : List HostEvent),
      Throughout (Host.step L) (CreatedOnce castId) (.init u db now) es := by
  intro h
  have hrun := h asciiLowerCase host ⟨fun _ => none, [], List.nodup_nil⟩ 0 (txt ['a']) finishedTwice
  revert hrun
  decide

end Wedcast.CreateFeed
