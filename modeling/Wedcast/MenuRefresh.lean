import Mathlib.Data.List.ReduceOption
import Wedcast.MenuLists

/-!
One refresh of a list of `Menu`, with no other listener in between.

Both callbacks enter a snapshot into the array of the refresh under its castId. They differ on a
null: `updateMyWeddingFeeds` ignores it, `updateFeeds` pushes it or reads its `castId`.
-/

namespace Wedcast.Menu

open Runs Keyed

/-- The loop over the state array reads `castId` of a null. -/
def Panel.throws (p : Panel) (cast : Option ChatInfo) : Bool :=
  match p.shown with
  | none => false
  | some i => (search cast (p.feeds i)).isNone

def throws : ListKind → Option ChatInfo → Panel → Bool
  | .myWedding, none, _ => false
  | _, cast, p => p.throws cast

/-- A callback of the refresh `own`, `none` when it throws. It does not read which listener it is
called for. -/
def callback (kind : ListKind) (own : ℕ × ℕ) (p : Panel) (cast : Option ChatInfo) : Option Panel :=
  if throws kind cast p then none else some (update kind own cast p)

/-- What the lists are to show after the values: the casts other than null, entered one after the
other. -/
def reference (values : List (Option ChatInfo)) : List ChatInfo :=
  collect (·.castId) values.reduceOption

/-- The reference fold, its casts in the order their first value came, each with its last one. -/
structure Lists (values display : List (Option ChatInfo)) : Prop where
  fold : display = (reference values).map some
  order : (reference values).map (·.castId) =
    (values.reduceOption.map (·.castId)).eraseDups
  last : ∀ feed ∈ reference values,
    (values.reduceOption.filter fun cast => cast.castId = feed.castId).getLast? = some feed

/-- No callback throws, and the list shows the values. -/
def Refreshes (kind : ListKind) (own : ℕ × ℕ) (p : Panel) (values : List (Option ChatInfo)) :
    Prop :=
  ∃ p' ∈ run (callback kind own) p values, Lists values p'.display

lemma lists_iff {values display : List (Option ChatInfo)} :
    Lists values display ↔ display = (reference values).map some :=
  ⟨Lists.fold, fun h => ⟨h, keys_collect _, fun _ => getLast?_of_mem_collect⟩⟩

/-! ### The array of the refresh -/

/-- The refresh `own` has the `feeds` in its array, which is on the screen unless it is empty. -/
structure Holds (own : ℕ × ℕ) (feeds : List ChatInfo) (p : Panel) : Prop where
  started : ((p.sessions[own.1]?).bind (·.refreshes[own.2]?)).isSome
  array : p.feeds own = feeds.map some
  shown : p.shown = if feeds = [] then none else some own

lemma feeds_setFeeds {p : Panel} {own : ℕ × ℕ}
    (h : ((p.sessions[own.1]?).bind (·.refreshes[own.2]?)).isSome)
    (feeds : List (Option ChatInfo)) : (p.setFeeds own feeds).feeds own = feeds := by
  obtain ⟨r, hr⟩ := Option.isSome_iff_exists.mp h
  obtain ⟨s, hs, hr⟩ := Option.bind_eq_some_iff.mp hr
  simp [Panel.feeds, Panel.setFeeds, Panel.modifyRefresh, hs, hr]

lemma started_setFeeds {p : Panel} {own : ℕ × ℕ}
    (h : ((p.sessions[own.1]?).bind (·.refreshes[own.2]?)).isSome)
    (feeds : List (Option ChatInfo)) :
    (((p.setFeeds own feeds).sessions[own.1]?).bind (·.refreshes[own.2]?)).isSome := by
  obtain ⟨r, hr⟩ := Option.isSome_iff_exists.mp h
  obtain ⟨s, hs, hr⟩ := Option.bind_eq_some_iff.mp hr
  simp [Panel.setFeeds, Panel.modifyRefresh, hs, hr]

/-- The array is replaced and published. -/
lemma holds_publish {p : Panel} {own : ℕ × ℕ}
    (h : ((p.sessions[own.1]?).bind (·.refreshes[own.2]?)).isSome) {feeds : List ChatInfo}
    (hne : feeds ≠ []) :
    Holds own feeds { p.setFeeds own (feeds.map some) with shown := some own } where
  started := started_setFeeds h _
  array := feeds_setFeeds h _
  shown := (if_neg hne).symm

lemma Holds.display {own : ℕ × ℕ} {feeds : List ChatInfo} {p : Panel} (h : Holds own feeds p) :
    p.display = feeds.map some := by
  rw [Panel.display, h.shown]
  split_ifs with hnil
  · rw [hnil]
    rfl
  · exact h.array

lemma Holds.eq_own {own j : ℕ × ℕ} {feeds : List ChatInfo} {p : Panel} (h : Holds own feeds p)
    (hj : p.shown = some j) : j = own := by
  rw [h.shown] at hj
  split_ifs at hj
  exact (Option.some.inj hj).symm

/-- A snapshot other than null is entered under its castId. -/
lemma Holds.place {own : ℕ × ℕ} {feeds : List ChatInfo} {p : Panel} (h : Holds own feeds p)
    (new : ChatInfo) : Holds own (upsert (·.castId) new feeds) (p.place own (some new)) := by
  have hsolid : ∀ j ∈ p.shown, Solid (p.feeds j) := by
    intro j hj
    rw [h.eq_own hj]
    exact ⟨feeds, h.array⟩
  rcases place_cases own new hsolid with ⟨j, feeds', hj, hfeeds', -, heq⟩ | ⟨hno, heq⟩
  · obtain rfl := h.eq_own hj
    obtain rfl : feeds = feeds' := List.map_injective_iff.mpr (Option.some_injective _)
      (h.array.symm.trans hfeeds')
    rw [heq]
    exact holds_publish h.started (upsert_ne_nil new feeds)
  · have hnew : new.castId ∉ feeds.map (·.castId) := by
      cases feeds with
      | nil => simp
      | cons feed rest =>
        have hshown : p.shown = some own := by rw [h.shown, if_neg (List.cons_ne_nil _ _)]
        have hentry := hno own hshown
        rwa [h.array, hasEntry_map_some] at hentry
    have happend : upsert (·.castId) new feeds = feeds ++ [new] := upsert_of_notMem hnew
    rw [heq, h.array, happend]
    have hne : feeds ++ [new] ≠ [] := List.append_ne_nil_of_right_ne_nil _ (List.cons_ne_nil _ _)
    simpa using holds_publish h.started hne

lemma Holds.not_throws {own : ℕ × ℕ} {feeds : List ChatInfo} {p : Panel} (h : Holds own feeds p)
    (kind : ListKind) (new : ChatInfo) : throws kind (some new) p = false := by
  have hthrows : p.throws (some new) = false := by
    unfold Panel.throws
    split
    · rfl
    · rename_i j hj
      rw [h.eq_own hj, h.array, search_some]
      rfl
  cases kind <;> exact hthrows

/-! ### A null -/

/-- After `updateFeeds` got a null, it has thrown or the next callback throws. -/
lemma throws_of_null {p : Panel} {own : ℕ × ℕ} {feeds : List (Option ChatInfo)}
    (hshown : p.shown = some own) (hfeeds : p.feeds own = none :: feeds)
    (cast : Option ChatInfo) : throws .feedList cast p = true := by
  have hsearch : search cast (none :: feeds) = none := rfl
  simp [throws, Panel.throws, hshown, hfeeds, hsearch]

lemma Holds.throws_null {own : ℕ × ℕ} {feeds : List ChatInfo} {p : Panel} (h : Holds own feeds p)
    (hne : feeds ≠ []) : throws .feedList none p = true := by
  have hshown : p.shown = some own := by rw [h.shown, if_neg hne]
  have hsearch : search none (feeds.map some) = none := search_none (by simpa using hne)
  simp [throws, Panel.throws, hshown, h.array, hsearch]

/-- The first value of the refresh is a null. -/
lemma Holds.push_null {own : ℕ × ℕ} {p : Panel} (h : Holds own [] p) :
    update .feedList own none p =
      { p.setFeeds own [none] with shown := some own } := by
  have hshown : p.shown = none := h.shown
  simp [update, updateFeeds, Panel.place, hshown, h.array]

/-- A null that `updateFeeds` gets is never ignored. -/
lemma Holds.not_refreshes_null {own : ℕ × ℕ} {feeds feeds' : List ChatInfo} {p p' : Panel}
    (h : Holds own feeds p) {values : List (Option ChatInfo)}
    (hrun : run (callback .feedList own) p (none :: values) = some p') :
    p'.display ≠ feeds'.map some := by
  obtain ⟨q, hq, hrun⟩ := run_cons_some hrun
  by_cases hne : feeds = []
  · subst hne
    have hnull : throws .feedList none p = false := by simp [throws, Panel.throws, h.shown]
    have hq : update .feedList own none p = q := by simpa [callback, hnull] using hq
    rw [h.push_null] at hq
    subst hq
    cases values with
    | nil =>
      cases hrun
      have hdisplay : Panel.display { p.setFeeds own [none] with shown := some own } = [none] :=
        feeds_setFeeds h.started [none]
      rw [hdisplay]
      cases feeds' <;> simp
    | cons value values =>
      obtain ⟨_, hthrow, -⟩ := run_cons_some hrun
      have hfeeds : Panel.feeds { p.setFeeds own [none] with shown := some own } own = [none] :=
        feeds_setFeeds h.started [none]
      rw [callback, if_pos (throws_of_null rfl hfeeds value)] at hthrow
      cases hthrow
  · rw [callback, if_pos (h.throws_null hne)] at hq
    cases hq

/-! ### All values -/

/-- The values that follow are entered into the array, one after the other, as long as
`updateFeeds` gets no null. -/
lemma Holds.refreshes_iff {own : ℕ × ℕ} {feeds : List ChatInfo} {p : Panel} (h : Holds own feeds p)
    (kind : ListKind) (values : List (Option ChatInfo)) :
    (∃ p' ∈ run (callback kind own) p values, p'.display =
      (values.reduceOption.foldl (fun feeds cast => upsert (·.castId) cast feeds) feeds).map some) ↔
      (kind = .feedList → none ∉ values) := by
  induction values generalizing feeds p with
  | nil => simpa using h.display
  | cons value values ih =>
    cases value with
    | some new =>
      have hstep : callback kind own p (some new) = some (p.place own (some new)) := by
        rw [callback, h.not_throws, update_some]
        rfl
      rw [run_cons, hstep, Option.bind_some, List.reduceOption_cons_of_some, List.foldl_cons,
        ih (h.place new)]
      simp
    | none =>
      cases kind with
      | myWedding =>
        have hstep : callback .myWedding own p none = some p := rfl
        rw [run_cons, hstep, Option.bind_some, List.reduceOption_cons_of_none, ih h]
        simp
      | feedList =>
        refine iff_of_false ?_ (by simp)
        rintro ⟨p', hrun, hdisplay⟩
        exact h.not_refreshes_null hrun hdisplay

lemma holds_refresh (db : Casts) (data : List Text) (p : Panel) (a : Fin p.sessions.length) :
    Holds (a, 0) [] (p.refresh db a data) where
  started := by simp [Panel.refresh]
  array := by simp [Panel.refresh, Panel.feeds]
  shown := rfl

/-- **The reference fold, exactly.** After a refresh, `updateMyWeddingFeeds` shows the casts of all
values its listeners get, each once, and `updateFeeds` does so if and only if no value is null. -/
theorem refreshes_iff_noNull (kind : ListKind) (db : Casts) (data : List Text) (p : Panel)
    (a : Fin p.sessions.length) (values : List (Option ChatInfo)) :
    Refreshes kind (a, 0) (p.refresh db a data) values ↔
      (kind = .feedList → none ∉ values) := by
  rw [← (holds_refresh db data p a).refreshes_iff kind values]
  simp only [Refreshes, lists_iff]
  rfl

/-- **A null is pushed.** The guest's list holds the cast `b`, which does not exist. -/
theorem not_always_refreshes :
    ¬∀ (kind : ListKind) (db : Casts) (data : List Text) (p : Panel) (a : Fin p.sessions.length)
      (values : List (Option ChatInfo)), Refreshes kind (a, 0) (p.refresh db a data) values := by
  intro h
  obtain ⟨p', hrun, hlists⟩ := h .feedList guestCasts [txt ['b']]
    ⟨[], [⟨txt ['u'], [], []⟩], none⟩ ⟨0, by decide⟩ [none]
  cases hrun
  exact absurd hlists.fold (by decide)

end Wedcast.Menu
