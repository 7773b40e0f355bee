import Mathlib.Data.List.Nodup
import Wedcast.Feed

/-!
The selection of photos on the `Feed` screen.

The selected objects are rows of the current snapshot until the next one comes: it replaces every
row by a new object, and the selection is not touched. So the checkmarks, the selected keys and the
count agree exactly as long as no snapshot comes over a selection, and as long as nothing is
selected before the first one.
-/

namespace Wedcast.Feed

open Runs

/-- The selected keys, the rows and the "Download n" count agree. -/
def Consistent (s : State) : Prop :=
  ∃ list ∈ s.downloadList, (list.map (·.key)).Nodup ∧
    (∀ d ∈ list, d.key ∈ s.rows.map (·.key)) ∧
    (∀ row ∈ s.rows, s.isDownloadable row ↔ row.key ∈ list.map (·.key)) ∧
    list.length = (s.rows.filter s.isDownloadable).length

/-- No snapshot comes over a selection, and nothing is selected before the first one. -/
def Undisturbed (s : State) : Event → Prop
  | .snapshot _ => s.downloadList = some []
  | .selectAll => s.selectAll → s.images ≠ none
  | _ => True

instance (s : State) : Decidable (Consistent s) :=
  inferInstanceAs (Decidable (∃ list ∈ s.downloadList, _))

instance (s : State) : (e : Event) → Decidable (Undisturbed s e)
  | .snapshot _ => inferInstanceAs (Decidable (_ = _))
  | .selectAll => inferInstanceAs (Decidable (_ → _))
  | .addDownload _ | .toggleSelectMode | .download _ | .downloadSelected | .checked _ _
  | .saved _ _ | .timer _ | .requestDownloadPermission | .notNow | .responded _ => isTrue trivial

/-- The selected objects are different rows of the current snapshot. -/
structure Picked (s : State) : Prop where
  keys : (s.rows.map (·.key)).Nodup
  refs : (s.rows.map (·.image.ref)).Nodup
  old : ∀ row ∈ s.rows, row.image.ref < s.nextRef
  picked : ∃ list, s.downloadList = some list ∧ list.Nodup ∧ ∀ d ∈ list, d ∈ s.rows

lemma picked_mount : Picked mount where
  keys := .nil
  refs := .nil
  old := by simp [mount, State.rows]
  picked := ⟨[], rfl, .nil, by simp⟩

/-! ### What the rows show -/

lemma eq_of_ref {rows : List Item} (h : (rows.map (·.image.ref)).Nodup) {a b : Item}
    (ha : a ∈ rows) (hb : b ∈ rows) (hab : a.image.ref = b.image.ref) : a = b :=
  List.inj_on_of_nodup_map h ha hb hab

lemma Picked.isDownloadable_iff {s : State} (h : Picked s) {list : List Item}
    (hlist : s.downloadList = some list) (hsub : ∀ d ∈ list, d ∈ s.rows) {row : Item}
    (hrow : row ∈ s.rows) : s.isDownloadable row ↔ row ∈ list := by
  simp only [State.isDownloadable, State.selected, hlist, Option.getD_some, List.any_eq_true,
    decide_eq_true_eq]
  constructor
  · rintro ⟨d, hd, href⟩
    exact eq_of_ref h.refs (hsub d hd) hrow href ▸ hd
  · exact fun hmem => ⟨row, hmem, rfl⟩

lemma Picked.consistent {s : State} (h : Picked s) : Consistent s := by
  obtain ⟨list, hlist, hnodup, hsub⟩ := h.picked
  have hkey : ∀ a ∈ s.rows, ∀ b ∈ s.rows, a.key = b.key → a = b := fun a ha b hb =>
    List.inj_on_of_nodup_map h.keys ha hb
  refine ⟨list, hlist, ?_, fun d hd => List.mem_map_of_mem (hsub d hd), ?_, ?_⟩
  · exact List.Nodup.map_on (fun a ha b hb => hkey a (hsub a ha) b (hsub b hb)) hnodup
  · intro row hrow
    rw [h.isDownloadable_iff hlist hsub hrow]
    constructor
    · exact List.mem_map_of_mem
    · intro hmem
      obtain ⟨d, hd, hdk⟩ := List.mem_map.mp hmem
      exact hkey d (hsub d hd) row hrow hdk ▸ hd
  · have hperm : (s.rows.filter s.isDownloadable).Perm list := by
      refine (List.perm_ext_iff_of_nodup ((List.Nodup.of_map _ h.keys).filter _) hnodup).mpr
        fun row => ?_
      rw [List.mem_filter]
      constructor
      · rintro ⟨hrow, hdl⟩
        exact (h.isDownloadable_iff hlist hsub hrow).mp hdl
      · intro hmem
        exact ⟨hsub row hmem, (h.isDownloadable_iff hlist hsub (hsub row hmem)).mpr hmem⟩
    exact hperm.length_eq.symm

/-! ### The steps -/

variable {platform : Platform}

/-- A step that keeps the rows, and selects rows of theirs. -/
lemma Picked.of_rows {s s' : State} (h : Picked s) (himages : s'.images = s.images)
    (href : s'.nextRef = s.nextRef)
    (hpicked : ∃ list, s'.downloadList = some list ∧ list.Nodup ∧ ∀ d ∈ list, d ∈ s.rows) :
    Picked s' := by
  have hrows : s'.rows = s.rows := by simp [State.rows, himages]
  exact ⟨hrows ▸ h.keys, hrows ▸ h.refs, hrows ▸ href ▸ h.old, hrows ▸ hpicked⟩

lemma picked_congr {s s' : State} (h : Picked s) (himages : s'.images = s.images)
    (href : s'.nextRef = s.nextRef) (hlist : s'.downloadList = s.downloadList) : Picked s' :=
  h.of_rows himages href (hlist ▸ h.picked)

/-- The delayed resets and `toggleSelectMode` select nothing. -/
lemma Picked.clear {s s' : State} (h : Picked s) (himages : s'.images = s.images)
    (href : s'.nextRef = s.nextRef) (hlist : s'.downloadList = some []) : Picked s' :=
  h.of_rows himages href ⟨[], hlist, .nil, by simp⟩

lemma Picked.snapshot {s : State} (h : s.downloadList = some []) (data : Snapshot) :
    Picked { s with
      images := some (items s.nextRef data.children)
      nextRef := s.nextRef + data.children.length } where
  keys := by simpa [State.rows] using data.keys
  refs := by simpa [State.rows] using items_refs s.nextRef data.children
  old _ hrow := (items_ref_bounds hrow).2
  picked := ⟨[], h, .nil, by simp⟩

lemma Picked.addDownload {s : State} (h : Picked s) {e : Item} (he : e ∈ s.rows) :
    Picked (addDownload e s) := by
  obtain ⟨list, hlist, hnodup, hsub⟩ := h.picked
  unfold Feed.addDownload
  split_ifs with hsel
  · refine h.of_rows rfl rfl ⟨_, by rw [removeDownload, hlist]; rfl, hnodup.filter _, ?_⟩
    exact fun d hd => hsub d (List.mem_of_mem_filter hd)
  · refine h.of_rows rfl rfl ⟨list ++ [e], by simp [hlist], ?_, ?_⟩
    · have hnot : e ∉ list := fun hmem => hsel ((h.isDownloadable_iff hlist hsub he).mpr hmem)
      exact hnodup.append (by simp) (by simpa using hnot)
    · simpa [or_imp, forall_and] using ⟨hsub, he⟩

lemma Picked.selectAll {s : State} (h : Picked s) (hg : s.selectAll → s.images ≠ none) :
    Picked (selectAll s) := by
  unfold Feed.selectAll
  by_cases hall : s.selectAll = true
  · obtain ⟨rows, hrows⟩ := Option.ne_none_iff_exists'.mp (hg hall)
    have hkeys : (rows.map (·.key)).Nodup := by simpa [State.rows, hrows] using h.keys
    refine h.of_rows rfl rfl ⟨rows, by simp [hall, hrows], hkeys.of_map _, ?_⟩
    simp [State.rows, hrows]
  · exact h.clear rfl rfl (by simp [hall])

lemma addIsDownloading_keeps (e : Image) (s : State) :
    (addIsDownloading e s).images = s.images ∧ (addIsDownloading e s).nextRef = s.nextRef ∧
      (addIsDownloading e s).downloadList = s.downloadList := by
  unfold addIsDownloading
  split_ifs <;> simp

lemma onPermission_keeps (platform : Platform) (d : Download) (response : Permission)
    (s : State) :
    (onPermission platform d response s).images = s.images ∧
      (onPermission platform d response s).nextRef = s.nextRef ∧
      (onPermission platform d response s).downloadList = s.downloadList := by
  cases response with
  | authorized =>
    cases d with
    | single image => exact addIsDownloading_keeps image { s with downloadPermission := _ }
    | selected =>
      simp only [onPermission]
      split_ifs <;> exact ⟨rfl, rfl, rfl⟩
  | undetermined | denied | restricted => exact ⟨rfl, rfl, rfl⟩

/-- One undisturbed step. -/
lemma picked_step {s s' : State} {e : Event} (h : Picked s) (hg : Undisturbed s e)
    (hs : step platform s e = some s') : Picked s' := by
  replace hs := handle_of_step hs
  cases e with
  | snapshot data =>
    cases hs
    exact .snapshot hg data
  | addDownload i =>
    simp only [handle] at hs
    split_ifs at hs
    obtain ⟨item, hitem, rfl⟩ := Option.map_eq_some_iff.mp hs
    exact h.addDownload (List.mem_of_getElem? hitem)
  | selectAll =>
    simp only [handle] at hs
    split_ifs at hs
    cases hs
    exact h.selectAll hg
  | toggleSelectMode =>
    cases hs
    exact h.clear rfl rfl rfl
  | download i =>
    obtain ⟨item, -, rfl⟩ := Option.map_eq_some_iff.mp hs
    exact picked_congr h rfl rfl rfl
  | downloadSelected =>
    simp only [handle] at hs
    split_ifs at hs
    cases hs
    exact picked_congr h rfl rfl rfl
  | checked i response =>
    obtain ⟨d, -, rfl⟩ := Option.map_eq_some_iff.mp hs
    obtain ⟨himages, href, hlist⟩ :=
      onPermission_keeps platform d response { s with checks := s.checks.eraseIdx i }
    exact picked_congr h himages href hlist
  | saved i ok =>
    obtain ⟨save, -, rfl⟩ := Option.map_eq_some_iff.mp hs
    exact picked_congr h rfl rfl rfl
  | timer i =>
    obtain ⟨d, -, rfl⟩ := Option.map_eq_some_iff.mp hs
    cases d with
    | single image => exact picked_congr h rfl rfl rfl
    | selected => exact h.clear rfl rfl rfl
  | requestDownloadPermission =>
    simp only [handle] at hs
    split_ifs at hs
    all_goals
      cases hs
      exact picked_congr h rfl rfl rfl
  | notNow | responded response =>
    simp only [handle] at hs
    split_ifs at hs
    cases hs
    exact picked_congr h rfl rfl rfl

/-- A disturbing step leaves the screen inconsistent. -/
lemma undisturbed_of_consistent {s s' : State} {e : Event} (h : Picked s)
    (hs : step platform s e = some s') (hc : Consistent s') : Undisturbed s e := by
  replace hs := handle_of_step hs
  cases e with
  | snapshot data =>
    cases hs
    obtain ⟨list, hlist, -, hkeys, hchecked, -⟩ := hc
    obtain ⟨list', hlist', -, hsub⟩ := h.picked
    obtain rfl : list' = list := Option.some.inj (hlist'.symm.trans hlist)
    cases list' with
    | nil => exact hlist'
    | cons d rest =>
      -- the row with the key of `d` is drawn checked, so it is an object older than itself
      obtain ⟨row, hrow, hkey⟩ := List.mem_map.mp (hkeys d (by simp))
      have hdl := (hchecked row hrow).mpr (hkey ▸ by simp)
      simp only [State.isDownloadable, State.selected, hlist', Option.getD_some,
        List.any_eq_true, decide_eq_true_eq] at hdl
      obtain ⟨d', hd', href⟩ := hdl
      have hlt := h.old d' (hsub d' hd')
      have hge := (items_ref_bounds hrow).1
      omega
  | selectAll =>
    simp only [handle] at hs
    split_ifs at hs
    cases hs
    intro hall himages
    obtain ⟨list, hlist, -⟩ := hc
    simp [Feed.selectAll, hall, himages] at hlist
  | _ => trivial

def picking (platform : Platform) : Invariant (step platform) Undisturbed where
  holds := Picked
  preserved := picked_step

/-- **The selection is consistent.** It is so in every state of a run exactly when no snapshot
comes over a selection and "Select all" is not pressed before the first snapshot. -/
theorem consistent_iff_undisturbed (platform : Platform) (es : List Event) :
    Throughout (step platform) Consistent mount es ↔ Along (step platform) Undisturbed mount es :=
  (picking platform).throughout_iff (fun _ hs => hs.consistent)
    (fun _ _ _ => undisturbed_of_consistent) picked_mount

/-- A photo is selected when somebody uploads another one. -/
def uploadRun : List Event :=
  [.snapshot ⟨[(txt ['a'], [])], by decide⟩, .toggleSelectMode, .addDownload 0,
    .snapshot ⟨[(txt ['a'], []), (txt ['b'], [])], by decide⟩]

/-- **A selected photo loses its checkmark.** -/
theorem not_always_consistent :
    ¬∀ (platform : Platform) (es : List Event), Throughout (step platform) Consistent mount es := by
  intro h
  have hrun := h .ios uploadRun
  revert hrun
  decide

end Wedcast.Feed
