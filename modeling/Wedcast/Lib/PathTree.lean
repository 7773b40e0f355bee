import Mathlib.Data.Finset.Card
import Mathlib.Data.Finset.Image
import Mathlib.Data.Finset.Option
import Mathlib.Data.Finset.Union
import Mathlib.Data.List.Infix
import Mathlib.Tactic.Lemma
import Mathlib.Tactic.SplitIfs

/-!
A database that is one tree of values, read and written by path.

A tree is known by its leaves: each has a value and the path that leads to it, and no leaf lies
below another one. Setting a path replaces all that was there, and a leaf above it gives way to the
children. A node exists as long as there is a leaf at or below it, so setting the empty tree
removes a node and every node above it that is left without leaves.
-/

variable {κ ν : Type*}

structure PathTree (κ ν : Type*) where
  /-- The value of the leaf at a path. -/
  leaf : List κ → Option ν
  /-- The paths of the leaves. -/
  paths : Finset (List κ)
  mem_paths : ∀ p, p ∈ paths ↔ leaf p ≠ none
  /-- No leaf lies below another one. -/
  ends : ∀ p q, leaf p ≠ none → leaf (p ++ q) ≠ none → q = []

namespace PathTree

theorem ext {t t' : PathTree κ ν} (h : ∀ p, t.leaf p = t'.leaf p) : t = t' := by
  have hleaf : t.leaf = t'.leaf := funext h
  have hpaths : t.paths = t'.paths := by
    ext p
    rw [t.mem_paths, t'.mem_paths, hleaf]
  cases t
  cases t'
  simp only at hleaf hpaths
  subst hleaf hpaths
  rfl

/-- Two trees are compared leaf by leaf. -/
instance [DecidableEq κ] [DecidableEq ν] : DecidableEq (PathTree κ ν) := fun t t' =>
  decidable_of_iff (t.paths = t'.paths ∧ ∀ p ∈ t.paths, t.leaf p = t'.leaf p) <| by
    constructor
    · rintro ⟨hpaths, hleaf⟩
      refine ext fun p => ?_
      by_cases hp : p ∈ t.paths
      · exact hleaf p hp
      · have hp' : p ∉ t'.paths := hpaths ▸ hp
        rw [t.mem_paths, not_not] at hp
        rw [t'.mem_paths, not_not] at hp'
        rw [hp, hp']
    · rintro rfl
      exact ⟨rfl, fun _ _ => rfl⟩

/-- Two paths with one on the way to the other. -/
def Meets (p q : List κ) : Prop := p <+: q ∨ q <+: p

instance [DecidableEq κ] (p q : List κ) : Decidable (Meets p q) :=
  inferInstanceAs (Decidable (_ ∨ _))

lemma Meets.symm {p q : List κ} (h : Meets p q) : Meets q p := Or.symm h

lemma Meets.of_append_left {p q r : List κ} (h : Meets (p ++ r) q) : Meets p q := by
  rcases h with h | h
  · exact .inl ((List.prefix_append p r).trans h)
  · exact List.prefix_or_prefix_of_prefix (List.prefix_append p r) h

@[simp] lemma meets_append_iff {p q r : List κ} : Meets (p ++ q) (p ++ r) ↔ Meets q r := by
  simp [Meets]

/-! ### The empty tree, a leaf, and what is below a path -/

/-- No leaf at all. -/
def null : PathTree κ ν where
  leaf _ := none
  paths := ∅
  mem_paths := by simp
  ends := by simp

def IsNull (t : PathTree κ ν) : Prop := t.paths = ∅

instance (t : PathTree κ ν) : Decidable t.IsNull :=
  decidable_of_iff (t.paths.card = 0) Finset.card_eq_zero

lemma isNull_iff {t : PathTree κ ν} : t.IsNull ↔ ∀ p, t.leaf p = none := by
  simp only [IsNull, Finset.eq_empty_iff_forall_notMem, t.mem_paths, not_not]

@[simp] lemma null_leaf (p : List κ) : (null : PathTree κ ν).leaf p = none := rfl

lemma isNull_null : (null : PathTree κ ν).IsNull := isNull_iff.mpr fun _ => rfl

lemma eq_null {t : PathTree κ ν} (h : t.IsNull) : t = null := ext (isNull_iff.mp h)

def val (x : ν) : PathTree κ ν where
  leaf
    | [] => some x
    | _ :: _ => none
  paths := {[]}
  mem_paths p := by cases p <;> simp
  ends p q hp hq := by
    cases p with
    | nil =>
      cases q with
      | nil => rfl
      | cons k q => simp at hq
    | cons k p => simp at hp

@[simp] lemma val_leaf_nil (x : ν) : (val x : PathTree κ ν).leaf [] = some x := rfl

@[simp] lemma val_leaf_cons (x : ν) (k : κ) (p : List κ) :
    (val x : PathTree κ ν).leaf (k :: p) = none := rfl

lemma not_isNull_val (x : ν) : ¬(val x : PathTree κ ν).IsNull := fun h => by
  simpa using isNull_iff.mp h []

variable [DecidableEq κ]

/-- What is below a path. -/
def child (t : PathTree κ ν) (p : List κ) : PathTree κ ν where
  leaf q := t.leaf (p ++ q)
  paths := (t.paths.filter (p <+: ·)).image (·.drop p.length)
  mem_paths q := by
    constructor
    · intro hq
      obtain ⟨r, hr, rfl⟩ := Finset.mem_image.mp hq
      obtain ⟨hr, hpr⟩ := Finset.mem_filter.mp hr
      rw [List.prefix_append_drop hpr] at hr
      exact (t.mem_paths _).mp hr
    · intro hq
      refine Finset.mem_image.mpr ⟨p ++ q, ?_, List.drop_left⟩
      exact Finset.mem_filter.mpr ⟨(t.mem_paths _).mpr hq, List.prefix_append p q⟩
  ends q r hq hr := by
    rw [← List.append_assoc] at hr
    exact t.ends _ _ hq hr

@[simp] lemma child_leaf (t : PathTree κ ν) (p q : List κ) : (t.child p).leaf q = t.leaf (p ++ q) := rfl

@[simp] lemma child_nil (t : PathTree κ ν) : t.child [] = t := ext fun _ => rfl

lemma child_child (t : PathTree κ ν) (p q : List κ) : (t.child p).child q = t.child (p ++ q) :=
  ext fun r => by simp

@[simp] lemma child_null (p : List κ) : (null : PathTree κ ν).child p = null := ext fun _ => rfl

/-! ### Setting a path -/

/-- The leaf at `q` once `p` has been set to `v`. -/
def setLeaf (t : PathTree κ ν) (p : List κ) (v : PathTree κ ν) (q : List κ) : Option ν :=
  if p <+: q then v.leaf (q.drop p.length)
  else if q <+: p ∧ ¬v.IsNull then none
  else t.leaf q

lemma setLeaf_append (t : PathTree κ ν) (p : List κ) (v : PathTree κ ν) (q : List κ) :
    t.setLeaf p v (p ++ q) = v.leaf q := by
  simp [setLeaf]

lemma setLeaf_of_not_meets {t : PathTree κ ν} {p q : List κ} (h : ¬Meets p q) (v : PathTree κ ν) :
    t.setLeaf p v q = t.leaf q := by
  simp only [Meets, not_or] at h
  simp [setLeaf, h.1, h.2]

/-- A leaf outside the path is one of the old ones, and not above the path. -/
lemma setLeaf_cases {t : PathTree κ ν} {p q : List κ} {v : PathTree κ ν} (h : t.setLeaf p v q ≠ none) :
    (∃ r, q = p ++ r ∧ v.leaf r ≠ none) ∨
      ¬p <+: q ∧ t.leaf q ≠ none ∧ (q <+: p → v.IsNull) := by
  unfold setLeaf at h
  split_ifs at h with hpq hqp
  · exact .inl ⟨q.drop p.length, (List.prefix_append_drop hpq), h⟩
  · exact absurd rfl h
  · refine .inr ⟨hpq, h, fun hq => ?_⟩
    by_contra hv
    exact hqp ⟨hq, hv⟩

/-- The node at `p` becomes `v`. -/
def set (t : PathTree κ ν) (p : List κ) (v : PathTree κ ν) : PathTree κ ν where
  leaf := t.setLeaf p v
  paths := (t.paths ∪ v.paths.image (p ++ ·)).filter fun q => t.setLeaf p v q ≠ none
  mem_paths q := by
    refine ⟨fun hq => by simpa using (Finset.mem_filter.mp hq).2, fun hq => ?_⟩
    refine Finset.mem_filter.mpr ⟨?_, by simpa using hq⟩
    rcases setLeaf_cases hq with ⟨r, rfl, hr⟩ | ⟨-, hleaf, -⟩
    · exact Finset.mem_union_right _ (Finset.mem_image_of_mem _ ((v.mem_paths r).mpr hr))
    · exact Finset.mem_union_left _ ((t.mem_paths q).mpr hleaf)
  ends q r hq hr := by
    rcases setLeaf_cases hq with ⟨s, rfl, hs⟩ | ⟨hpq, hleaf, hnull⟩
    · rw [List.append_assoc, setLeaf_append] at hr
      exact v.ends s r hs hr
    · rcases setLeaf_cases hr with ⟨r', hr', hv⟩ | ⟨-, hr, -⟩
      · -- the leaf at `q` is above `p`, and gives way
        have hmeets : q <+: p ∨ p <+: q :=
          List.prefix_or_prefix_of_prefix (List.prefix_append q r) ⟨r', hr'.symm⟩
        have hqp : q <+: p := hmeets.resolve_right hpq
        exact absurd (isNull_iff.mp (hnull hqp) r') hv
      · exact t.ends q r hleaf hr

@[simp] lemma set_leaf (t : PathTree κ ν) (p : List κ) (v : PathTree κ ν) (q : List κ) :
    (t.set p v).leaf q = t.setLeaf p v q := rfl

/-- What has been set is there, and below it as well. -/
lemma child_set_below (t : PathTree κ ν) (p q : List κ) (v : PathTree κ ν) :
    (t.set p v).child (p ++ q) = v.child q :=
  ext fun r => by simp [setLeaf_append]

lemma child_set_self (t : PathTree κ ν) (p : List κ) (v : PathTree κ ν) : (t.set p v).child p = v := by
  simpa using child_set_below t p [] v

@[simp] lemma set_nil (t v : PathTree κ ν) : t.set [] v = v := by
  simpa using child_set_self t [] v

/-- **Elsewhere nothing changes.** -/
theorem child_set_of_not_meets {t : PathTree κ ν} {p q : List κ} (h : ¬Meets p q) (v : PathTree κ ν) :
    (t.set p v).child q = t.child q := by
  refine ext fun r => ?_
  have hr : ¬Meets p (q ++ r) := fun hm => h hm.symm.of_append_left.symm
  rw [child_leaf, set_leaf, setLeaf_of_not_meets hr, child_leaf]

/-- A node above the path sees the change from where it is. -/
theorem child_set_above (t : PathTree κ ν) (p q : List κ) (v : PathTree κ ν) :
    (t.set (p ++ q) v).child p = (t.child p).set q v := by
  refine ext fun r => ?_
  have hdrop : (p ++ r).drop (p ++ q).length = r.drop q.length := by
    rw [List.length_append, ← List.drop_drop, List.drop_left]
  simp only [child_leaf, set_leaf, setLeaf, List.prefix_append_right_inj, hdrop]

/-- Paths that do not meet can be set in any order. -/
theorem set_comm {t : PathTree κ ν} {p q : List κ} (h : ¬Meets p q) (v w : PathTree κ ν) :
    (t.set p v).set q w = (t.set q w).set p v := by
  refine ext fun r => ?_
  by_cases hp : p <+: r
  · obtain ⟨r, rfl⟩ := hp
    have hq : ¬Meets q (p ++ r) := fun hm => h (hm.symm.of_append_left)
    rw [set_leaf, set_leaf, setLeaf_of_not_meets hq, setLeaf_append, set_leaf, setLeaf_append]
  · by_cases hq : q <+: r
    · obtain ⟨r, rfl⟩ := hq
      have hp : ¬Meets p (q ++ r) := fun hm => h hm.symm.of_append_left.symm
      rw [set_leaf, setLeaf_append, set_leaf, setLeaf_of_not_meets hp, set_leaf, setLeaf_append]
    · simp only [set_leaf, setLeaf, hp, hq, if_false]
      split_ifs <;> rfl

/-- What is seen of a change is the same from trees that look the same. -/
lemma child_set_congr {t t' : PathTree κ ν} {q : List κ} (h : t.child q = t'.child q) (p : List κ)
    (v : PathTree κ ν) : (t.set p v).child q = (t'.set p v).child q := by
  by_cases hm : Meets p q
  · rcases hm with ⟨r, rfl⟩ | ⟨r, rfl⟩
    · rw [child_set_below, child_set_below]
    · rw [child_set_above, child_set_above, h]
  · rw [child_set_of_not_meets hm, child_set_of_not_meets hm, h]

lemma not_isNull_set {v : PathTree κ ν} (h : ¬v.IsNull) (t : PathTree κ ν) (p : List κ) :
    ¬(t.set p v).IsNull := by
  intro hnull
  have hchild : (t.set p v).child p = null := by
    rw [eq_null hnull, child_null]
  rw [child_set_self] at hchild
  exact h (hchild ▸ isNull_null)

/-! ### Objects -/

/-- A node with the given children, by distinct keys; a child that is null is left out. -/
def node : List (κ × PathTree κ ν) → PathTree κ ν
  | [] => null
  | (k, t) :: fields => (node fields).set [k] t

lemma child_node_cons (k k' : κ) (t : PathTree κ ν) (fields : List (κ × PathTree κ ν)) :
    (node ((k', t) :: fields)).child [k] = if k = k' then t else (node fields).child [k] := by
  rw [node]
  split_ifs with hk
  · rw [hk, child_set_self]
  · have hne : ¬Meets [k'] [k] := by
      simp [Meets, hk, Ne.symm hk]
    exact child_set_of_not_meets hne t

/-! ### The keys of the children -/

/-- The keys with something below them. -/
def keys (t : PathTree κ ν) : Finset κ := t.paths.biUnion fun p => p.head?.toFinset

lemma mem_keys {t : PathTree κ ν} {k : κ} : k ∈ t.keys ↔ ¬(t.child [k]).IsNull := by
  have hhead : ∀ p : List κ, p.head? = some k ↔ ∃ q, p = k :: q := fun p => by
    cases p <;> simp [eq_comm]
  simp only [keys, Finset.mem_biUnion, Option.mem_toFinset, Option.mem_def, hhead, t.mem_paths,
    isNull_iff, child_leaf, not_forall]
  constructor
  · rintro ⟨p, hp, q, rfl⟩
    exact ⟨q, hp⟩
  · rintro ⟨q, hq⟩
    exact ⟨k :: q, hq, q, rfl⟩

/-! ### A sequence of changes -/

/-- A change sets a path. -/
abbrev Change (κ ν : Type*) := List κ × PathTree κ ν

def apply (t : PathTree κ ν) (c : Change κ ν) : PathTree κ ν := t.set c.1 c.2

def applyAll (t : PathTree κ ν) (cs : List (Change κ ν)) : PathTree κ ν := cs.foldl apply t

@[simp] lemma applyAll_nil (t : PathTree κ ν) : t.applyAll [] = t := rfl

@[simp] lemma applyAll_cons (t : PathTree κ ν) (c : Change κ ν) (cs : List (Change κ ν)) :
    t.applyAll (c :: cs) = (t.apply c).applyAll cs := rfl

lemma applyAll_append (t : PathTree κ ν) (cs ds : List (Change κ ν)) :
    t.applyAll (cs ++ ds) = (t.applyAll cs).applyAll ds := List.foldl_append

/-- **A node sees its own changes only.** What a sequence of changes makes of it does not depend
on the changes whose paths do not meet its own, nor on the tree around it. -/
theorem child_applyAll_filter {t t' : PathTree κ ν} {q : List κ} (h : t.child q = t'.child q)
    (cs : List (Change κ ν)) :
    (t.applyAll cs).child q = (t'.applyAll (cs.filter fun c => Meets c.1 q)).child q := by
  induction cs generalizing t t' with
  | nil => exact h
  | cons c cs ih =>
    by_cases hm : Meets c.1 q
    · rw [List.filter_cons_of_pos (by simpa using hm), applyAll_cons, applyAll_cons]
      exact ih (child_set_congr h c.1 c.2)
    · rw [List.filter_cons_of_neg (by simpa using hm), applyAll_cons]
      exact ih ((child_set_of_not_meets hm c.2).trans h)

end PathTree
