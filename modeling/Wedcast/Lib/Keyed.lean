import Mathlib.Data.List.Induction
import Mathlib.Data.List.Nodup
import Mathlib.Tactic.Lemma

/-!
Lists with at most one entry for each key, and the insertion that keeps them so.
-/

namespace Keyed

variable {α κ : Type*} [DecidableEq κ] (key : α → κ)

/-- Replace the first entry with the key of `x`, or append `x`. -/
def upsert (x : α) : List α → List α
  | [] => [x]
  | y :: ys => if key y = key x then x :: ys else y :: upsert x ys

variable {key}

lemma upsert_of_notMem {x : α} {xs : List α} (h : key x ∉ xs.map key) :
    upsert key x xs = xs ++ [x] := by
  induction xs with
  | nil => rfl
  | cons y ys ih =>
    simp only [List.map_cons, List.mem_cons, not_or] at h
    simp [upsert, Ne.symm h.1, ih h.2]

lemma keys_upsert_of_mem {x : α} {xs : List α} (h : key x ∈ xs.map key) :
    (upsert key x xs).map key = xs.map key := by
  induction xs with
  | nil => simp at h
  | cons y ys ih =>
    by_cases hy : key y = key x
    · simp [upsert, hy]
    · have hys : key x ∈ ys.map key := by simpa [Ne.symm hy] using h
      simp [upsert, hy, ih hys]

theorem nodup_upsert {x : α} {xs : List α} (h : (xs.map key).Nodup) :
    ((upsert key x xs).map key).Nodup := by
  by_cases hx : key x ∈ xs.map key
  · rwa [keys_upsert_of_mem hx]
  · rw [upsert_of_notMem hx, List.map_append]
    exact h.append (by simp) (by simpa using hx)

/-- With one entry for each key, `x` takes the place of every entry with its key. -/
theorem mem_upsert {x z : α} {xs : List α} (h : (xs.map key).Nodup) :
    z ∈ upsert key x xs ↔ z = x ∨ z ∈ xs ∧ key z ≠ key x := by
  induction xs with
  | nil => simp [upsert]
  | cons y ys ih =>
    obtain ⟨hy, hys⟩ := List.nodup_cons.mp h
    by_cases hyx : key y = key x
    · have hne : ∀ w ∈ ys, key w ≠ key x := fun w hw he =>
        hy (hyx ▸ he ▸ List.mem_map_of_mem hw)
      simp only [upsert, hyx, if_true, List.mem_cons]
      refine or_congr_right ⟨fun hz => ⟨.inr hz, hne z hz⟩, ?_⟩
      rintro ⟨rfl | hz, hzx⟩
      · exact absurd hyx hzx
      · exact hz
    · simp only [upsert, hyx, if_false, List.mem_cons, ih hys]
      constructor
      · rintro (rfl | rfl | ⟨hz, hzx⟩)
        · exact .inr ⟨.inl rfl, hyx⟩
        · exact .inl rfl
        · exact .inr ⟨.inr hz, hzx⟩
      · rintro (rfl | ⟨rfl | hz, hzx⟩)
        · exact .inr (.inl rfl)
        · exact .inl rfl
        · exact .inr (.inr ⟨hz, hzx⟩)

omit [DecidableEq κ] in
/-- With one entry for each key, a filter shows the key of an entry once or not at all. -/
theorem count_filter_key [BEq κ] [LawfulBEq κ] {p : α → Bool} {x : α} {xs : List α}
    (h : (xs.map key).Nodup) (hx : x ∈ xs) :
    ((xs.filter p).map key).count (key x) = if p x then 1 else 0 := by
  by_cases hp : p x
  · have hmem : key x ∈ (xs.filter p).map key :=
      List.mem_map_of_mem (List.mem_filter.mpr ⟨hx, hp⟩)
    have hnodup : ((xs.filter p).map key).Nodup := h.sublist (List.filter_sublist.map key)
    rw [if_pos hp, List.count_eq_one_of_mem hnodup hmem]
  · have hnot : key x ∉ (xs.filter p).map key := by
      intro hmem
      obtain ⟨y, hy, hyx⟩ := List.mem_map.mp hmem
      obtain ⟨hy, hpy⟩ := List.mem_filter.mp hy
      exact hp (List.inj_on_of_nodup_map h hy hx hyx ▸ hpy)
    rw [if_neg hp, List.count_eq_zero_of_not_mem hnot]

/-! ### Inserting one value after the other -/

variable (key) in
/-- The list the values lead to, from the empty one. -/
def collect (xs : List α) : List α := xs.foldl (fun ys x => upsert key x ys) []

lemma collect_concat (xs : List α) (x : α) :
    collect key (xs ++ [x]) = upsert key x (collect key xs) := by
  rw [collect, List.foldl_append]
  rfl

lemma upsert_ne_nil (x : α) (xs : List α) : upsert key x xs ≠ [] := by
  cases xs with
  | nil => exact List.cons_ne_nil _ _
  | cons y ys =>
    unfold upsert
    split_ifs <;> exact List.cons_ne_nil _ _

/-- The keys, each where it came first. -/
theorem keys_collect [BEq κ] [LawfulBEq κ] (xs : List α) :
    (collect key xs).map key = (xs.map key).eraseDups := by
  induction xs using List.reverseRecOn with
  | nil => rfl
  | append_singleton xs x ih =>
    rw [collect_concat, List.map_append, List.eraseDups_append, ← ih]
    by_cases hx : key x ∈ (collect key xs).map key
    · have hold : key x ∈ xs.map key := List.mem_eraseDups.mp (ih ▸ hx)
      have hnone : [key x].removeAll (xs.map key) = [] := by
        rw [List.removeAll, List.filter_cons_of_neg (by simpa using hold), List.filter_nil]
      rw [keys_upsert_of_mem hx, List.map_singleton, hnone, List.eraseDups_nil, List.append_nil]
    · have hnew : key x ∉ xs.map key := fun h => hx (ih ▸ List.mem_eraseDups.mpr h)
      have hself : [key x].removeAll (xs.map key) = [key x] := by
        rw [List.removeAll, List.filter_cons_of_pos (by simpa using hnew), List.filter_nil]
      rw [upsert_of_notMem hx, List.map_append, List.map_singleton, hself]
      rfl

lemma nodup_collect (xs : List α) : ((collect key xs).map key).Nodup := by
  induction xs using List.reverseRecOn with
  | nil => exact List.nodup_nil
  | append_singleton xs x ih =>
    rw [collect_concat]
    exact nodup_upsert ih

/-- Every entry is the last value that came with its key. -/
theorem getLast?_of_mem_collect {xs : List α} {z : α} (h : z ∈ collect key xs) :
    (xs.filter fun x => key x = key z).getLast? = some z := by
  induction xs using List.reverseRecOn with
  | nil => simp [collect] at h
  | append_singleton xs x ih =>
    rw [collect_concat, mem_upsert (nodup_collect xs)] at h
    rw [List.filter_append]
    rcases h with rfl | ⟨hz, hne⟩
    · simp
    · rw [List.filter_singleton]
      simpa [Ne.symm hne] using ih hz

end Keyed
