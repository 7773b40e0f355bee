import Mathlib.Data.List.Perm.Basic
import Mathlib.Tactic.Lemma

/-!
Lists changed at one index: which entries go, which stay, and how many have a property.
-/

namespace Indexed

variable {α : Type*} {xs : List α} {i : ℕ} {x y : α}

/-! ### The last entry -/

/-- The last entry of the list is at index `i`, and is `x`. -/
def IsLast (xs : List α) (x : α) (i : ℕ) : Prop := i + 1 = xs.length ∧ xs[i]? = some x

instance [DecidableEq α] (xs : List α) (x : α) (i : ℕ) : Decidable (IsLast xs x i) :=
  inferInstanceAs (Decidable (_ ∧ _))

/-! ### Erasing and setting -/

lemma mem_eraseIdx_of_ne (hx : xs[i]? = some x) (hy : y ∈ xs) (hne : y ≠ x) :
    y ∈ xs.eraseIdx i := by
  obtain ⟨j, hj⟩ := List.mem_iff_getElem?.mp hy
  refine List.mem_eraseIdx_iff_getElem?.mpr ⟨j, ?_, hj⟩
  rintro rfl
  exact hne (Option.some.inj (hj.symm.trans hx))

lemma eraseIdx_eq_nil_iff (hi : i < xs.length) : xs.eraseIdx i = [] ↔ xs.length = 1 := by
  rw [← List.length_eq_zero_iff, List.length_eraseIdx_of_lt hi]
  omega

lemma countP_eraseIdx (q : α → Bool) (hx : xs[i]? = some x) :
    xs.countP q = (xs.eraseIdx i).countP q + if q x then 1 else 0 := by
  obtain ⟨hi, rfl⟩ := List.getElem?_eq_some_iff.mp hx
  rw [← (List.getElem_cons_eraseIdx_perm hi).countP_eq q, List.countP_cons]

lemma countP_set_of_eq (q : α → Bool) (hx : xs[i]? = some x) (hxy : q y = q x) :
    (xs.set i y).countP q = xs.countP q := by
  obtain ⟨hi, rfl⟩ := List.getElem?_eq_some_iff.mp hx
  have hcount := countP_eraseIdx q hx
  rw [List.countP_set hi, hxy]
  omega

/-! ### Modifying -/

variable {f : α → α}

lemma mem_modify (hx : xs[i]? = some x) (hy : y ∈ xs.modify i f) : y = f x ∨ y ∈ xs := by
  obtain ⟨j, hj⟩ := List.mem_iff_getElem?.mp hy
  by_cases hij : i = j
  · subst hij
    left
    simpa [hx] using hj.symm
  · exact .inr (List.mem_of_getElem? (by simpa [hij] using hj))

lemma forall_mem_modify {P : α → Prop} (h : ∀ x ∈ xs, P x) (hf : ∀ x, P x → P (f x)) :
    ∀ y ∈ xs.modify i f, P y := by
  intro y hy
  cases hi : xs[i]? with
  | none =>
    rw [List.modify_eq_self (List.getElem?_eq_none_iff.mp hi)] at hy
    exact h y hy
  | some x =>
    rcases mem_modify hi hy with rfl | hy
    · exact hf x (h x (List.mem_of_getElem? hi))
    · exact h y hy

lemma mem_modify_self (hx : xs[i]? = some x) : f x ∈ xs.modify i f :=
  List.mem_of_getElem? (i := i) (by simp [hx])

lemma mem_modify_of_ne (hx : xs[i]? = some x) (hy : y ∈ xs) (hne : y ≠ x) :
    y ∈ xs.modify i f := by
  obtain ⟨j, hj⟩ := List.mem_iff_getElem?.mp hy
  have hij : i ≠ j := by
    rintro rfl
    exact hne (Option.some.inj (hj.symm.trans hx))
  exact List.mem_of_getElem? (i := j) (by simpa [hij] using hj)

lemma head?_modify (hi : i ≠ 0) : (xs.modify i f).head? = xs.head? := by
  obtain ⟨j, rfl⟩ := Nat.exists_eq_succ_of_ne_zero hi
  cases xs <;> simp

end Indexed
