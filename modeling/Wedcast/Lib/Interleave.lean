import Mathlib.Data.List.Basic
import Mathlib.Tactic.Lemma

/-!
Interleaved sequences of actions on one state.

Each action of a log is tagged with the sequence it belongs to. Where actions of different
sequences commute, the log can be sorted by sequences: it has the effect of one sequence after the
other, in any order of them.
-/

namespace Interleave

variable {ι α σ : Type*} (act : σ → α → σ)

/-- The effect of a log, the tags set aside. -/
def run (s : σ) (log : List (ι × α)) : σ := log.foldl (fun s x => act s x.2) s

/-- Two actions that can be done in either order. -/
def Commute (a b : α) : Prop := ∀ s, act (act s a) b = act (act s b) a

variable {act}

lemma run_append (s : σ) (xs ys : List (ι × α)) :
    run act s (xs ++ ys) = run act (run act s xs) ys := List.foldl_append

/-- An action moves to the back of a log it commutes with. -/
lemma run_act {a : α} {xs : List (ι × α)} (h : ∀ x ∈ xs, Commute act a x.2) (s : σ) :
    run act (act s a) xs = act (run act s xs) a := by
  induction xs generalizing s with
  | nil => rfl
  | cons x xs ih =>
    have hx : act (act s a) x.2 = act (act s x.2) a := h x List.mem_cons_self s
    calc run act (act (act s a) x.2) xs
        = run act (act (act s x.2) a) xs := by rw [hx]
      _ = act (run act (act s x.2) xs) a := ih (fun y hy => h y (List.mem_cons_of_mem _ hy)) _

variable [DecidableEq ι]

/-- The actions of one sequence, in their order. -/
def of (i : ι) (log : List (ι × α)) : List (ι × α) := log.filter fun x => x.1 = i

/-- The other ones. -/
def others (i : ι) (log : List (ι × α)) : List (ι × α) := log.filter fun x => x.1 ≠ i

/-- Actions of different sequences commute. -/
def Independent (act : σ → α → σ) (log : List (ι × α)) : Prop :=
  ∀ x ∈ log, ∀ y ∈ log, x.1 ≠ y.1 → Commute act x.2 y.2

/-- One sequence can be done before all others. -/
lemma run_of_others {log : List (ι × α)} (h : Independent act log) (i : ι) (s : σ) :
    run act s log = run act (run act s (of i log)) (others i log) := by
  induction log generalizing s with
  | nil => rfl
  | cons x log ih =>
    have htail : Independent act log := fun y hy z hz =>
      h y (List.mem_cons_of_mem _ hy) z (List.mem_cons_of_mem _ hz)
    have hstep : run act s (x :: log) =
        run act (run act (act s x.2) (of i log)) (others i log) := ih htail _
    by_cases hx : x.1 = i
    · have hof : of i (x :: log) = x :: of i log := List.filter_cons_of_pos (by simpa using hx)
      have hothers : others i (x :: log) = others i log :=
        List.filter_cons_of_neg (by simpa using hx)
      rw [hstep, hof, hothers]
      rfl
    · have hof : of i (x :: log) = of i log := List.filter_cons_of_neg (by simpa using hx)
      have hothers : others i (x :: log) = x :: others i log :=
        List.filter_cons_of_pos (by simpa using hx)
      have hcomm : ∀ y ∈ of i log, Commute act x.2 y.2 := by
        intro y hy
        obtain ⟨hy, hyi⟩ := List.mem_filter.mp hy
        have hne : x.1 ≠ y.1 := by
          rw [of_decide_eq_true hyi]
          exact hx
        exact h x List.mem_cons_self y (List.mem_cons_of_mem _ hy) hne
      rw [hstep, hof, hothers, run_act hcomm]
      rfl

/-- **Serial order.** A log of independent sequences has the effect of the whole sequences, one
after the other. -/
theorem run_eq_serial {log : List (ι × α)} {is : List ι} (h : Independent act log)
    (hnodup : is.Nodup) (his : ∀ x ∈ log, x.1 ∈ is) (s : σ) :
    run act s log = run act s (is.flatMap fun i => of i log) := by
  induction is generalizing log s with
  | nil =>
    have hnil : log = [] := List.eq_nil_iff_forall_not_mem.mpr fun x hx =>
      List.not_mem_nil (his x hx)
    rw [hnil]
    rfl
  | cons i is ih =>
    obtain ⟨hi, hnodup⟩ := List.nodup_cons.mp hnodup
    have hothers : Independent act (others i log) := fun x hx y hy =>
      h x (List.mem_filter.mp hx).1 y (List.mem_filter.mp hy).1
    have htags : ∀ x ∈ others i log, x.1 ∈ is := by
      intro x hx
      obtain ⟨hx, hxi⟩ := List.mem_filter.mp hx
      exact (List.mem_cons.mp (his x hx)).resolve_left (of_decide_eq_true hxi)
    have hrest : (is.flatMap fun j => of j (others i log)) = is.flatMap fun j => of j log := by
      refine List.flatMap_congr fun j hj => ?_
      have hji : j ≠ i := fun heq => hi (heq ▸ hj)
      rw [of, others, List.filter_filter]
      refine List.filter_congr fun x _ => ?_
      by_cases hx : x.1 = j
      · simp [hx, hji]
      · simp [hx]
    rw [run_of_others h i, ih hothers hnodup htags, hrest, List.flatMap_cons, run_append]

end Interleave
