import Mathlib.Tactic.Lemma
import Mathlib.Tactic.SplitIfs
import Wedcast.Lib.Runs

/-!
A value that is written at once or by a timer.

A text that is clean is stored as it comes. Any other one shows a marked form of its clean text
until a timer stores the clean text itself. The timers fire in the order they were started, so in
the end the value is what the last of them stores.
-/

namespace Delayed

variable {α : Type*}

structure Cell (α : Type*) where
  value : α
  /-- What the pending timers are going to store, the one started first in front. -/
  timers : List α
  deriving DecidableEq

/-- A text comes in, with its clean form. -/
def Cell.put [DecidableEq α] (mark : α → α) (clean text : α) (c : Cell α) : Cell α :=
  if clean ≠ text then ⟨mark clean, c.timers ++ [clean]⟩ else ⟨clean, c.timers⟩

/-- The first pending timer fires. -/
def Cell.fire (c : Cell α) : Option (Cell α) :=
  match c.timers with
  | [] => none
  | t :: rest => some ⟨t, rest⟩

/-- The value once all pending timers have fired. -/
def Cell.settled (c : Cell α) : α := c.timers.getLast?.getD c.value

lemma Cell.settled_of_nil {c : Cell α} (h : c.timers = []) : c.settled = c.value := by
  simp [settled, h]

lemma Cell.fire_eq {c c' : Cell α} (h : c.fire = some c') : c.timers = c'.value :: c'.timers := by
  unfold fire at h
  split at h
  · cases h
  · rename_i t rest heq
    cases h
    exact heq

lemma Cell.settled_fire {c c' : Cell α} (h : c.fire = some c') : c'.settled = c.settled := by
  rw [settled, settled, fire_eq h, List.getLast?_cons]
  cases c'.timers.getLast? <;> rfl

variable [DecidableEq α]

/-- A clean text is in the end what an earlier timer leaves of it. -/
lemma Cell.settled_put (mark : α → α) (clean text : α) (c : Cell α) :
    (c.put mark clean text).settled =
      if clean ≠ text then clean else c.timers.getLast?.getD clean := by
  unfold put
  split_ifs <;> simp [settled]

/-- **The text that came last is kept** when it was not clean, or when no timer of an earlier text
was pending, or when the last one pending was to store the same. -/
theorem Cell.settled_put_eq_iff {mark : α → α} {clean text : α} {c : Cell α} :
    (c.put mark clean text).settled = clean ↔
      clean ≠ text ∨ ∀ t ∈ c.timers.getLast?, t = clean := by
  rw [settled_put]
  by_cases h : clean = text
  · cases c.timers.getLast? <;> simp [h]
  · simp [h]

/-- The value has one property, and what the timers store has another. -/
structure Cell.All (P Q : α → Prop) (c : Cell α) : Prop where
  value : P c.value
  timers : ∀ t ∈ c.timers, Q t

omit [DecidableEq α] in
lemma Cell.All.fire {P Q : α → Prop} {c c' : Cell α} (h : c.All P Q) (hQP : ∀ t, Q t → P t)
    (hfire : c.fire = some c') : c'.All P Q := by
  have heq := fire_eq hfire
  refine ⟨hQP _ (h.timers _ (by simp [heq])), fun t ht => h.timers t ?_⟩
  simp [heq, ht]

lemma Cell.All.put {P Q : α → Prop} {c : Cell α} {mark : α → α} {clean text : α} (h : c.All P Q)
    (hclean : clean = text → P clean) (hmark : clean ≠ text → P (mark clean) ∧ Q clean) :
    (c.put mark clean text).All P Q := by
  unfold Cell.put
  split_ifs with hne
  · refine ⟨(hmark hne).1, fun t ht => ?_⟩
    rcases List.mem_append.mp ht with ht | ht
    · exact h.timers t ht
    · rw [List.mem_singleton.mp ht]
      exact (hmark hne).2
  · exact ⟨hclean (not_not.mp hne), h.timers⟩

/-! ### A field of its own -/

inductive Event (α : Type*) where
  | changeText (text : α)
  | timer
  deriving DecidableEq

/-- The machine of a field whose handler is `onChangeText`. -/
def step (onChangeText : α → Cell α → Cell α) (c : Cell α) : Event α → Option (Cell α)
  | .changeText text => some (onChangeText text c)
  | .timer => c.fire

omit [DecidableEq α] in
/-- Timers alone do not change where the value ends. -/
lemma settled_run_timers {onChangeText : α → Cell α → Cell α} {c c' : Cell α}
    {es : List (Event α)} (h : Runs.run (step onChangeText) c es = some c')
    (htimers : ∀ e ∈ es, e = .timer) : c'.settled = c.settled := by
  induction es generalizing c with
  | nil =>
    cases h
    rfl
  | cons e es ih =>
    obtain ⟨c₁, hfire, hrest⟩ := Runs.run_cons_some h
    obtain rfl : e = .timer := htimers e (by simp)
    rw [ih hrest fun e' he' => htimers e' (by simp [he']), Cell.settled_fire hfire]

end Delayed
