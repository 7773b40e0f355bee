import Mathlib.Data.List.Basic
import Mathlib.Tactic.Lemma

/-!
Runs of a machine given by a partial step function.

An event either changes the state or cannot occur in it. A run is the list of the events that
occurred; conditions on its steps and on its states are stated along it, and an invariant carries
the proof that the steps meeting a condition preserve it.
-/

namespace Runs

variable {σ ε : Type*} (step : σ → ε → Option σ)

/-- The state the events lead to, `none` if one of them cannot occur. -/
def run : σ → List ε → Option σ
  | s, [] => some s
  | s, e :: es => (step s e).bind fun s' => run s' es

/-- Every step of the run satisfies `G` in the state it starts from. -/
def Along (G : σ → ε → Prop) : σ → List ε → Prop
  | _, [] => True
  | s, e :: es => ∀ s', step s e = some s' → G s e ∧ Along G s' es

/-- Every state of the run satisfies `P`, the first and the last included. -/
def Throughout (P : σ → Prop) : σ → List ε → Prop
  | s, [] => P s
  | s, e :: es => P s ∧ ∀ s', step s e = some s' → Throughout P s' es

variable {step} {G Q : σ → ε → Prop} {P : σ → Prop}

@[simp] lemma run_nil (s : σ) : run step s [] = some s := rfl

@[simp] lemma run_cons (s : σ) (e : ε) (es : List ε) :
    run step s (e :: es) = (step s e).bind fun s' => run step s' es := rfl

lemma run_cons_some {s t : σ} {e : ε} {es : List ε} (h : run step s (e :: es) = some t) :
    ∃ s', step s e = some s' ∧ run step s' es = some t := by
  simpa [Option.bind_eq_some_iff] using h

@[simp] lemma along_nil (s : σ) : Along step G s [] := trivial

lemma along_cons_some {s s' : σ} {e : ε} {es : List ε} (hs : step s e = some s') :
    Along step G s (e :: es) ↔ G s e ∧ Along step G s' es := by
  simp [Along, hs]

lemma along_of_forall {s : σ} {es : List ε} (h : ∀ e ∈ es, ∀ s, G s e) : Along step G s es := by
  induction es generalizing s with
  | nil => trivial
  | cons e es ih =>
    exact fun s' _ => ⟨h e (by simp) s, ih fun e' he' => h e' (by simp [he'])⟩

lemma along_true (s : σ) (es : List ε) : Along step (fun _ _ => True) s es :=
  along_of_forall fun _ _ _ => trivial

instance decidableAlong [∀ s e, Decidable (G s e)] :
    ∀ (s : σ) (es : List ε), Decidable (Along step G s es)
  | _, [] => isTrue trivial
  | s, e :: es =>
    match hs : step s e with
    | none => isTrue (by simp [Along, hs])
    | some s' =>
      have := decidableAlong s' es
      decidable_of_iff (G s e ∧ Along step G s' es) (along_cons_some hs).symm

instance decidableThroughout [DecidablePred P] :
    ∀ (s : σ) (es : List ε), Decidable (Throughout step P s es)
  | s, [] => inferInstanceAs (Decidable (P s))
  | s, e :: es =>
    match hs : step s e with
    | none => decidable_of_iff (P s) (by simp [Throughout, hs])
    | some s' =>
      have := decidableThroughout s' es
      decidable_of_iff (P s ∧ Throughout step P s' es) (by simp [Throughout, hs])

lemma Throughout.head {s : σ} {es : List ε} (h : Throughout step P s es) : P s := by
  cases es with
  | nil => exact h
  | cons e es => exact h.1

/-- A property of states that every step satisfying `G` preserves. -/
structure Invariant (step : σ → ε → Option σ) (G : σ → ε → Prop) where
  holds : σ → Prop
  preserved : ∀ {s s' : σ} {e : ε}, holds s → G s e → step s e = some s' → holds s'

namespace Invariant

variable (I : Invariant step G)

/-- An invariant holds at the end of a run along `G`. -/
lemma of_run {s t : σ} {es : List ε} (h₀ : I.holds s) (hG : Along step G s es)
    (ht : run step s es = some t) : I.holds t := by
  induction es generalizing s with
  | nil =>
    cases ht
    exact h₀
  | cons e es ih =>
    obtain ⟨s', hs, hrest⟩ := run_cons_some ht
    obtain ⟨hg, hG'⟩ := hG s' hs
    exact ih (I.preserved h₀ hg hs) hG' hrest

/-- What an invariant implies at a step holds at every step of a run along `G`. -/
theorem along {s : σ} {es : List ε}
    (hQ : ∀ s e s', I.holds s → G s e → step s e = some s' → Q s e)
    (h₀ : I.holds s) (hG : Along step G s es) : Along step Q s es := by
  induction es generalizing s with
  | nil => trivial
  | cons e es ih =>
    intro s' hs
    obtain ⟨hg, hG⟩ := hG s' hs
    exact ⟨hQ s e s' h₀ hg hs, ih (I.preserved h₀ hg hs) hG⟩

/-- What an invariant implies of a state holds throughout a run along `G`. -/
theorem throughout {s : σ} {es : List ε} (hP : ∀ s, I.holds s → P s)
    (h₀ : I.holds s) (hG : Along step G s es) : Throughout step P s es := by
  induction es generalizing s with
  | nil => exact hP s h₀
  | cons e es ih =>
    exact ⟨hP s h₀, fun s' hs => ih (I.preserved h₀ (hG s' hs).1 hs) (hG s' hs).2⟩

/-- **Exactness.** When a step outside `G` always breaks `P`, the runs on which `P` holds
throughout are those along `G`. -/
theorem throughout_iff {s : σ} {es : List ε} (hP : ∀ s, I.holds s → P s)
    (hbad : ∀ s e s', I.holds s → step s e = some s' → P s' → G s e) (h₀ : I.holds s) :
    Throughout step P s es ↔ Along step G s es := by
  refine ⟨fun h => ?_, I.throughout hP h₀⟩
  induction es generalizing s with
  | nil => trivial
  | cons e es ih =>
    intro s' hs
    have hg := hbad s e s' h₀ hs (h.2 s' hs).head
    exact ⟨hg, ih (I.preserved h₀ hg hs) (h.2 s' hs)⟩

end Invariant

/-! ### Simulation -/

/-- Each step of the machine is one step of another machine, or none, as seen by `view`; `abs` says
which. An invariant of the machine may be used for it. -/
structure Simulation {τ δ : Type*} (step : σ → ε → Option σ) (step' : τ → δ → Option τ)
    (view : σ → τ) (abs : ε → Option δ) where
  invariant : Invariant step fun _ _ => True
  simulates : ∀ {s s' : σ} {e : ε}, invariant.holds s → step s e = some s' →
    match abs e with
    | some d => step' (view s) d = some (view s')
    | none => view s' = view s

/-- **Whole runs.** The steps of the other machine make a run of it. -/
theorem Simulation.run {τ δ : Type*} {step' : τ → δ → Option τ} {view : σ → τ} {abs : ε → Option δ}
    (S : Simulation step step' view abs) {s t : σ} {es : List ε} (h₀ : S.invariant.holds s)
    (h : run step s es = some t) : Runs.run step' (view s) (es.filterMap abs) = some (view t) := by
  induction es generalizing s with
  | nil =>
    cases h
    rfl
  | cons e es ih =>
    obtain ⟨s', hs, hrest⟩ := run_cons_some h
    have hview := S.simulates h₀ hs
    have hrun := ih (S.invariant.preserved h₀ trivial hs) hrest
    cases habs : abs e with
    | none =>
      rw [habs] at hview
      rw [List.filterMap_cons_none habs, ← hview]
      exact hrun
    | some d =>
      rw [habs] at hview
      rw [List.filterMap_cons_some habs, run_cons, hview]
      exact hrun

/-! ### What can be reached -/

/-- Some run along `G` leads from `s` to `t`. -/
def Reaches (step : σ → ε → Option σ) (G : σ → ε → Prop) (s t : σ) : Prop :=
  ∃ es, Along step G s es ∧ run step s es = some t

namespace Reaches

lemma refl (s : σ) : Reaches step G s s := ⟨[], trivial, rfl⟩

lemma head {s s' t : σ} {e : ε} (hg : G s e) (hs : step s e = some s')
    (h : Reaches step G s' t) : Reaches step G s t := by
  obtain ⟨es, hG, ht⟩ := h
  refine ⟨e :: es, (along_cons_some hs).mpr ⟨hg, hG⟩, ?_⟩
  rw [run_cons, hs, Option.bind_some, ht]

lemma trans {s t u : σ} (h : Reaches step G s t) (h' : Reaches step G t u) :
    Reaches step G s u := by
  obtain ⟨es, hG, ht⟩ := h
  induction es generalizing s with
  | nil =>
    cases ht
    exact h'
  | cons e es ih =>
    obtain ⟨s', hs, hrest⟩ := run_cons_some ht
    obtain ⟨hg, hG⟩ := hG s' hs
    exact head hg hs (ih hG hrest)

lemma single {s s' : σ} {e : ε} (hg : G s e) (hs : step s e = some s') : Reaches step G s s' :=
  head hg hs (refl s')

/-- **Progress.** Where every state short of the aim has a step that lowers a measure, the aim is
reached. -/
theorem of_progress {aim : σ → Prop} (measure : σ → ℕ)
    (h : ∀ s, aim s ∨ ∃ e s', G s e ∧ step s e = some s' ∧ measure s' < measure s) (s : σ) :
    ∃ t, Reaches step G s t ∧ aim t := by
  induction hn : measure s using Nat.strongRecOn generalizing s with
  | ind n ih =>
    rcases h s with haim | ⟨e, s', hg, hs, hlt⟩
    · exact ⟨s, refl s, haim⟩
    · obtain ⟨t, ht, haim⟩ := ih (measure s') (hn ▸ hlt) s' rfl
      exact ⟨t, head hg hs ht, haim⟩

end Reaches

end Runs
