import Wedcast.Lib.Runs

/-!
A machine that takes notes of its own run.

The notes are written after each step and no step reads them, so they can state what a property
says about the past of a run without changing which runs there are.
-/

namespace Runs

variable {σ ε η : Type*} (step : σ → ε → Option σ) (note : σ × η → ε → σ → η)

/-- The machine with its notes. -/
def noting (x : σ × η) (e : ε) : Option (σ × η) := (step x.1 e).map fun s' => (s', note x e s')

variable {step note} {G : σ → ε → Prop}

lemma noting_some {x y : σ × η} {e : ε} (h : noting step note x e = some y) :
    step x.1 e = some y.1 ∧ y.2 = note x e y.1 := by
  obtain ⟨s', hs, rfl⟩ := Option.map_eq_some_iff.mp h
  exact ⟨hs, rfl⟩

lemma noting_of_step {x : σ × η} {s' : σ} {e : ε} (h : step x.1 e = some s') :
    noting step note x e = some (s', note x e s') := by
  rw [noting, h, Option.map_some]

/-- The notes do not show in a condition on the machine's own steps. -/
theorem along_noting {x : σ × η} {es : List ε} :
    Along (noting step note) (fun x e => G x.1 e) x es ↔ Along step G x.1 es := by
  induction es generalizing x with
  | nil => exact Iff.rfl
  | cons e es ih =>
    constructor
    · intro h s' hs
      have hy := h (s', note x e s') (noting_of_step hs)
      exact ⟨hy.1, ih.mp hy.2⟩
    · intro h y hy
      obtain ⟨hs, -⟩ := noting_some hy
      exact ⟨(h y.1 hs).1, ih.mpr (h y.1 hs).2⟩

end Runs
