import Wedcast.Lib.Runs

/-!
Two runs of a machine that share their own events and differ in foreign ones.

If a relation between states survives a foreign event on either side, and an own event on both
sides at once, then it relates the ends of any two runs with the same own events.
-/

namespace Runs

variable {σ ε : Type*}

structure Unwinding (step : σ → ε → Option σ) (G : σ → ε → Prop) (own : ε → Bool) where
  rel : σ → σ → Prop
  left : ∀ {s s' t : σ} {e : ε}, rel s t → own e = false → G s e → step s e = some s' → rel s' t
  right : ∀ {s t t' : σ} {e : ε}, rel s t → own e = false → G t e → step t e = some t' → rel s t'
  both : ∀ {s s' t t' : σ} {e : ε}, rel s t → own e = true → G s e → G t e →
    step s e = some s' → step t e = some t' → rel s' t'

namespace Unwinding

variable {step : σ → ε → Option σ} {G : σ → ε → Prop} {own : ε → Bool}

/-- A run without own events keeps the relation. -/
lemma right_run (U : Unwinding step G own) {s t t' : σ} {fs : List ε} (h : U.rel s t)
    (hown : fs.filter own = []) (hfs : Along step G t fs) (ht : run step t fs = some t') :
    U.rel s t' := by
  induction fs generalizing t with
  | nil => cases ht; exact h
  | cons f fs ih =>
    obtain ⟨t₁, hf, ht⟩ := run_cons_some ht
    obtain ⟨hg, hfs⟩ := hfs t₁ hf
    obtain ⟨hno, hown⟩ : own f = false ∧ fs.filter own = [] := by simpa using hown
    exact ih (U.right h hno hg hf) (by simpa using hown) hfs ht

/-- A run whose first own event is `e` reaches it through foreign events. -/
lemma right_until (U : Unwinding step G own) {s t t' : σ} {e : ε} {es fs : List ε} (h : U.rel s t)
    (hown : fs.filter own = e :: es) (hfs : Along step G t fs) (ht : run step t fs = some t') :
    ∃ t₁ t₂ gs, U.rel s t₁ ∧ G t₁ e ∧ step t₁ e = some t₂ ∧ gs.filter own = es ∧
      Along step G t₂ gs ∧ run step t₂ gs = some t' := by
  induction fs generalizing t with
  | nil => simp at hown
  | cons f fs ih =>
    obtain ⟨t₁, hf, ht⟩ := run_cons_some ht
    obtain ⟨hg, hfs⟩ := hfs t₁ hf
    cases hof : own f with
    | true =>
      obtain ⟨rfl, hrest⟩ : f = e ∧ fs.filter own = es := by simpa [hof] using hown
      exact ⟨t, t₁, fs, h, hg, hf, hrest, hfs, ht⟩
    | false => exact ih (U.right h hof hg hf) (by simpa [hof] using hown) hfs ht

/-- Runs along `G` with the same own events keep the relation. -/
theorem of_run (U : Unwinding step G own) {s s' t t' : σ} {es fs : List ε} (h : U.rel s t)
    (hown : es.filter own = fs.filter own) (hes : Along step G s es) (hfs : Along step G t fs)
    (hs : run step s es = some s') (ht : run step t fs = some t') : U.rel s' t' := by
  induction es generalizing s t fs with
  | nil =>
    cases hs
    exact U.right_run h (by simpa using hown.symm) hfs ht
  | cons e es ih =>
    obtain ⟨s₁, he, hs⟩ := run_cons_some hs
    obtain ⟨hge, hes⟩ := hes s₁ he
    cases hoe : own e with
    | true =>
      obtain ⟨t₁, t₂, gs, hrel, hgt, htstep, hgs, hfs, ht⟩ :=
        U.right_until h (by simpa [hoe] using hown.symm) hfs ht
      exact ih (U.both hrel hoe hge hgt he htstep) hgs.symm hes hfs hs ht
    | false => exact ih (U.left h hoe hge he) (by simpa [hoe] using hown) hes hfs hs ht

end Unwinding

end Runs
