import Mathlib.Data.Option.Basic

/-!
# Refinement of one machine by another

A machine makes a step for a command and gives an answer; a step without a result is one that the
machine is not made for.  A machine refines another one when it follows each of its steps with the
same answer; runs are then followed too.
-/

namespace GbStream.Support.Simulation

variable {σ τ α β : Type}

/-- A run for a list of commands, with the answers. -/
def run (step : σ → α → Option (σ × β)) : σ → List α → Option (σ × List β)
  | s, [] => some (s, [])
  | s, a :: as =>
      match step s a with
      | none => none
      | some (s', b) => (run step s' as).map fun (s'', bs) => (s'', b :: bs)

/-- `step` follows `spec` in the states that `R` relates. -/
def Refines (R : σ → τ → Prop) (step : σ → α → Option (σ × β))
    (spec : τ → α → Option (τ × β)) : Prop :=
  ∀ s t a t' b, R s t → spec t a = some (t', b) → ∃ s', step s a = some (s', b) ∧ R s' t'

variable {step : σ → α → Option (σ × β)} {spec : τ → α → Option (τ × β)} {R : σ → τ → Prop}

theorem run_cons_eq_some {s s'' : σ} {a : α} {as : List α} {bs : List β} :
    run step s (a :: as) = some (s'', bs) ↔
      ∃ s' b bs', step s a = some (s', b) ∧ run step s' as = some (s'', bs') ∧ bs = b :: bs' := by
  rw [run]
  cases step s a with
  | none => simp
  | some p =>
      obtain ⟨s', b⟩ := p
      simp only [Option.map_eq_some_iff, Option.some.injEq, Prod.mk.injEq, Prod.exists]
      constructor
      · intro h
        obtain ⟨s₁, bs₁, hrun, rfl, rfl⟩ := h
        exact ⟨s', b, bs₁, ⟨rfl, rfl⟩, hrun, rfl⟩
      · intro h
        obtain ⟨s₁, b₁, bs₁, ⟨rfl, rfl⟩, hrun, rfl⟩ := h
        exact ⟨s'', bs₁, hrun, rfl, rfl⟩

/-- **Runs are followed**, command by command and answer by answer. -/
theorem Refines.run (h : Refines R step spec) {as : List α} {s : σ} {t t' : τ} {bs : List β}
    (hR : R s t) (hrun : Simulation.run spec t as = some (t', bs)) :
    ∃ s', Simulation.run step s as = some (s', bs) ∧ R s' t' := by
  induction as generalizing s t bs with
  | nil =>
      cases hrun
      exact ⟨s, rfl, hR⟩
  | cons a as ih =>
      obtain ⟨t₁, b, bs', hspec, hrest, rfl⟩ := run_cons_eq_some.mp hrun
      obtain ⟨s₁, hstep, hR₁⟩ := h s t a t₁ b hR hspec
      obtain ⟨s', hrun', hR'⟩ := ih hR₁ hrest
      exact ⟨s', run_cons_eq_some.mpr ⟨s₁, b, bs', hstep, hrun', rfl⟩, hR'⟩

end GbStream.Support.Simulation
