/-!
# Runs of a transition system

States, labelled steps and what holds in every state that a run reaches.  A run may be
restricted by a condition on its steps, so that a property of the undisturbed runs of a
system can be stated and proved by the same induction.
-/

namespace GbStream.Support.Transition

variable {σ α : Type}

structure System (σ α : Type) where
  init : σ → Prop
  step : σ → α → σ → Prop

namespace System

/-- Reached by a run all of whose steps meet the condition `ok`. -/
inductive ReachableWith (sys : System σ α) (ok : σ → α → Prop) : σ → Prop
  | init {s : σ} : sys.init s → ReachableWith sys ok s
  | step {s s' : σ} {a : α} :
      ReachableWith sys ok s → ok s a → sys.step s a s' → ReachableWith sys ok s'

/-- Reached by a run of any steps. -/
abbrev Reachable (sys : System σ α) : σ → Prop :=
  sys.ReachableWith fun _ _ => True

variable {sys : System σ α} {ok ok' : σ → α → Prop} {s : σ}

/-- What holds at the start and is kept by every allowed step holds in every state
reached. -/
theorem ReachableWith.invariant {Inv : σ → Prop} (hinit : ∀ s, sys.init s → Inv s)
    (hstep : ∀ s a s', Inv s → ok s a → sys.step s a s' → Inv s')
    (h : sys.ReachableWith ok s) : Inv s := by
  induction h with
  | init hs => exact hinit _ hs
  | step _ hok hs ih => exact hstep _ _ _ ih hok hs

theorem ReachableWith.mono (hok : ∀ s a, ok s a → ok' s a) (h : sys.ReachableWith ok s) :
    sys.ReachableWith ok' s := by
  induction h with
  | init hs => exact .init hs
  | step _ hstep hs ih => exact .step ih (hok _ _ hstep) hs

theorem ReachableWith.restrict (hok : ∀ s a, sys.Reachable s → ok s a) (h : sys.Reachable s) :
    sys.ReachableWith ok s := by
  induction h with
  | init hs => exact .init hs
  | step h' _ hs ih => exact .step ih (hok _ _ h') hs

theorem ReachableWith.reachable (h : sys.ReachableWith ok s) : sys.Reachable s :=
  h.mono fun _ _ _ => trivial

end System

/-! ## Executable systems -/

/-- The steps `as` one after another, each with its condition checked; `none` where one of them
is not enabled or does not meet the condition. -/
def runWith (exec : σ → α → Option σ) (ok : σ → α → Bool) (s : σ) : List α → Option σ
  | [] => some s
  | a :: as => if ok s a then (exec s a).bind fun s => runWith exec ok s as else none

theorem System.ReachableWith.runWith {sys : System σ α} {exec : σ → α → Option σ}
    {ok : σ → α → Bool} (hexec : ∀ s a s', exec s a = some s' → sys.step s a s') {s s' : σ}
    (hs : sys.ReachableWith (fun s a => ok s a = true) s) {as : List α}
    (hrun : Transition.runWith exec ok s as = some s') :
    sys.ReachableWith (fun s a => ok s a = true) s' := by
  induction as generalizing s with
  | nil =>
      obtain rfl : s = s' := Option.some.inj hrun
      exact hs
  | cons a as ih =>
      unfold Transition.runWith at hrun
      split at hrun
      · rename_i hok
        obtain ⟨s₁, hs₁, hrun⟩ := Option.bind_eq_some_iff.mp hrun
        exact ih (.step hs hok (hexec s a s₁ hs₁)) hrun
      · cases hrun

end GbStream.Support.Transition
