/-!
# Loops that call their environment

Each round of such a loop is fed with what its calls answer.  It goes on in a new state, is left
with a result, or is stuck because no environment answers so.
-/

namespace GbStream.Support.Loop

variable {σ α ρ : Type}

inductive Flow (σ ρ : Type)
  | next (s : σ)
  | leave (r : ρ)
  | stuck

/-- The result of a loop that is left after exactly these rounds; `test` is what it checks in
front of each round, with its result once the check fails. -/
def whileLoop (test : σ → Option ρ) (body : σ → α → Flow σ ρ) : List α → σ → Option ρ
  | [], s => test s
  | a :: as, s =>
      match test s with
      | some _ => none
      | none =>
          match body s a with
          | .next s => whileLoop test body as s
          | .leave r => if as.isEmpty then some r else none
          | .stuck => none

variable {test : σ → Option ρ} {body : σ → α → Flow σ ρ} {as : List α} {s : σ} {a : α} {r : ρ}

theorem whileLoop_next {s' : σ} (htest : test s = none) (hbody : body s a = .next s') :
    whileLoop test body (a :: as) s = whileLoop test body as s' := by
  rw [whileLoop, htest]
  simp only [hbody]

/-- One round: the loop goes on with what is left of the answers, or this was the last one. -/
theorem whileLoop_cons (h : whileLoop test body (a :: as) s = some r) :
    test s = none ∧ ((∃ s', body s a = .next s' ∧ whileLoop test body as s' = some r) ∨
      as = [] ∧ body s a = .leave r) := by
  rw [whileLoop] at h
  split at h
  · cases h
  · next htest =>
    refine ⟨htest, ?_⟩
    split at h
    · next s' hbody => exact .inl ⟨s', hbody, h⟩
    · next r' hbody =>
      split at h
      · next hempty =>
        obtain rfl := Option.some.inj h
        exact .inr ⟨List.isEmpty_iff.mp hempty, hbody⟩
      · cases h
    · cases h

/-- What holds in front of the loop, is kept by each round and gives `Post` where the loop is
left; the rounds are counted. -/
theorem whileLoop_counted (Inv : Nat → σ → Prop) (Post : Nat → ρ → Prop)
    (htest : ∀ n s r, Inv n s → test s = some r → Post n r)
    (hnext : ∀ a ∈ as, ∀ n s s', Inv n s → test s = none → body s a = .next s' → Inv (n + 1) s')
    (hleave : ∀ a ∈ as, ∀ n s r, Inv n s → test s = none → body s a = .leave r → Post (n + 1) r)
    {n : Nat} (hs : Inv n s) (h : whileLoop test body as s = some r) : Post (n + as.length) r := by
  induction as generalizing n s with
  | nil => exact htest n s r hs h
  | cons a as ih =>
    obtain ⟨hgo, ⟨s', hbody, hloop⟩ | ⟨rfl, hbody⟩⟩ := whileLoop_cons h
    · have hs' := hnext a List.mem_cons_self n s s' hs hgo hbody
      have hpost := ih (fun a ha => hnext a (List.mem_cons_of_mem _ ha))
        (fun a ha => hleave a (List.mem_cons_of_mem _ ha)) hs' hloop
      rwa [Nat.add_right_comm, Nat.add_assoc] at hpost
    · exact hleave a List.mem_cons_self n s r hs hgo hbody

theorem whileLoop_invariant (Inv : σ → Prop) (Post : ρ → Prop)
    (htest : ∀ s r, Inv s → test s = some r → Post r)
    (hnext : ∀ a ∈ as, ∀ s s', Inv s → test s = none → body s a = .next s' → Inv s')
    (hleave : ∀ a ∈ as, ∀ s r, Inv s → test s = none → body s a = .leave r → Post r)
    (hs : Inv s) (h : whileLoop test body as s = some r) : Post r :=
  whileLoop_counted (fun _ => Inv) (fun _ => Post) (fun _ => htest)
    (fun a ha _ => hnext a ha) (fun a ha _ => hleave a ha) (n := 0) hs h

end GbStream.Support.Loop
