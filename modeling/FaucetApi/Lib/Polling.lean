/- module: FaucetApi/Lib/Polling
   layer: library
   digest: Polling loops: what they do between requests, and when no response throws them off. -/

import FaucetApi.Lib.Runs

set_option autoImplicit false
set_option relaxedAutoImplicit false

namespace FaucetApi.Lib.Polling

open FaucetApi.Lib.Runs

universe u v

/-- How the body of a loop goes on after it has handled a response. -/
inductive Flow where
  | sleep
  /-- Back to the loop's head at once. -/
  | again
  /-- Out of the loop, by a return or a panic. -/
  | leave
  deriving DecidableEq

/-- A loop that sends a request, waits for the response and handles it. -/
structure Poller (S : Type u) (R : Type v) where
  handle : S → R → S × Flow
  /-- How long the loop sleeps, in seconds. -/
  pause : ℕ

inductive Action (R : Type v) where
  | request
  | response (r : R)
  | slept (seconds : ℕ)

variable {S : Type u} {R : Type v}

def Poller.actions (p : Poller S R) (s : S) : List R → List (Action R)
  | [] => [.request]
  | r :: rs => .request :: .response r ::
      match p.handle s r with
      | (s', .sleep) => .slept p.pause :: p.actions s' rs
      | (s', .again) => p.actions s' rs
      | (_, .leave) => []

def Poller.final (p : Poller S R) (s : S) : List R → S
  | [] => s
  | r :: rs =>
      match p.handle s r with
      | (s', .leave) => s'
      | (s', _) => p.final s' rs

/-- Every response is followed by one sleep and the next request. -/
def Poller.steady (p : Poller S R) (rs : List R) : List (Action R) :=
  .request :: rs.flatMap (fun r => [.response r, .slept p.pause, .request])

/-- The loop outlives every response, and its state is that of applying them all in order. -/
def Poller.Survives (p : Poller S R) (apply : S → R → S) (s : S) (rs : List R) : Prop :=
  p.actions s rs = p.steady rs ∧ p.final s rs = rs.foldl apply s

variable {p : Poller S R} {apply : S → R → S} {s : S}

private theorem steady_cons (r : R) (rs : List R) :
    p.steady (r :: rs) = .request :: .response r :: .slept p.pause :: p.steady rs := rfl

private theorem actions_head (s : S) (rs : List R) : ∃ rest, p.actions s rs = .request :: rest := by
  cases rs <;> exact ⟨_, rfl⟩

private theorem survives_cons (applies : ∀ s r, (p.handle s r).1 = apply s r) (r : R)
    (rs : List R) :
    p.Survives apply s (r :: rs) ↔
      (p.handle s r).2 = .sleep ∧ p.Survives apply (apply s r) rs := by
  unfold Poller.Survives
  rw [← applies s r, steady_cons, List.foldl_cons, ← applies s r]
  rcases handled : p.handle s r with ⟨s', flow⟩
  cases flow with
  | sleep => simp [Poller.actions, Poller.final, handled]
  | again =>
      obtain ⟨rest, head⟩ := actions_head (p := p) s' rs
      simp [Poller.actions, Poller.final, handled, head]
  | leave => simp [Poller.actions, Poller.final, handled]

/-- A loop that applies each response survives exactly when it sleeps after each. -/
theorem survives_iff (applies : ∀ s r, (p.handle s r).1 = apply s r) (rs : List R) :
    p.Survives apply s rs ↔
      ∀ a r b, rs = a ++ r :: b → (p.handle (a.foldl apply s) r).2 = .sleep := by
  induction rs generalizing s with
  | nil => simp [Poller.Survives, Poller.actions, Poller.final, Poller.steady]
  | cons r rs ih =>
      rw [survives_cons applies, ih]
      exact (foldl_cut_cons (P := fun s r => (p.handle s r).2 = .sleep)).symm

end FaucetApi.Lib.Polling
