/- module: FaucetApi/L1/Pollers
   layer: results
   digest: The fee-rate task and the wallet syncer, and the responses that they survive. -/

import FaucetApi.Lib.Floating
import FaucetApi.Lib.Polling

set_option autoImplicit false
set_option relaxedAutoImplicit false

namespace FaucetApi.L1.Pollers

open FaucetApi.Lib.Floating
open FaucetApi.Lib.Polling

/-- What Esplora answers to `get_fee_estimates`: sat/vbyte by confirmation target, or an error. -/
abbrev FeeResponse := Except Unit (ℕ → Option FloatValue)

abbrev FeeRate := ℕ

def FEE_RATE : FeeRate := 250

/-- `(fr as u64).checked_mul(1000 / 4)`. -/
def toSatPerKwu (fr : FloatValue) : Option FeeRate :=
  let new := fr.toUnsigned (2 ^ 64) * (1000 / 4)
  if new < 2 ^ 64 then some new else none

/-- The loop of `spawn_fee_rate_task`. -/
def feeRateTask : Poller FeeRate FeeResponse where
  handle := fun feeRate response =>
    match response.map (fun frs => frs 1) with
    | .ok (some fr) =>
        match toSatPerKwu fr with
        | none => (feeRate, .leave)
        | some new => (new, .sleep)
    | .ok none => (feeRate, .sleep)
    | .error _ => (feeRate, .sleep)
  pause := 20

/-- The estimate that a response carries, if any, converted. -/
def usableRate : FeeResponse → Option FeeRate
  | .ok frs => (frs 1).bind toSatPerKwu
  | .error _ => none

def applyRate (feeRate : FeeRate) (response : FeeResponse) : FeeRate :=
  (usableRate response).getD feeRate

/-- The response carries an estimate whose conversion overflows. -/
def Overflows (response : FeeResponse) : Prop :=
  ∃ frs fr, response = .ok frs ∧ frs 1 = some fr ∧ 2 ^ 64 ≤ fr.toUnsigned (2 ^ 64) * (1000 / 4)

private theorem toSatPerKwu_eq_none {fr : FloatValue} :
    toSatPerKwu fr = none ↔ 2 ^ 64 ≤ fr.toUnsigned (2 ^ 64) * (1000 / 4) := by
  unfold toSatPerKwu
  rw [ite_eq_right_iff, ← Nat.not_lt]
  simp only [reduceCtorEq]

private theorem feeRateTask_applies (feeRate : FeeRate) (response : FeeResponse) :
    (feeRateTask.handle feeRate response).1 = applyRate feeRate response := by
  cases response with
  | error _ => rfl
  | ok frs =>
      cases fr : frs 1 with
      | none => simp [feeRateTask, applyRate, usableRate, Except.map, fr]
      | some fr' =>
          cases new : toSatPerKwu fr' <;>
            simp [feeRateTask, applyRate, usableRate, Except.map, fr, new]

private theorem feeRateTask_sleeps (feeRate : FeeRate) (response : FeeResponse) :
    (feeRateTask.handle feeRate response).2 = .sleep ↔ ¬ Overflows response := by
  cases response with
  | error _ => simp [feeRateTask, Overflows, Except.map]
  | ok frs =>
      cases fr : frs 1 with
      | none => simp [feeRateTask, Overflows, Except.map, fr]
      | some fr' =>
          have overflows : Overflows (.ok frs) ↔ toSatPerKwu fr' = none := by
            rw [toSatPerKwu_eq_none]
            simp [Overflows, fr]
          rw [overflows]
          cases new : toSatPerKwu fr' <;> simp [feeRateTask, Except.map, fr, new]

section

variable {W U : Type} (applyUpdate : W → U → Option W) (persist : W → Option W)

/-- The loop of `spawn_syncer`. The code expects the wallet to take and to save every update. -/
def syncer : Poller W (Except Unit U) where
  handle := fun l1w response =>
    match response with
    | .error _ => (l1w, .again)
    | .ok update =>
        match applyUpdate l1w update with
        | none => (l1w, .leave)
        | some l1w' =>
            match persist l1w' with
            | none => (l1w', .leave)
            | some saved => (saved, .sleep)
  pause := 30

/-- What a response makes of the wallet: an update is applied and saved where that succeeds. -/
def applySync (l1w : W) : Except Unit U → W
  | .error _ => l1w
  | .ok update => ((applyUpdate l1w update).map fun l1w' => (persist l1w').getD l1w').getD l1w

/-- The response is an update that this wallet takes and saves. -/
def Accepted (l1w : W) (response : Except Unit U) : Prop :=
  ∃ update l1w' saved, response = .ok update ∧ applyUpdate l1w update = some l1w' ∧
    persist l1w' = some saved

variable {applyUpdate persist}

private theorem syncer_applies (l1w : W) (response : Except Unit U) :
    ((syncer applyUpdate persist).handle l1w response).1 =
      applySync applyUpdate persist l1w response := by
  cases response with
  | error _ => rfl
  | ok update =>
      cases applied : applyUpdate l1w update with
      | none => simp [syncer, applySync, applied]
      | some l1w' => cases saved : persist l1w' <;> simp [syncer, applySync, applied, saved]

private theorem syncer_sleeps (l1w : W) (response : Except Unit U) :
    ((syncer applyUpdate persist).handle l1w response).2 = .sleep ↔
      Accepted applyUpdate persist l1w response := by
  cases response with
  | error _ => simp [syncer, Accepted]
  | ok update =>
      cases applied : applyUpdate l1w update with
      | none => simp [syncer, Accepted, applied]
      | some l1w' => cases saved : persist l1w' <;> simp [syncer, Accepted, applied, saved]

/-- The fee-rate task survives exactly the responses without an overflowing estimate, and the
syncer exactly those that are all updates that the wallet takes and saves. -/
theorem pollers_survive_iff (feeRate : FeeRate) (estimates : List FeeResponse) (l1w : W)
    (updates : List (Except Unit U)) :
    (feeRateTask.Survives applyRate feeRate estimates ∧
      (syncer applyUpdate persist).Survives (applySync applyUpdate persist) l1w updates) ↔
    (∀ response ∈ estimates, ¬ Overflows response) ∧
      ∀ a response b, updates = a ++ response :: b →
        Accepted applyUpdate persist (a.foldl (applySync applyUpdate persist) l1w) response := by
  rw [survives_iff feeRateTask_applies, survives_iff syncer_applies]
  refine and_congr ⟨?_, ?_⟩ ?_
  · intro sleeps response member
    obtain ⟨a, b, split⟩ := List.append_of_mem member
    exact (feeRateTask_sleeps _ response).mp (sleeps a response b split)
  · intro converts a response b split
    refine (feeRateTask_sleeps _ response).mpr (converts response ?_)
    exact split ▸ List.mem_append_right a List.mem_cons_self
  · simp only [syncer_sleeps]

end

def offer (satPerVbyte : ℚ) : FeeResponse := .ok fun target =>
  if target = 1 then some (.finite satPerVbyte) else none

/-- An absurd estimate ends the fee-rate task, which misses the good one after it; and a failed
sync is followed by the next request at once. -/
theorem pollers_thrown_off :
    feeRateTask.final FEE_RATE [offer (10 ^ 17), offer 3] = 250 ∧
    [offer (10 ^ 17), offer 3].foldl applyRate FEE_RATE = 750 ∧
    ¬ feeRateTask.Survives applyRate FEE_RATE [offer (10 ^ 17), offer 3] ∧
    ¬ (syncer (fun w u : ℕ => some (w + u)) some).Survives
      (applySync (fun w u => some (w + u)) some) 0 [.error (), .ok 1] := by
  have missed : feeRateTask.final FEE_RATE [offer (10 ^ 17), offer 3] = 250 := by decide
  have owed : [offer (10 ^ 17), offer 3].foldl applyRate FEE_RATE = 750 := by decide
  refine ⟨missed, owed, ?_, ?_⟩
  · intro survives
    have agree := survives.2
    rw [missed, owed] at agree
    exact absurd agree (by decide)
  · intro survives
    have acts := survives.1
    simp [Poller.actions, Poller.steady, syncer] at acts

end FaucetApi.L1.Pollers
