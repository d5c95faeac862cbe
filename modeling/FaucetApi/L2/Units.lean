/- module: FaucetApi/L2/Units
   layer: results
   digest: Wei and satoshis: the amount that claim_l2 sends and the balance behind a difficulty. -/

import FaucetApi.Difficulty.Formula
import FaucetApi.Lib.Narrowing
import FaucetApi.Startup

set_option autoImplicit false
set_option relaxedAutoImplicit false

namespace FaucetApi.L2.Units

open FaucetApi.Lib.Floating
open FaucetApi.Lib.Narrowing
open FaucetApi.Pow.Hash
open FaucetApi.Pow.Challenges
open FaucetApi.Pow.Claims
open FaucetApi.Difficulty.Config
open FaucetApi.Difficulty.Formula
open FaucetApi.Startup

abbrev U256 := BitVec 256

/-- What alloy documents of `Uint::to::<u128>`: the value, or a panic (`none`) if it is too wide. -/
structure ConvertsTo128 (toU128 : U256 → Option ℕ) : Prop where
  fits : ∀ x : U256, x.toNat < 2 ^ 128 → toU128 x = some x.toNat
  panics : ∀ x : U256, 2 ^ 128 ≤ x.toNat → toU128 x = none

/-- The transport's error, which is only logged. -/
structure RpcError where
  deriving DecidableEq

section

variable (toU128 : U256 → Option ℕ)

/-- `get_default_signer_balance`, given the answer to `get_balance`. -/
def getDefaultSignerBalance (getBalance : Except RpcError U256) : Option (Except String ℕ) :=
  match getBalance with
  | .ok x => (toU128 x).map .ok
  | .error _ => some (.error "Could not fetch l2 balance")

/-- The balance of the L2 branch of `get_pow_challenge`. -/
def l2Balance (getBalance : Except RpcError U256) :
    Option (Except (StatusCode × String) Amount) :=
  (getDefaultSignerBalance toU128 getBalance).map fun
    | .ok weiBal => .ok (truncate 64 (weiBal / SATS_TO_WEI))
    | .error e => .error (.internalServerError, e)

/-- The balance of either branch; `trustedSpendable` is the L1 wallet's. -/
def balance (chain : Chain) (trustedSpendable : Amount) (getBalance : Except RpcError U256) :
    Option (Except (StatusCode × String) Amount) :=
  match chain with
  | .l1 => some (.ok trustedSpendable)
  | .l2 => l2Balance toU128 getBalance

end

/-- The two configurations in `AppState`. -/
structure AppState where
  l1DifficultyConfig : DifficultyConfig
  l2DifficultyConfig : DifficultyConfig

def AppState.difficultyConfig (state : AppState) : Chain → DifficultyConfig
  | .l1 => state.l1DifficultyConfig
  | .l2 => state.l2DifficultyConfig

/-- `get_pow_challenge` up to the difficulty that it hands to `Challenge::get`. -/
def challengeDifficulty (ar : Arithmetic) (toU128 : U256 → Option ℕ) (state : AppState)
    (chain : Chain) (trustedSpendable : Amount) (getBalance : Except RpcError U256) :
    Option (Except (StatusCode × String) UInt8) :=
  (balance toU128 chain trustedSpendable getBalance).map
    (Except.map (calculateDifficulty ar (state.difficultyConfig chain)))

/-- The L2 branch at a reported balance of `wei`: it does not panic, the balance is the whole
satoshis or, where these do not fit, the greatest `u64`, the difficulty is the one for that
balance, and less wei never has a lower one. -/
structure ExactAt (toU128 : U256 → Option ℕ) (state : AppState) (wei : U256) : Prop where
  balance : l2Balance toU128 (.ok wei) = some (.ok (saturate 64 (wei.toNat / 10 ^ 10)))
  difficulty : ∀ trustedSpendable, challengeDifficulty .exact toU128 state .l2 trustedSpendable
    (.ok wei) = some (.ok (calculateDifficulty .exact state.l2DifficultyConfig
      (saturate 64 (wei.toNat / 10 ^ 10))))
  antitone : ∀ trustedSpendable wei', wei' ≤ wei →
    ∃ difficulty difficulty',
      challengeDifficulty .exact toU128 state .l2 trustedSpendable (.ok wei) =
        some (.ok difficulty) ∧
      challengeDifficulty .exact toU128 state .l2 trustedSpendable (.ok wei') =
        some (.ok difficulty') ∧
      difficulty ≤ difficulty'

private theorem satsToWei_eq : SATS_TO_WEI = 10 ^ 10 := rfl

/-! What is sent: the limit on accepted settings keeps the product within 64 bits. -/

private theorem product_fits {amount : ℕ} (low : amount ≤ MAX_SATS_PER_CLAIM) :
    10 ^ 10 * amount < 2 ^ 64 := by
  have bound : amount * 10 ^ 10 ≤ 2 ^ 64 - 1 := (Nat.le_div_iff_mul_le (by norm_num)).mp low
  omega

private theorem l2Transaction_value (env : Env) (low : env.l2AmountPerClaim ≤ MAX_SATS_PER_CLAIM)
    (address : L2Address) :
    (l2Transaction env address).value = 10 ^ 10 * env.l2AmountPerClaim := by
  change env.l2AmountPerClaim * SATS_TO_WEI % 2 ^ 64 = _
  rw [satsToWei_eq, Nat.mul_comm]
  exact Nat.mod_eq_of_lt (product_fits low)

/-! What is received: a panic from 128 bits on, and a truncation from 64 bits of satoshis on. -/

section

variable {toU128 : U256 → Option ℕ} (documented : ConvertsTo128 toU128) {wei : U256}
include documented

private theorem l2Balance_of_fits (fits : wei.toNat < 2 ^ 128) :
    l2Balance toU128 (.ok wei) = some (.ok (truncate 64 (wei.toNat / 10 ^ 10))) := by
  unfold l2Balance getDefaultSignerBalance
  simp only [documented.fits wei fits, Option.map_some, satsToWei_eq]

private theorem l2Balance_of_wide (wide : 2 ^ 128 ≤ wei.toNat) :
    l2Balance toU128 (.ok wei) = none := by
  unfold l2Balance getDefaultSignerBalance
  simp only [documented.panics wei wide, Option.map_none]

private theorem challengeDifficulty_of_fits
    {ar : Arithmetic} {state : AppState} {spendable : Amount}
    (fits : wei.toNat < 2 ^ 128) :
    challengeDifficulty ar toU128 state .l2 spendable (.ok wei) =
      some (.ok (calculateDifficulty ar state.l2DifficultyConfig
        (truncate 64 (wei.toNat / 10 ^ 10)))) := by
  unfold challengeDifficulty balance
  simp only [l2Balance_of_fits documented fits, Option.map_some]
  rfl

private theorem l2Balance_eq_saturate :
    l2Balance toU128 (.ok wei) = some (.ok (saturate 64 (wei.toNat / 10 ^ 10))) ↔
      wei.toNat < 2 ^ 128 ∧ (wei.toNat / 10 ^ 10 < 2 ^ 64 ∨
        wei.toNat / 10 ^ 10 % 2 ^ 64 = 2 ^ 64 - 1) := by
  rcases Nat.lt_or_ge wei.toNat (2 ^ 128) with fits | wide
  · rw [l2Balance_of_fits documented fits, Option.some_inj, Except.ok.injEq, truncate_eq_saturate]
    exact (and_iff_right fits).symm
  · rw [l2Balance_of_wide documented wide]
    exact iff_of_false (by simp) fun within => absurd within.1 (Nat.not_lt.mpr wide)

private theorem exactAt_iff {state : AppState} (antitone : ∀ x y : Amount, x ≤ y →
      calculateDifficulty .exact state.l2DifficultyConfig y ≤
        calculateDifficulty .exact state.l2DifficultyConfig x) :
    ExactAt toU128 state wei ↔
      wei.toNat < 2 ^ 128 ∧ (wei.toNat / 10 ^ 10 < 2 ^ 64 ∨
        wei.toNat / 10 ^ 10 % 2 ^ 64 = 2 ^ 64 - 1) := by
  constructor
  · intro exact
    exact (l2Balance_eq_saturate documented).mp exact.balance
  · intro condition
    have capped := truncate_eq_saturate.mpr condition.2
    refine ⟨(l2Balance_eq_saturate documented).mpr condition, fun spendable => ?_, ?_⟩
    · rw [challengeDifficulty_of_fits documented condition.1, capped]
    · intro spendable wei' le
      have fits' : wei'.toNat < 2 ^ 128 := (BitVec.le_def.mp le).trans_lt condition.1
      refine ⟨_, _, challengeDifficulty_of_fits documented condition.1,
        challengeDifficulty_of_fits documented fits', antitone _ _ ?_⟩
      -- a balance that wraps below `wei` can only look smaller than it is
      calc truncate 64 (wei'.toNat / 10 ^ 10)
          ≤ saturate 64 (wei'.toNat / 10 ^ 10) := truncate_le_saturate
        _ ≤ saturate 64 (wei.toNat / 10 ^ 10) :=
            saturate_mono (Nat.div_le_div_right (BitVec.le_def.mp le))
        _ = truncate 64 (wei.toNat / 10 ^ 10) := capped.symm

end

/-- For all accepted settings: what `claim_l2` sends is exactly `10 ^ 10` times the amount per claim
and fits 64 bits, and for every balance that can be reported, the difficulty of L2 is exact if and
only if the balance fits 128 bits and its satoshis fit 64 bits or are all ones in the low 64. -/
theorem l2_conversions_exact_iff {IpSrc : Type} {display : Amount → String}
    {toU128 : U256 → Option ℕ} (documented : ConvertsTo128 toU128)
    {readSettings : ReadableSettings IpSrc} {settings : Settings IpSrc}
    (accepted : Settings.tryFrom display readSettings = .ok settings) :
    (10 ^ 10 * settings.l2.amountPerClaim < 2 ^ 64 ∧
      ∀ sha256 requireNetwork address,
        (l2Transaction (settings.env sha256 requireNetwork) address).value =
          10 ^ 10 * settings.l2.amountPerClaim) ∧
    ∀ state : AppState, settings.l2.difficultyConfig .exact = .ok state.l2DifficultyConfig →
      ∀ wei : U256, ExactAt toU128 state wei ↔
        wei.toNat < 2 ^ 128 ∧ (wei.toNat / 10 ^ 10 < 2 ^ 64 ∨
          wei.toNat / 10 ^ 10 % 2 ^ 64 = 2 ^ 64 - 1) := by
  have low := (amountPerClaim_le accepted).2
  refine ⟨⟨product_fits low, fun sha256 requireNetwork address => ?_⟩, fun state config wei => ?_⟩
  · exact l2Transaction_value (settings.env sha256 requireNetwork) low address
  · obtain ⟨bigL, _, built⟩ := new_ok config
    exact exactAt_iff documented fun x y le => difficulty_antitone built le

/-- `to::<u128>()` as a function. -/
def uintTo128 (x : U256) : Option ℕ := if x.toNat < 2 ^ 128 then some x.toNat else none

private theorem uintTo128_documented : ConvertsTo128 uintTo128 where
  fits _ fits := if_pos fits
  panics _ wide := if_neg (Nat.not_lt.mpr wide)

def defaultLayer : ReadableLayerConfig := ⟨none, none, none, 10000, none, none⟩

def defaultSettings : ReadableSettings Unit where
  host := none
  port := none
  ipSrc := ()
  seedFile := none
  sqliteFile := none
  network := none
  esplora := "https://esplora.testnet.alpenlabs.io"
  l2HttpEndpoint := "https://rpc.testnet.alpenlabs.io"
  batcher := none
  l1 := defaultLayer
  l2 := defaultLayer

/-- What the default settings are read as. -/
def startSettings : Settings Unit :=
  ⟨.v4 UNSPECIFIED, 3000, (), ⟨"faucet.seed"⟩, ⟨"faucet.sqlite"⟩, .signet,
    "https://esplora.testnet.alpenlabs.io", "https://rpc.testnet.alpenlabs.io", .default,
    .ofReadable defaultLayer, .ofReadable defaultLayer⟩

/-- What `DifficultyConfig::new` makes of the default layer. -/
def defaultConfig : DifficultyConfig := ⟨64, 18, 0, 200000, -46 / 200000, 64⟩

theorem l2_conversions_exact_iff_nonvacuous :
    ∃ settings, Settings.tryFrom toString defaultSettings = .ok settings ∧
      10 ^ 10 * settings.l2.amountPerClaim < 2 ^ 64 ∧
      ∃ state : AppState, settings.l2.difficultyConfig .exact = .ok state.l2DifficultyConfig ∧
        ExactAt uintTo128 state (.ofNat 256 (10 ^ 18)) := by
  have accepted : Settings.tryFrom toString defaultSettings = .ok startSettings := rfl
  obtain ⟨⟨fits, _⟩, iff⟩ := l2_conversions_exact_iff uintTo128_documented accepted
  obtain ⟨config, built⟩ := defaults_accepted defaultLayer rfl rfl rfl rfl (by decide)
  refine ⟨_, accepted, fits, ⟨config, config⟩, built, ?_⟩
  exact (iff ⟨config, config⟩ built (.ofNat 256 (10 ^ 18))).mpr (by decide)

/-- With the default difficulties, a balance of `2 ^ 128` wei panics, and at `2 ^ 64 * 10 ^ 10` wei
the balance is zero and the difficulty goes up from 18 to 64. -/
theorem l2_balance_panics_and_wraps :
    ∃ settings, Settings.tryFrom toString defaultSettings = .ok settings ∧
      ∃ state : AppState, settings.l2.difficultyConfig .exact = .ok state.l2DifficultyConfig ∧
        ¬ ExactAt uintTo128 state (.ofNat 256 (2 ^ 128)) ∧
        ¬ ExactAt uintTo128 state (.ofNat 256 (2 ^ 64 * 10 ^ 10)) ∧
        challengeDifficulty .exact uintTo128 state .l2 0 (.ok (.ofNat 256 (2 ^ 128))) = none ∧
        challengeDifficulty .exact uintTo128 state .l2 0
          (.ok (.ofNat 256 (2 ^ 64 * 10 ^ 10 - 1))) = some (.ok 18) ∧
        challengeDifficulty .exact uintTo128 state .l2 0
          (.ok (.ofNat 256 (2 ^ 64 * 10 ^ 10))) = some (.ok 64) := by
  refine ⟨_, rfl, ⟨defaultConfig, defaultConfig⟩, by decide +kernel, ?_, ?_, by decide +kernel,
    by decide +kernel, by decide +kernel⟩
  · intro exact
    have reported := exact.balance
    revert reported
    decide +kernel
  · intro exact
    have reported := exact.balance
    revert reported
    decide +kernel

end FaucetApi.L2.Units
