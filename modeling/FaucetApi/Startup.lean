/- module: FaucetApi/Startup
   layer: source model
   digest: The settings that are read, the check and the defaults that make them the faucet's. -/

import FaucetApi.Batcher.Machine
import FaucetApi.Difficulty.Config

set_option autoImplicit false
set_option relaxedAutoImplicit false

namespace FaucetApi.Startup

open FaucetApi.Lib.Floating
open FaucetApi.Pow.Challenges
open FaucetApi.Pow.Claims
open FaucetApi.Difficulty.Config
open FaucetApi.Batcher

inductive IpAddr where
  | v4 (ip : Ipv4Addr)
  | v6 (bits : BitVec 128)
  deriving DecidableEq

def UNSPECIFIED : Ipv4Addr := ⟨0⟩

inductive Network where
  | bitcoin
  | testnet
  | testnet4
  | signet
  | regtest
  deriving DecidableEq, Repr

structure PathBuf where
  text : String
  deriving DecidableEq

/-- `PathBuf::from_str`, whose error type is `Infallible`. -/
def PathBuf.fromStr (text : String) : Except Empty PathBuf := .ok ⟨text⟩

def fromSecs (secs : ℕ) : Duration := secs * 1000000000

structure BatcherConfig extends Machine.BatcherConfig where
  period : Duration

def BatcherConfig.default : BatcherConfig where
  period := fromSecs 180
  maxPerTx := 250
  maxInFlight := 2500

structure ReadableLayerConfig where
  minDifficulty : Option UInt8
  maxDifficulty : Option UInt8
  minBalance : Option Amount
  amountPerClaim : Amount
  difficultyIncreaseCoeff : Option FloatValue
  challengeDuration : Option Duration

structure LayerConfig where
  minDifficulty : UInt8
  maxDifficulty : UInt8
  minBalance : Amount
  amountPerClaim : Amount
  difficultyIncreaseCoeff : FloatValue
  challengeDuration : Duration

/-- `LayerConfig::from`. -/
def LayerConfig.ofReadable (value : ReadableLayerConfig) : LayerConfig where
  minDifficulty := value.minDifficulty.getD 18
  maxDifficulty := value.maxDifficulty.getD 64
  minBalance := value.minBalance.getD 0
  amountPerClaim := value.amountPerClaim
  difficultyIncreaseCoeff := value.difficultyIncreaseCoeff.getD (.finite 20)
  challengeDuration := value.challengeDuration.getD (fromSecs 120)

/-- `IpSrc` stands for `ClientIpSource`. -/
structure ReadableSettings (IpSrc : Type) where
  host : Option IpAddr
  port : Option UInt16
  ipSrc : IpSrc
  seedFile : Option String
  sqliteFile : Option String
  network : Option Network
  esplora : String
  l2HttpEndpoint : String
  batcher : Option BatcherConfig
  l1 : ReadableLayerConfig
  l2 : ReadableLayerConfig

structure Settings (IpSrc : Type) where
  host : IpAddr
  port : UInt16
  ipSrc : IpSrc
  seedFile : PathBuf
  sqliteFile : PathBuf
  network : Network
  esplora : String
  l2HttpEndpoint : String
  batcher : BatcherConfig
  l1 : LayerConfig
  l2 : LayerConfig

def MAX_SATS_PER_CLAIM : Amount := (2 ^ 64 - 1) / 10 ^ 10

inductive SettingsError where
  | tooHighSatsPerClaim
  | tooLowSatsPerClaim
  | invalidSeedPath (text : String)
  | invalidDatabasePath (text : String)
  deriving DecidableEq

/-- How `try_from` ends without settings. -/
inductive Refusal where
  | panic (message : String)
  | error (e : SettingsError)
  deriving DecidableEq

variable {IpSrc : Type}

/-- `Settings::try_from`; `display` is the `Display` of an amount. -/
def Settings.tryFrom (display : Amount → String) (readSettings : ReadableSettings IpSrc) :
    Except Refusal (Settings IpSrc) :=
  if readSettings.l1.amountPerClaim > MAX_SATS_PER_CLAIM then
    .error (.panic ("L1 sats per claim is too high, max is " ++ display MAX_SATS_PER_CLAIM))
  else if readSettings.l2.amountPerClaim > MAX_SATS_PER_CLAIM then
    .error (.panic ("L2 sats per claim is too high, max is " ++ display MAX_SATS_PER_CLAIM))
  else do
    let seedFile ← (PathBuf.fromStr (readSettings.seedFile.getD "faucet.seed")).mapError
      fun e => .error (.invalidSeedPath e.elim)
    let sqliteFile ← (PathBuf.fromStr (readSettings.sqliteFile.getD "faucet.sqlite")).mapError
      fun e => .error (.invalidDatabasePath e.elim)
    return {
      host := readSettings.host.getD (.v4 UNSPECIFIED)
      port := readSettings.port.getD 3000
      ipSrc := readSettings.ipSrc
      seedFile := seedFile
      sqliteFile := sqliteFile
      network := readSettings.network.getD .signet
      esplora := readSettings.esplora
      l2HttpEndpoint := readSettings.l2HttpEndpoint
      batcher := readSettings.batcher.getD .default
      l1 := .ofReadable readSettings.l1
      l2 := .ofReadable readSettings.l2 }

def LayerConfig.difficultyConfig (ar : Arithmetic) (layer : LayerConfig) :
    Except DifficultyConfigError DifficultyConfig :=
  DifficultyConfig.new ar layer.maxDifficulty layer.minDifficulty layer.minBalance
    layer.amountPerClaim layer.difficultyIncreaseCoeff

def Settings.env (sha256 : FaucetApi.Pow.Hash.Sha256)
    (requireNetwork : Network → UncheckedL1Address → Option L1Address)
    (settings : Settings IpSrc) : Env where
  sha256 := sha256
  requireNetwork := requireNetwork settings.network
  l1AmountPerClaim := settings.l1.amountPerClaim
  l2AmountPerClaim := settings.l2.amountPerClaim

variable {display : Amount → String} {readSettings : ReadableSettings IpSrc}
variable {settings : Settings IpSrc}

theorem tryFrom_cases (display : Amount → String) (readSettings : ReadableSettings IpSrc) :
    ((∃ settings, Settings.tryFrom display readSettings = .ok settings) ∧
      readSettings.l1.amountPerClaim ≤ MAX_SATS_PER_CLAIM ∧
      readSettings.l2.amountPerClaim ≤ MAX_SATS_PER_CLAIM) ∨
    ((∃ message, Settings.tryFrom display readSettings = .error (.panic message)) ∧
      (MAX_SATS_PER_CLAIM < readSettings.l1.amountPerClaim ∨
        MAX_SATS_PER_CLAIM < readSettings.l2.amountPerClaim)) := by
  unfold Settings.tryFrom
  split_ifs with high high'
  · exact .inr ⟨⟨_, rfl⟩, .inl high⟩
  · exact .inr ⟨⟨_, rfl⟩, .inr high'⟩
  · exact .inl ⟨⟨_, rfl⟩, not_lt.mp high, not_lt.mp high'⟩

private theorem tryFrom_layers (accepted : Settings.tryFrom display readSettings = .ok settings) :
    settings.l1 = .ofReadable readSettings.l1 ∧ settings.l2 = .ofReadable readSettings.l2 := by
  unfold Settings.tryFrom at accepted
  split_ifs at accepted
  obtain rfl := Except.ok.inj accepted
  exact ⟨rfl, rfl⟩

theorem amountPerClaim_le (accepted : Settings.tryFrom display readSettings = .ok settings) :
    settings.l1.amountPerClaim ≤ MAX_SATS_PER_CLAIM ∧
      settings.l2.amountPerClaim ≤ MAX_SATS_PER_CLAIM := by
  obtain ⟨l1, l2⟩ := tryFrom_layers accepted
  rw [l1, l2]
  rcases tryFrom_cases display readSettings with
    ⟨_, low⟩ | ⟨⟨message, refused⟩, _⟩
  · exact low
  · rw [refused] at accepted
    cases accepted

/-- In exact arithmetic nothing but the size of the product can be refused. -/
theorem precompute_exact {maxDiff minDiff : UInt8} {minBalance perClaim : Amount} {bigL : ℚ}
    (large : EPSILON ≤ |bigL * perClaim|) :
    ∃ config, precompute .exact maxDiff minDiff minBalance perClaim bigL = .ok config := by
  unfold precompute
  simp only [Arithmetic.exact, id_eq, Bool.true_eq_false, if_false]
  rw [if_neg (not_lt.mpr large)]
  exact ⟨_, rfl⟩

theorem defaults_accepted (layer : ReadableLayerConfig)
    (minDifficulty : layer.minDifficulty = none) (maxDifficulty : layer.maxDifficulty = none)
    (minBalance : layer.minBalance = none) (coeff : layer.difficultyIncreaseCoeff = none)
    (pos : 0 < layer.amountPerClaim) :
    ∃ config, (LayerConfig.ofReadable layer).difficultyConfig .exact = .ok config := by
  have one_le : (1 : ℚ) ≤ layer.amountPerClaim := by exact_mod_cast pos
  have large : EPSILON ≤ |(20 : ℚ) * layer.amountPerClaim| := by
    rw [abs_of_nonneg (by linarith)]
    norm_num [EPSILON]
    linarith
  unfold LayerConfig.difficultyConfig LayerConfig.ofReadable DifficultyConfig.new
  rw [minDifficulty, maxDifficulty, minBalance, coeff]
  simp only [Option.getD_none]
  rw [if_neg (by decide), if_neg pos.ne', if_neg (by decide)]
  exact precompute_exact large

end FaucetApi.Startup
