/- module: FaucetApi/Faucet/Restarts
   layer: source model
   digest: The faucet over any number of starts and crashes, with its database and its seed file. -/

import FaucetApi.Batcher.LastSeen
import FaucetApi.Faucet.Machine
import FaucetApi.L1.Persister

/-!
Around the faucet's machine are the starts that get it to serve, and the crashes that end it. The
wallet's changes are written under the lock under which a batch is recorded or a sync is applied, so
that is part of the same step. Where the write fails the task panics. The release profile aborts on
a panic, so there the process crashes next; in a profile that unwinds only the task ends, which
leaves the broadcast task nothing to do and the syncer gone. The challenges, the queue and the tasks
are in memory only.
-/

set_option autoImplicit false
set_option relaxedAutoImplicit false

namespace FaucetApi.Faucet.Restarts

open FaucetApi.Lib.Runs
open FaucetApi.Lib.Journaling
open FaucetApi.SavableSeed (Seed)
open FaucetApi.Startup (Network)
open FaucetApi.Pow.Claims
open FaucetApi.Batcher.Wallet
open FaucetApi.Batcher.Machine (BatcherConfig seconds)
open FaucetApi.L1.Persister
open FaucetApi.Faucet.Machine (FaucetRun FaucetTrace)

structure Process (W Tx C : Type) where
  network : Network
  seed : Seed
  faucet : Faucet.Machine.State W Tx
  /-- The changes of the wallet that are not written yet. -/
  staged : C
  syncerAlive : Bool

inductive Phase (W Tx C : Type) where
  /-- The last process ended at this time, in milliseconds since the epoch. -/
  | down (clock : ℕ)
  | up (process : Process W Tx C)

structure State (W Tx C : Type) where
  storage : Storage C
  phase : Phase W Tx C

inductive Label (Tx : Type) where
  | live (label : Faucet.Machine.Label Tx)
  /-- A step of the process that persists the wallet, and whether that succeeds. -/
  | persisted (label : Faucet.Machine.Label Tx) (done : Bool)
  | crashed
  | served (around : Surroundings) (seed : Seed)
  | panicked (around : Surroundings) (panic : Panic)

/-- Whether the step calls an operation of the wallet that may change it. -/
def changesWallet {Tx : Type} : Faucet.Machine.Label Tx → Bool
  | .batcher (.tickFailed _) => true
  | .batcher (.built _) => true
  | .batcher (.recorded _) => true
  | .batcher (.syncApplied _) => true
  | _ => false

def persistsWallet {Tx : Type} : Faucet.Machine.Label Tx → Bool
  | .batcher (.recorded _) => true
  | .batcher (.syncApplied _) => true
  | _ => false

def startsSync {Tx : Type} : Faucet.Machine.Label Tx → Bool
  | .batcher .syncStarted => true
  | _ => false

def appliesSync {Tx : Type} : Faucet.Machine.Label Tx → Bool
  | .batcher (.syncApplied _) => true
  | _ => false

variable {W Tx C D : Type} [AddMonoid C] [AddAction C W]

/-- The wallet with its written and its unwritten changes. -/
def journal (storage : Storage C) (process : Process W Tx C) : Journal W C :=
  ⟨process.faucet.batcher.wallet, process.staged, storage.db⟩

/-- The changes that a step stages are what it does to the wallet, and name no keys. -/
structure Stages (cs : Changesets W C D) (w : W) (label : Faucet.Machine.Label Tx) (change : C)
    (w' : W) : Prop where
  applied : w' = change +ᵥ w
  unnamed : cs.keys change = none
  idle : changesWallet label = false → change = 0

/-- `main` starts to serve: with no challenge, an empty queue and the wallet. -/
def Begins (now : ℕ) (l1w : Journal W C) (process : Process W Tx C) : Prop :=
  Pow.Machine.Initial process.faucet.pow ∧
    process.faucet.batcher = ⟨now, [], [], l1w.content, [], .asleep⟩ ∧
    process.staged = l1w.staged ∧ process.syncerAlive = true

section

variable (env : Env) (bdk : Bdk W Tx) (cfg : BatcherConfig) (cs : Changesets W C D)
variable (derivation : Derivation D)

inductive Step [DecidableEq D] : State W Tx C → Label Tx → State W Tx C → Prop
  | live {storage : Storage C} {p : Process W Tx C} {label : Faucet.Machine.Label Tx}
      {faucet' : Faucet.Machine.State W Tx} {change : C} :
      Faucet.Machine.Step env bdk cfg p.faucet label faucet' → persistsWallet label = false →
      (startsSync label = true → p.syncerAlive = true) →
      Stages cs p.faucet.batcher.wallet label change faucet'.batcher.wallet →
      Step ⟨storage, .up p⟩ (.live label)
        ⟨storage, .up { p with faucet := faucet', staged := change + p.staged }⟩
  | persisted {storage : Storage C} {p : Process W Tx C} {label : Faucet.Machine.Label Tx}
      {faucet' : Faucet.Machine.State W Tx} {change : C} {succeeds : Bool} {l1w : Journal W C} :
      Faucet.Machine.Step env bdk cfg p.faucet label faucet' → persistsWallet label = true →
      Stages cs p.faucet.batcher.wallet label change faucet'.batcher.wallet →
      persist cs succeeds ((journal storage p).stage change) = .ok l1w →
      Step ⟨storage, .up p⟩ (.persisted label true)
        ⟨{ storage with db := l1w.durable },
          .up { p with faucet := faucet', staged := l1w.staged }⟩
  | unpersisted {storage : Storage C} {p : Process W Tx C} {label : Faucet.Machine.Label Tx}
      {faucet' : Faucet.Machine.State W Tx} {change : C} {succeeds : Bool} {error : Unit} :
      Faucet.Machine.Step env bdk cfg p.faucet label faucet' → persistsWallet label = true →
      Stages cs p.faucet.batcher.wallet label change faucet'.batcher.wallet →
      persist cs succeeds ((journal storage p).stage change) = .error error →
      Step ⟨storage, .up p⟩ (.persisted label false)
        ⟨storage, .up { p with
          faucet := faucet'
          staged := change + p.staged
          syncerAlive := p.syncerAlive && !appliesSync label }⟩
  | crashed {storage : Storage C} {p : Process W Tx C} :
      Step ⟨storage, .up p⟩ .crashed ⟨storage, .down p.faucet.batcher.now⟩
  | served {storage storage' : Storage C} {clock now : ℕ} {around : Surroundings} {seed : Seed}
      {l1w : Journal W C} {p : Process W Tx C} :
      boot cs derivation around storage = (.ok (seed, l1w), storage') →
      clock ≤ now → 0 < now → p.network = around.network → p.seed = seed → Begins now l1w p →
      Step ⟨storage, .down clock⟩ (.served around seed) ⟨storage', .up p⟩
  | panicked {storage storage' : Storage C} {clock now : ℕ} {around : Surroundings}
      {panic : Panic} :
      boot cs derivation around storage = (.error panic, storage') → clock ≤ now →
      Step ⟨storage, .down clock⟩ (.panicked around panic) ⟨storage', .down now⟩

/-- Before the first start there is no database; there may be a seed file. -/
def Initial (s : State W Tx C) : Prop :=
  s.storage.db = 0 ∧ ∃ clock, s.phase = .down clock

abbrev RestartRun [DecidableEq D] :=
  Run (Initial : State W Tx C → Prop) (Step env bdk cfg cs derivation)

end

abbrev RestartTrace (W Tx C : Type) := List (Transition (State W Tx C) (Label Tx))

def loaded (cs : Changesets W C D) (s : State W Tx C) : W := s.storage.db +ᵥ cs.blank

section

variable {env : Env} {bdk : Bdk W Tx} {cfg : BatcherConfig} {cs : Changesets W C D}
variable {derivation : Derivation D} {s s' : State W Tx C}
variable {p : Process W Tx C} {storage : Storage C} {ts : RestartTrace W Tx C} {l : Label Tx}

/-- What holds while the faucet serves: what it does is a run of its own, and its journal and its
database belong to the wallet of its seed. -/
structure Serving (env : Env) (bdk : Bdk W Tx) (cfg : BatcherConfig) (cs : Changesets W C D)
    (derivation : Derivation D) (storage : Storage C) (p : Process W Tx C) : Prop where
  sound : (journal storage p).Sound cs.blank
  unnamed : cs.keys p.staged = none
  keys : cs.keys storage.db = some (keysOf derivation p.network p.seed)
  evicted : ∀ tx, bdk.evictedAt (storage.db +ᵥ cs.blank) tx ≤
    (seconds p.faucet.batcher.now : WithBot ℕ)
  run : ∃ tr, FaucetRun env bdk cfg tr p.faucet

def Healthy (env : Env) (bdk : Bdk W Tx) (cfg : BatcherConfig) (cs : Changesets W C D)
    (derivation : Derivation D) (s : State W Tx C) : Prop :=
  match s.phase with
  | .down clock => cs.isEmpty s.storage.db = false →
      ∀ tx, bdk.evictedAt (loaded cs s) tx ≤ (seconds clock : WithBot ℕ)
  | .up p => Serving env bdk cfg cs derivation s.storage p

private theorem clock_mono
    {faucet faucet' : Faucet.Machine.State W Tx} {label : Faucet.Machine.Label Tx}
    (taken : Faucet.Machine.Step env bdk cfg faucet label faucet') :
    faucet.batcher.now ≤ faucet'.batcher.now := by
  have batcher {b b' : Batcher.Machine.State W Tx} {l : Batcher.Machine.Label Tx}
      (moved : Batcher.Machine.Step bdk cfg b l b') : b.now ≤ b'.now := by
    cases moved with
    | clock => exact Nat.le_add_right _ _
    | _ => exact le_rfl
  cases taken with
  | pow _ _ => exact le_rfl
  | claimed _ _ moved => exact batcher moved
  | batcher moved _ => exact batcher moved

private theorem seconds_mono {now now' : ℕ} (later : now ≤ now') :
    (seconds now : WithBot ℕ) ≤ (seconds now' : WithBot ℕ) :=
  WithBot.coe_le_coe.mpr (Nat.div_le_div_right later)

theorem evicted_le_now [DecidableEq Tx] (lawful : Lawful bdk)
    {tr : FaucetTrace W Tx} {faucet : Faucet.Machine.State W Tx}
    (run : FaucetRun env bdk cfg tr faucet) (tx : Tx) :
    bdk.evictedAt faucet.batcher.wallet tx ≤ (seconds faucet.batcher.now : WithBot ℕ) := by
  have clocks := Batcher.LastSeen.clocks_run lawful (Faucet.Machine.batcher_run run)
  exact (clocks.evicted tx).trans (WithBot.coe_le_coe.mpr clocks.started)

private theorem journal_staged {faucet' : Faucet.Machine.State W Tx} {alive : Bool} {change : C}
    (applied : faucet'.batcher.wallet = change +ᵥ p.faucet.batcher.wallet) :
    journal storage { p with
      faucet := faucet'
      staged := change + p.staged
      syncerAlive := alive } = (journal storage p).stage change := by
  change (⟨_, _, _⟩ : Journal W C) = ⟨_, _, _⟩
  rw [applied]
  rfl

theorem Serving.stage {faucet' : Faucet.Machine.State W Tx} {label : Faucet.Machine.Label Tx}
    {change : C} {alive : Bool} (doc : Documented bdk cs)
    (before : Serving env bdk cfg cs derivation storage p)
    (taken : Faucet.Machine.Step env bdk cfg p.faucet label faucet')
    (stages : Stages cs p.faucet.batcher.wallet label change faucet'.batcher.wallet) :
    Serving env bdk cfg cs derivation storage
      { p with faucet := faucet', staged := change + p.staged, syncerAlive := alive } := by
  refine ⟨?_, ?_, before.keys, fun tx => ?_, ?_⟩
  · rw [journal_staged stages.applied]
    exact before.sound.stage change
  · exact (doc.keys_later stages.unnamed).trans before.unnamed
  · exact (before.evicted tx).trans (seconds_mono (clock_mono taken))
  · obtain ⟨tr, run⟩ := before.run
    exact ⟨_, run.next taken⟩

theorem persisted_journal {faucet' : Faucet.Machine.State W Tx}
    {label : Faucet.Machine.Label Tx} {change : C} {succeeds : Bool} {l1w : Journal W C}
    (doc : Documented bdk cs) (sound : (journal storage p).Sound cs.blank)
    (stages : Stages cs p.faucet.batcher.wallet label change faucet'.batcher.wallet)
    (done : persist cs succeeds ((journal storage p).stage change) = .ok l1w) :
    l1w = ⟨faucet'.batcher.wallet, 0, change + p.staged + storage.db⟩ ∧
      l1w.durable +ᵥ cs.blank = faucet'.batcher.wallet := by
  obtain rfl := persist_commits doc done
  have saved := (sound.stage change).saved_commit
  refine ⟨?_, saved.trans stages.applied.symm⟩
  change (⟨_, _, _⟩ : Journal W C) = ⟨_, _, _⟩
  rw [stages.applied]
  rfl

private theorem Serving.write [DecidableEq Tx] {faucet' : Faucet.Machine.State W Tx}
    {label : Faucet.Machine.Label Tx} {change : C} {succeeds : Bool} {l1w : Journal W C}
    (lawful : Lawful bdk) (doc : Documented bdk cs)
    (before : Serving env bdk cfg cs derivation storage p)
    (taken : Faucet.Machine.Step env bdk cfg p.faucet label faucet')
    (stages : Stages cs p.faucet.batcher.wallet label change faucet'.batcher.wallet)
    (done : persist cs succeeds ((journal storage p).stage change) = .ok l1w) :
    Serving env bdk cfg cs derivation { storage with db := l1w.durable }
      { p with faucet := faucet', staged := l1w.staged } := by
  obtain ⟨tr, run⟩ := before.run
  obtain ⟨written, saved⟩ := persisted_journal doc before.sound stages done
  refine ⟨?_, ?_, ?_, fun tx => ?_, _, run.next taken⟩
  · change faucet'.batcher.wallet = l1w.staged +ᵥ (l1w.durable +ᵥ cs.blank)
    rw [saved, written, zero_vadd]
  · rw [written]
    exact doc.keys_zero
  · rw [written]
    change cs.keys (change + p.staged + storage.db) = _
    rw [doc.keys_later, before.keys]
    rw [doc.keys_later stages.unnamed, before.unnamed]
  · change bdk.evictedAt (l1w.durable +ᵥ cs.blank) tx ≤ _
    rw [saved]
    exact evicted_le_now lawful (run.next taken) tx

omit [AddMonoid C] [AddAction C W] in
private theorem begins_initial
    {now : ℕ} {l1w : Journal W C} (begins : Begins now l1w p) (pos : 0 < now)
    (evicted : ∀ tx, bdk.evictedAt l1w.content tx ≤ (seconds now : WithBot ℕ)) :
    Faucet.Machine.Initial bdk p.faucet := by
  obtain ⟨pow, batcher, _, _⟩ := begins
  refine ⟨pow, ?_⟩
  rw [batcher]
  exact ⟨pos, evicted, rfl, rfl, rfl, rfl⟩

private theorem begins_serving {now : ℕ} (doc : Documented bdk cs)
    (begins : Begins now ⟨storage.db +ᵥ cs.blank, 0, storage.db⟩ p) (pos : 0 < now)
    (keys : cs.keys storage.db = some (keysOf derivation p.network p.seed))
    (evicted : ∀ tx, bdk.evictedAt (storage.db +ᵥ cs.blank) tx ≤ (seconds now : WithBot ℕ)) :
    Serving env bdk cfg cs derivation storage p := by
  have init : Faucet.Machine.Initial bdk p.faucet := begins_initial begins pos evicted
  obtain ⟨_, batcher, staged, _⟩ := begins
  refine ⟨?_, ?_, keys, ?_, [], .start init⟩
  · change p.faucet.batcher.wallet = p.staged +ᵥ (storage.db +ᵥ cs.blank)
    rw [batcher, staged, zero_vadd]
  · rw [staged]
    exact doc.keys_zero
  · rw [batcher]
    exact evicted

private theorem boot_evicted [DecidableEq D] {storage' : Storage C} {clock now : ℕ}
    {around : Surroundings} {result : Except Panic (Seed × Journal W C)}
    (doc : Documented bdk cs)
    (booted : boot cs derivation around storage = (result, storage'))
    (before : cs.isEmpty storage.db = false →
      ∀ tx, bdk.evictedAt (storage.db +ᵥ cs.blank) tx ≤ (seconds clock : WithBot ℕ))
    (later : clock ≤ now) (there : cs.isEmpty storage'.db = false) (tx : Tx) :
    bdk.evictedAt (storage'.db +ᵥ cs.blank) tx ≤ (seconds now : WithBot ℕ) := by
  cases empty : cs.isEmpty storage.db with
  | false =>
      have same : bdk.evictedAt (storage'.db +ᵥ cs.blank) =
          bdk.evictedAt (storage.db +ᵥ cs.blank) :=
        congrArg (fun view => view.2.2) (boot_keeps doc booted empty).2.2
      rw [same]
      exact (before empty tx).trans (seconds_mono later)
  | true =>
      rcases boot_creates doc booted empty with still | fresh
      · rw [still] at there
        cases there
      · rw [fresh tx]
        exact bot_le

theorem served_initial [DecidableEq D] {around : Surroundings} {seed : Seed}
    (doc : Documented bdk cs) (before : Healthy env bdk cfg cs derivation s)
    (taken : Step env bdk cfg cs derivation s (.served around seed) s') :
    ∃ p, s'.phase = .up p ∧ Faucet.Machine.Initial bdk p.faucet := by
  cases taken with
  | served booted later pos _ _ begins =>
      obtain ⟨_, keys, rfl⟩ := boot_serves doc booted
      have evicted := boot_evicted doc booted before later (doc.nonempty_of_keys keys)
      exact ⟨_, rfl, begins_initial begins pos evicted⟩

theorem healthy_step [DecidableEq D] [DecidableEq Tx] (lawful : Lawful bdk)
    (doc : Documented bdk cs) (before : Healthy env bdk cfg cs derivation s)
    (taken : Step env bdk cfg cs derivation s l s') :
    Healthy env bdk cfg cs derivation s' := by
  cases taken with
  | live taken _ _ stages => exact Serving.stage doc before taken stages
  | persisted taken _ stages done => exact Serving.write lawful doc before taken stages done
  | unpersisted taken _ stages _ => exact Serving.stage doc before taken stages
  | crashed => exact fun _ tx => before.evicted tx
  | served booted later pos network seed begins =>
      obtain ⟨_, keys, rfl⟩ := boot_serves doc booted
      have evicted := boot_evicted doc booted before later (doc.nonempty_of_keys keys)
      exact begins_serving doc begins pos (network ▸ seed ▸ keys) evicted
  | panicked booted later =>
      exact fun there tx => boot_evicted doc booted before later there tx

theorem healthy_run [DecidableEq D] [DecidableEq Tx] (lawful : Lawful bdk)
    (doc : Documented bdk cs) (run : RestartRun env bdk cfg cs derivation ts s) :
    Healthy env bdk cfg cs derivation s := by
  refine run.invariant ?_ fun _ _ _ before taken => healthy_step lawful doc before taken
  rintro ⟨storage, phase⟩ ⟨empty, clock, rfl⟩
  exact fun there => absurd empty (doc.isEmpty_eq_false.mp there)

end

end FaucetApi.Faucet.Restarts
