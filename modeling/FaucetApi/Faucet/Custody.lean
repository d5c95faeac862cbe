/- module: FaucetApi/Faucet/Custody
   layer: results
   digest: Which seeds the faucet serves with, and what a start does that cannot load its seed. -/

import FaucetApi.Faucet.Lives

set_option autoImplicit false
set_option relaxedAutoImplicit false

namespace FaucetApi.Faucet.Custody

open FaucetApi.Lib.Runs
open FaucetApi.Lib.Simulation
open FaucetApi.Startup (Network)
open FaucetApi.SavableSeed (Seed)
open FaucetApi.Pow.Claims
open FaucetApi.Batcher.Wallet
open FaucetApi.Batcher.Machine (BatcherConfig)
open FaucetApi.L1.Persister
open FaucetApi.Faucet.Restarts

variable {W Tx C D : Type} [AddMonoid C] [AddAction C W] [DecidableEq D]
variable {env : Env} {bdk : Bdk W Tx} {cfg : BatcherConfig} {cs : Changesets W C D}
variable {derivation : Derivation D} {s s' : State W Tx C}
variable {ts a b : RestartTrace W Tx C} {l : Label Tx} {keys : Keys D}
variable {x : Transition (State W Tx C) (Label Tx)} {around : Surroundings} {seed : Seed}

def startOf : Label Tx → Option Surroundings
  | .served around _ => some around
  | .panicked around _ => some around
  | _ => none

theorem keys_kept [DecidableEq Tx] (doc : Documented bdk cs) (lawful : Lawful bdk)
    (healthy : Healthy env bdk cfg cs derivation s)
    (taken : Step env bdk cfg cs derivation s l s')
    (named : cs.keys s.storage.db = some keys) : cs.keys s'.storage.db = some keys := by
  have after := healthy_step lawful doc healthy taken
  cases taken with
  | persisted _ _ _ _ =>
      have kept := (Serving.keys healthy).symm.trans named
      exact (Serving.keys after).trans kept
  | served booted _ _ _ _ _ | panicked booted _ =>
      have there := doc.nonempty_of_keys named
      exact ((boot_keeps doc booted there).2.1).trans named
  | _ => exact named

private theorem served_keys (doc : Documented bdk cs)
    (taken : Step env bdk cfg cs derivation s (.served around seed) s') :
    cs.keys s'.storage.db = some (keysOf derivation around.network seed) := by
  cases taken with
  | served booted _ _ _ _ _ => exact (boot_serves doc booted).2.1

private theorem keys_since_served [DecidableEq Tx] (lawful : Lawful bdk) (doc : Documented bdk cs)
    (run : RestartRun env bdk cfg cs derivation ts s) (split : ts = a ++ x :: b)
    (served : x.label = .served around seed) :
    cs.keys s.storage.db = some (keysOf derivation around.network seed) := by
  have healthy := healthy_run lawful doc (run.cut split)
  have taken := run.step_at split
  have kept := holds_since
    (P := fun s => Healthy env bdk cfg cs derivation s ∧
      cs.keys s.storage.db = some (keysOf derivation around.network seed))
    run split ⟨healthy_step lawful doc healthy taken, served_keys doc (served ▸ taken)⟩
    fun y _ before taken =>
      ⟨healthy_step lawful doc before.1 taken, keys_kept doc lawful before.1 taken before.2⟩
  exact kept.2

/-- The seed file holds a seed that is not the wallet's, and no process runs. -/
structure SeedLost (cs : Changesets W C D) (derivation : Derivation D) (drawn : Seed) (db : C)
    (s : State W Tx C) : Prop where
  storage : s.storage = ⟨some drawn.toList, db⟩
  there : cs.isEmpty db = false
  other : ∀ network, cs.keys db ≠ some (keysOf derivation network drawn)
  down : ∃ clock, s.phase = .down clock

theorem SeedLost.step {drawn : Seed} {db : C} (lost : SeedLost cs derivation drawn db s)
    (reads : ∀ around, startOf l = some around →
      around.seed.testSucceeds = true ∧ around.seed.readSucceeds = true)
    (taken : Step env bdk cfg cs derivation s l s') :
    SeedLost cs derivation drawn db s' ∧ ∀ around seed, l ≠ .served around seed := by
  obtain ⟨stored, there, other, clock, down⟩ := lost
  obtain ⟨storage, phase⟩ := s
  obtain rfl : storage = ⟨some drawn.toList, db⟩ := stored
  have refused (around : Surroundings) (start : startOf l = some around) :
      boot cs derivation around ⟨some drawn.toList, db⟩ =
        (.error .walletLoad, ⟨some drawn.toList, db⟩) := by
    obtain ⟨test, read⟩ := reads around start
    exact boot_refuses (SavableSeed.read_loads.mpr ⟨rfl, test, read⟩) there (other _)
  cases taken with
  | served booted _ _ _ _ _ =>
      rw [refused _ rfl] at booted
      cases booted
  | panicked booted _ =>
      rw [refused _ rfl] at booted
      obtain ⟨_, rfl⟩ := Prod.mk.inj booted
      exact ⟨⟨rfl, there, other, _, rfl⟩, nofun⟩
  | _ => cases down

theorem seed_lost (there : cs.isEmpty s.storage.db = false) (start : startOf l = some around)
    (fails : ∀ seed, SavableSeed.read s.storage.seedFile around.seed ≠ .ok (some seed))
    (written : around.seed.writeOutcome = .done)
    (other : ∀ network, cs.keys s.storage.db ≠ some (keysOf derivation network around.seed.drawn))
    (taken : Step env bdk cfg cs derivation s l s') :
    SeedLost cs derivation around.seed.drawn s.storage.db s' ∧
      l = .panicked around .walletLoad := by
  have replaced := boot_replaces_seed fails written there (other _)
  cases taken with
  | served booted _ _ _ _ _ =>
      obtain rfl := Option.some.inj start
      rw [replaced] at booted
      cases booted
  | panicked booted _ =>
      obtain rfl := Option.some.inj start
      rw [replaced] at booted
      obtain ⟨panic, rfl⟩ := Prod.mk.inj booted
      obtain rfl := Except.error.inj panic
      exact ⟨⟨rfl, there, other, _, rfl⟩, rfl⟩
  | _ => cases start

theorem processes_share_keys [DecidableEq Tx] (lawful : Lawful bdk) (doc : Documented bdk cs)
    (run : RestartRun env bdk cfg cs derivation ts s) :
    ts.Pairwise fun x y => ∀ around seed around' seed', x.label = .served around seed →
      y.label = .served around' seed' →
        keysOf derivation around'.network seed' = keysOf derivation around.network seed := by
  induction run with
  | start _ => exact List.Pairwise.nil
  | @next ts s s' label prior taken ih =>
      rw [List.pairwise_append]
      refine ⟨ih, List.pairwise_singleton _ _, fun x old y new => ?_⟩
      obtain rfl := List.mem_singleton.mp new
      rintro around seed around' seed' served rfl
      obtain ⟨a, b, split⟩ := List.append_of_mem old
      have named := keys_since_served lawful doc prior split served
      have kept := keys_kept doc lawful (healthy_run lawful doc prior) taken named
      exact Option.some.inj ((served_keys doc taken).symm.trans kept)

/-- After a start that lost the seed, no start that can read the file serves. -/
theorem nothing_serves_after [DecidableEq Tx]
    (run : RestartRun env bdk cfg cs derivation ts s) (split : ts = a ++ x :: b)
    (start : startOf x.label = some around) (there : cs.isEmpty x.source.storage.db = false)
    (fails : ∀ seed, SavableSeed.read x.source.storage.seedFile around.seed ≠ .ok (some seed))
    (written : around.seed.writeOutcome = .done)
    (other : ∀ network,
      cs.keys x.source.storage.db ≠ some (keysOf derivation network around.seed.drawn))
    (reads : ∀ y ∈ b, ∀ around', startOf y.label = some around' →
      around'.seed.testSucceeds = true ∧ around'.seed.readSucceeds = true) :
    s.storage = ⟨some around.seed.drawn.toList, x.source.storage.db⟩ ∧
      x.label = .panicked around .walletLoad ∧
      ∀ y ∈ b, ∀ around' seed, y.label ≠ .served around' seed := by
  obtain ⟨lost, label⟩ := seed_lost there start fails written other (run.step_at split)
  have keep : ∀ y ∈ b,
      SeedLost cs derivation around.seed.drawn x.source.storage.db y.source →
      Step env bdk cfg cs derivation y.source y.label y.target →
      SeedLost cs derivation around.seed.drawn x.source.storage.db y.target :=
    fun y member before taken => (before.step (reads y member) taken).1
  refine ⟨(holds_since run split lost keep).storage, label, fun y member => ?_⟩
  have before := holds_before run split lost keep y member
  have taken := run.step_of_mem (split ▸ List.mem_append_right _ (List.mem_cons_of_mem _ member))
  exact (before.step (reads y member) taken).2

/-- A start under another network than the wallet's panics, and writes nothing to the database. -/
theorem other_network_panics (doc : Documented bdk cs) (named : cs.keys s.storage.db = some keys)
    (start : startOf l = some around) (other : around.network ≠ keys.network)
    (taken : Step env bdk cfg cs derivation s l s') :
    (∃ panic, l = .panicked around panic) ∧ s'.storage.db = s.storage.db := by
  obtain ⟨_, _, refused⟩ : ∃ panic seedFile, boot cs derivation around s.storage =
      (.error panic, ⟨seedFile, s.storage.db⟩) :=
    boot_refuses_network (doc.nonempty_of_keys named) named other
  cases taken with
  | served booted _ _ _ _ _ =>
      obtain rfl := Option.some.inj start
      rw [refused] at booted
      cases booted
  | panicked booted _ =>
      obtain rfl := Option.some.inj start
      rw [refused] at booted
      obtain ⟨_, rfl⟩ := Prod.mk.inj booted
      exact ⟨⟨_, rfl⟩, rfl⟩
  | _ => cases start

/-- Every process serves with the keys of the first one, descriptors and network. A start under
another network than the wallet's panics. Where a start cannot load the seed file it puts another
seed there, and does not get past a wallet that is not of this seed: it panics, and so does every
later start that can read the file. -/
theorem faucet_serves_one_wallet [DecidableEq Tx] (lawful : Lawful bdk) (doc : Documented bdk cs)
    (run : RestartRun env bdk cfg cs derivation ts s) :
    (ts.Pairwise fun x y => ∀ around seed around' seed', x.label = .served around seed →
      y.label = .served around' seed' →
        keysOf derivation around'.network seed' = keysOf derivation around.network seed) ∧
    (∀ x ∈ ts, ∀ around keys, startOf x.label = some around →
      cs.keys x.source.storage.db = some keys → around.network ≠ keys.network →
      (∃ panic, x.label = .panicked around panic) ∧
        x.target.storage.db = x.source.storage.db) ∧
    ∀ a x b around, ts = a ++ x :: b → startOf x.label = some around →
      cs.isEmpty x.source.storage.db = false →
      (∀ seed, SavableSeed.read x.source.storage.seedFile around.seed ≠ .ok (some seed)) →
      around.seed.writeOutcome = .done →
      (∀ network, cs.keys x.source.storage.db ≠
        some (keysOf derivation network around.seed.drawn)) →
      (∀ y ∈ b, ∀ around', startOf y.label = some around' →
        around'.seed.testSucceeds = true ∧ around'.seed.readSucceeds = true) →
      s.storage = ⟨some around.seed.drawn.toList, x.source.storage.db⟩ ∧
        x.label = .panicked around .walletLoad ∧
        ∀ y ∈ b, ∀ around' seed, y.label ≠ .served around' seed := by
  refine ⟨processes_share_keys lawful doc run, ?_, ?_⟩
  · intro x member around keys start named other
    exact other_network_panics doc named start other (run.step_of_mem member)
  · intro a x b around split start there fails written other reads
    exact nothing_serves_after run split start there fails written other reads

def elsewhere : Surroundings := { fineSurroundings with network := .bitcoin }

def unreadable : Surroundings :=
  { fineSurroundings with seed := ⟨true, false, .replicate 32 2, .done⟩ }

/-- After its first life the faucet is started under another network. Then it fails to read the seed
once, and does not serve when it can be read again. -/
theorem faucet_serves_one_wallet_nonvacuous : ∃ a w x b s,
    Lives.SampleRun (a ++ w :: x :: b) s ∧ (∃ y ∈ a, y.label = .crashed) ∧
    (∃ panic, w.label = .panicked elsewhere panic) ∧
    x.label = .panicked unreadable .walletLoad ∧
    b.map (fun y => startOf y.label) = [some fineSurroundings] ∧
    s.storage.seedFile = some (List.replicate 32 2) ∧
    ∀ y ∈ b, ∀ around seed, y.label ≠ .served around seed := by
  obtain ⟨_, _, storage, _, funded, _⟩ := Lives.funded_life
  have serving := Serving.keys (healthy_run ledger_lawful ledger_documented funded)
  have keys : ledgerChangesets.keys storage.db =
      some (keysOf sampleDerivation .signet Lives.sampleSeed) := serving
  have there := ledger_documented.nonempty_of_keys keys
  have other (network : Network) : ledgerChangesets.keys storage.db ≠
      some (keysOf sampleDerivation network unreadable.seed.drawn) := by
    intro same
    have descriptor := congrArg Keys.external (Option.some.inj (keys.symm.trans same))
    exact absurd (descriptor.trans (show _ = (keysOf sampleDerivation .signet _).external from rfl))
      (by decide)
  have fails (seedFile : SavableSeed.Disk) (seed : Seed) :
      SavableSeed.read seedFile unreadable.seed ≠ .ok (some seed) := by
    intro loads
    exact absurd (SavableSeed.read_loads.mp loads).2.2 (by decide)
  obtain ⟨panic, seedFile, refused⟩ : ∃ panic seedFile,
      boot ledgerChangesets sampleDerivation elsewhere storage =
        (.error panic, ⟨seedFile, storage.db⟩) := boot_refuses_network there keys (by decide)
  have replaced : boot ledgerChangesets sampleDerivation unreadable ⟨seedFile, storage.db⟩ =
      (.error .walletLoad, ⟨some unreadable.seed.drawn.toList, storage.db⟩) :=
    boot_replaces_seed (fails seedFile) rfl there (other _)
  have refusedToo : boot ledgerChangesets sampleDerivation fineSurroundings
      ⟨some unreadable.seed.drawn.toList, storage.db⟩ =
        (.error .walletLoad, ⟨some unreadable.seed.drawn.toList, storage.db⟩) :=
    boot_refuses (SavableSeed.read_loads.mpr ⟨rfl, rfl, rfl⟩) there (other _)
  have first := (funded.next .crashed).next (.panicked refused le_rfl)
  have again := (first.next (.panicked replaced le_rfl)).next (.panicked refusedToo le_rfl)
  have trace := again
  rw [List.append_assoc _ [_] [_]] at trace
  have after := (faucet_serves_one_wallet ledger_lawful ledger_documented trace).2.2 _ _ _
    unreadable rfl rfl there (fails seedFile) rfl other (by
      refine List.forall_mem_singleton.mpr ?_
      rintro _ ⟨⟩
      exact ⟨rfl, rfl⟩)
  rw [List.append_assoc _ [_] (_ ++ _)] at trace
  refine ⟨_, _, _, _, _, trace, ?_, ⟨panic, rfl⟩, after.2.1, rfl, ?_, after.2.2⟩
  · exact ⟨_, List.mem_append_right _ List.mem_cons_self, rfl⟩
  · rw [after.1]
    rfl

end FaucetApi.Faucet.Custody
