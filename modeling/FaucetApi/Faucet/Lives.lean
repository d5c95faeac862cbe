/- module: FaucetApi/Faucet/Lives
   layer: results
   digest: The lives of the faucet between its starts and crashes, and what they pay together. -/

import FaucetApi.Faucet.Provenance
import FaucetApi.Faucet.Restarts
import Mathlib.Algebra.BigOperators.Ring.List

set_option autoImplicit false
set_option relaxedAutoImplicit false

namespace FaucetApi.Faucet.Lives

open FaucetApi.Lib.Runs
open FaucetApi.Lib.Simulation
open FaucetApi.Startup (Network)
open FaucetApi.SavableSeed (Seed)
open FaucetApi.Pow.Challenges
open FaucetApi.Pow.Claims
open FaucetApi.Pow.Consumption
open FaucetApi.Pow.Leasing
open FaucetApi.Pow.Storage
open FaucetApi.Batcher.Wallet
open FaucetApi.Batcher.Machine (BatcherConfig bootAt)
open FaucetApi.L1.Persister
open FaucetApi.Faucet.Machine (FaucetTrace powTrace)
open FaucetApi.Faucet.Admission
open FaucetApi.Faucet.Provenance
open FaucetApi.Faucet.Restarts

/-- What one process did. -/
structure Life (W Tx : Type) where
  first : Faucet.Machine.State W Tx
  trace : FaucetTrace W Tx
  last : Faucet.Machine.State W Tx

def follow {W Tx : Type} (label : Faucet.Machine.Label Tx) (faucet' : Faucet.Machine.State W Tx) :
    List (Life W Tx) → List (Life W Tx)
  | [] => []
  | life :: earlier =>
      ⟨life.first, life.trace ++ [⟨life.last, label, faucet'⟩], faucet'⟩ :: earlier

variable {W Tx C D : Type}

def extend (lives : List (Life W Tx)) (x : Transition (State W Tx C) (Label Tx)) :
    List (Life W Tx) :=
  match x.label, x.target.phase with
  | .served _ _, .up p => ⟨p.faucet, [], p.faucet⟩ :: lives
  | .live label, .up p => follow label p.faucet lives
  | .persisted label _, .up p => follow label p.faucet lives
  | _, _ => lives

/-- The lives that a run has had, the latest one first. -/
def lives (ts : RestartTrace W Tx C) : List (Life W Tx) := ts.foldl extend []

def serves : Label Tx → Bool
  | .served _ _ => true
  | _ => false

def Life.uptime (life : Life W Tx) : ℕ :=
  life.last.pow.shared.now - life.first.pow.shared.now

private theorem lives_snoc (ts : RestartTrace W Tx C) (x : Transition (State W Tx C) (Label Tx)) :
    lives (ts ++ [x]) = extend (lives ts) x := by
  rw [lives, List.foldl_append, List.foldl_cons, List.foldl_nil, ← lives]

noncomputable def Life.paid (life : Life W Tx) (ip : Ipv4Addr) : ℕ :=
  {request | request ∈ recipients life.last ∧ QueuedFor (powTrace life.trace) ip request}.ncard

def Life.sent (life : Life W Tx) : ℕ :=
  ((recipients life.last).map L1PayoutRequest.amount).sum

def everyone (ls : List (Life W Tx)) : Finset Ipv4Addr :=
  ls.foldr (fun life rest => clients (powTrace life.trace) ∪ rest) ∅

private theorem subset_everyone {ls : List (Life W Tx)} :
    ∀ life ∈ ls, clients (powTrace life.trace) ⊆ everyone ls := by
  induction ls with
  | nil => simp
  | cons life ls ih =>
      refine List.forall_mem_cons.mpr ⟨Finset.subset_union_left, fun later member => ?_⟩
      exact (ih later member).trans Finset.subset_union_right

private theorem sum_periods_le (period : ℕ) (ls : List (Life W Tx)) :
    (ls.map fun life => life.uptime / period + 1).sum ≤
      (ls.map Life.uptime).sum / period + ls.length := by
  induction ls with
  | nil => simp
  | cons life ls ih =>
      have parts := Nat.div_add_div_le_add_div (x := life.uptime) (y := (ls.map Life.uptime).sum)
        (z := period)
      simp only [List.map_cons, List.sum_cons, List.length_cons]
      omega

variable [AddMonoid C] [AddAction C W] [DecidableEq D]
variable {env : Env} {bdk : Bdk W Tx} {cfg : BatcherConfig} {cs : Changesets W C D}
variable {derivation : Derivation D} {s s' : State W Tx C}
variable {ts : RestartTrace W Tx C} {l : Label Tx}

/-- The lives of a run: each is a run of the faucet from its start, and the latest one is that of
the process that is up. -/
structure Lived (env : Env) (bdk : Bdk W Tx) (cfg : BatcherConfig) (ts : RestartTrace W Tx C)
    (s : State W Tx C) : Prop where
  runs : ∀ life ∈ lives ts, Faucet.Machine.Initial bdk life.first ∧
    Stretch (Faucet.Machine.Step env bdk cfg) life.first life.trace life.last
  starts : (lives ts).length = ts.countP fun x => serves x.label
  latest : ∀ p, s.phase = .up p → ∃ life earlier, lives ts = life :: earlier ∧
    life.last = p.faucet

omit [AddMonoid C] [AddAction C W] in
private theorem Lived.follow {p p' : Process W Tx C} {label : Faucet.Machine.Label Tx}
    (before : Lived env bdk cfg ts s) (up : s.phase = .up p) (up' : s'.phase = .up p')
    (extends_ : extend (lives ts) ⟨s, l, s'⟩ = Lives.follow label p'.faucet (lives ts))
    (quiet : serves l = false)
    (taken : Faucet.Machine.Step env bdk cfg p.faucet label p'.faucet) :
    Lived env bdk cfg (ts ++ [⟨s, l, s'⟩]) s' := by
  obtain ⟨life, earlier, split, last⟩ := before.latest p up
  have runs := before.runs
  have lengths := before.starts
  have now : lives (ts ++ [⟨s, l, s'⟩]) =
      ⟨life.first, life.trace ++ [⟨life.last, label, p'.faucet⟩], p'.faucet⟩ :: earlier := by
    rw [lives_snoc, extends_, split]
    rfl
  rw [split] at runs lengths
  obtain ⟨⟨init, run⟩, rest⟩ := List.forall_mem_cons.mp runs
  refine ⟨?_, ?_, fun q up'' => ?_⟩
  · rw [now]
    exact List.forall_mem_cons.mpr ⟨⟨init, run.next (last ▸ taken)⟩, rest⟩
  · rw [now, countP_snoc, ← lengths]
    simp [quiet]
  · obtain rfl : p' = q := Phase.up.inj (up'.symm.trans up'')
    exact ⟨_, earlier, now, rfl⟩

theorem lived_run [DecidableEq Tx] (lawful : Lawful bdk) (doc : Documented bdk cs)
    (run : RestartRun env bdk cfg cs derivation ts s) : Lived env bdk cfg ts s := by
  induction run with
  | start init =>
      obtain ⟨_, clock, down⟩ := init
      refine ⟨by simp [lives], by simp [lives], fun p up => ?_⟩
      rw [down] at up
      cases up
  | @next ts s s' label prior taken before =>
      cases taken with
      | live moved _ _ _ => exact before.follow rfl rfl rfl rfl moved
      | persisted moved _ _ _ => exact before.follow rfl rfl rfl rfl moved
      | unpersisted moved _ _ _ => exact before.follow rfl rfl rfl rfl moved
      | crashed =>
          refine ⟨?_, ?_, nofun⟩
          · rw [lives_snoc]
            exact before.runs
          · rw [lives_snoc, countP_snoc, ← before.starts]
            rfl
      | panicked _ _ =>
          refine ⟨?_, ?_, nofun⟩
          · rw [lives_snoc]
            exact before.runs
          · rw [lives_snoc, countP_snoc, ← before.starts]
            rfl
      | @served _ _ _ _ _ _ _ p booted later pos network seed begins =>
          obtain ⟨q, up, init⟩ := served_initial doc (healthy_run lawful doc prior)
            (.served booted later pos network seed begins)
          obtain rfl : p = q := Phase.up.inj up
          refine ⟨?_, ?_, fun q up' => ?_⟩ <;> rw [lives_snoc]
          · exact List.forall_mem_cons.mpr ⟨⟨init, .start rfl⟩, before.runs⟩
          · rw [countP_snoc, ← before.starts]
            rfl
          · obtain rfl : p = q := Phase.up.inj up'
            exact ⟨_, _, rfl, rfl⟩

/-! Whatever the faucet can do, a process can. -/

omit [DecidableEq D] in
private theorem stages_of_step {faucet faucet' : Faucet.Machine.State W Tx}
    {label : Faucet.Machine.Label Tx} (doc : Documented bdk cs)
    (taken : Faucet.Machine.Step env bdk cfg faucet label faucet') :
    ∃ change, Stages cs faucet.batcher.wallet label change faucet'.batcher.wallet := by
  have idle : faucet'.batcher.wallet = faucet.batcher.wallet → ∃ change,
      Stages cs faucet.batcher.wallet label change faucet'.batcher.wallet := by
    intro same
    exact ⟨0, same.trans (zero_vadd C _).symm, doc.keys_zero, fun _ => rfl⟩
  cases taken with
  | pow _ _ => exact idle rfl
  | claimed _ _ moved =>
      cases moved
      exact idle rfl
  | batcher moved _ =>
      cases moved with
      | tickFailed _ done | built _ done =>
          obtain ⟨change, unnamed, applied⟩ := doc.finish_staged _ _ _ _ _ done
          exact ⟨change, applied, unnamed, nofun⟩
      | @recorded i batch =>
          obtain ⟨change, unnamed, applied⟩ := doc.unconfirmed_staged faucet.batcher.wallet
            batch.tx faucet.batcher.now
          exact ⟨change, applied, unnamed, nofun⟩
      | @syncApplied update =>
          obtain ⟨change, unnamed, applied⟩ := doc.update_staged faucet.batcher.wallet update
          exact ⟨change, applied, unnamed, nofun⟩
      | _ => exact idle rfl

theorem process_step {storage : Storage C} {p : Process W Tx C}
    {faucet' : Faucet.Machine.State W Tx} {label : Faucet.Machine.Label Tx}
    (doc : Documented bdk cs) (alive : p.syncerAlive = true)
    (taken : Faucet.Machine.Step env bdk cfg p.faucet label faucet') :
    ∃ l db' staged', Step env bdk cfg cs derivation ⟨storage, .up p⟩ l
        ⟨{ storage with db := db' }, .up { p with faucet := faucet', staged := staged' }⟩ ∧
      (l = .live label ∨ l = .persisted label true) ∧
      (persistsWallet label = false → db' = storage.db) := by
  obtain ⟨change, stages⟩ := stages_of_step doc taken
  cases writes : persistsWallet label with
  | false =>
      exact ⟨_, _, _, .live taken writes (fun _ => alive) stages, .inl rfl, fun _ => rfl⟩
  | true =>
      exact ⟨_, _, _, .persisted taken writes stages (persist_succeeds doc), .inr rfl, nofun⟩

theorem process_follows {storage : Storage C} {p : Process W Tx C}
    {tr : FaucetTrace W Tx} {faucet' : Faucet.Machine.State W Tx} (doc : Documented bdk cs)
    (run : RestartRun env bdk cfg cs derivation ts ⟨storage, .up p⟩)
    (alive : p.syncerAlive = true) {life : Life W Tx} {earlier : List (Life W Tx)}
    (current : lives ts = life :: earlier) (last : life.last = p.faucet)
    (later : Stretch (Faucet.Machine.Step env bdk cfg) p.faucet tr faucet') :
    ∃ ts' db' staged', RestartRun env bdk cfg cs derivation ts'
        ⟨{ storage with db := db' }, .up { p with faucet := faucet', staged := staged' }⟩ ∧
      lives ts' = ⟨life.first, life.trace ++ tr, faucet'⟩ :: earlier ∧
      ((∀ x ∈ tr, persistsWallet x.label = false) → db' = storage.db) := by
  induction later with
  | start same =>
      subst same
      refine ⟨ts, storage.db, p.staged, run, ?_, fun _ => rfl⟩
      rw [current, List.append_nil, ← last]
  | @next tr faucet faucet' label _ taken ih =>
      obtain ⟨ts', db, staged, run', now, kept⟩ := ih
      obtain ⟨l, db', staged', moved, labels, quiet⟩ := process_step
        (p := { p with faucet := faucet, staged := staged }) doc alive taken
      refine ⟨_, db', staged', run'.next moved, ?_, fun all => ?_⟩
      · rw [lives_snoc, now]
        rcases labels with rfl | rfl <;>
          exact congrArg (fun tr => (⟨_, tr, _⟩ : Life W Tx) :: earlier) (List.append_assoc _ _ _)
      · have here := all _ (List.mem_append_right tr List.mem_cons_self)
        rw [quiet here]
        exact kept fun x member => all x (List.mem_append_left _ member)

/-! A faucet whose first sync finds the coin. -/

def sampleSeed : Seed := .replicate 32 7

def freshStorage : Storage LedgerChanges := ⟨some sampleSeed.toList, 0⟩

abbrev SampleRun := RestartRun sampleEnv ledgerBdk ⟨250, 2500⟩ ledgerChangesets sampleDerivation

def startedWith (now : ℕ) (w : Ledger) : Process Ledger ℕ LedgerChanges :=
  ⟨.signet, sampleSeed, ⟨boot.pow, ⟨now, [], [], w, [], .asleep⟩⟩, 0, true⟩

theorem fine_start {ts : RestartTrace Ledger ℕ LedgerChanges} {storage : Storage LedgerChanges}
    {clock now : ℕ} (run : SampleRun ts ⟨storage, .down clock⟩)
    (file : storage.seedFile = some sampleSeed.toList)
    (own : ledgerChangesets.isEmpty storage.db = true ∨
      ledgerChangesets.keys storage.db = some (keysOf sampleDerivation .signet sampleSeed))
    (later : clock ≤ now) (pos : 0 < now) :
    ∃ x storage' w, SampleRun (ts ++ [x]) ⟨storage', .up (startedWith now w)⟩ ∧
      lives (ts ++ [x]) =
        ⟨(startedWith now w).faucet, [], (startedWith now w).faucet⟩ :: lives ts ∧
      storage'.seedFile = storage.seedFile ∧
      if ledgerChangesets.isEmpty storage.db then w = ledgerChangesets.blank
      else w = storage.db +ᵥ ledgerChangesets.blank := by
  have loads : SavableSeed.read storage.seedFile fineSurroundings.seed = .ok (some sampleSeed) :=
    SavableSeed.read_loads.mpr ⟨file, rfl, rfl⟩
  obtain ⟨l1w, booted, new⟩ := boot_succeeds ledger_documented
    (show fineSurroundings.Fine from ⟨rfl, rfl, rfl, rfl⟩) loads own
  obtain ⟨_, _, _, opens⟩ := newWallet_opens ledger_documented new
  refine ⟨_, _, l1w.content, run.next (.served booted later pos rfl rfl ?_),
    lives_snoc _ _, rfl, ?_⟩
  · exact ⟨faucet_boot_initial.1, rfl, rfl, rfl⟩
  · split_ifs at opens ⊢ with empty
    · exact opens
    · rw [opens]
      rfl

private theorem first_sync_funds :
    ledgerChangesets.blank.update ⟨1, [], [0], []⟩ = fundedLedger := by
  simp [ledgerChangesets, Ledger.update, fundedLedger]

theorem funded_life : ∃ ts x storage staged, SampleRun (ts ++ [x])
      ⟨storage, .up { startedWith 1000 fundedLedger with staged := staged }⟩ ∧
    x.label = .persisted (.batcher (.syncApplied ⟨1, [], [0], []⟩)) true ∧
    storage.seedFile = some sampleSeed.toList ∧
    storage.db +ᵥ ledgerChangesets.blank = fundedLedger ∧
    ∃ life, lives (ts ++ [x]) = [life] ∧ life.last = bootFrom 1000 ∧
      ∀ x ∈ life.trace, InstallsFor 120 x := by
  have begin : SampleRun [] ⟨freshStorage, .down 0⟩ := .start ⟨rfl, 0, rfl⟩
  obtain ⟨_, storage, w, started, now, file, opened⟩ := fine_start begin rfl (.inl rfl)
    (Nat.zero_le 1000) (by decide)
  obtain rfl : w = ledgerChangesets.blank := opened
  have syncing := started.next (.live (.batcher (.syncStarted rfl) nofun) rfl (fun _ => rfl)
    ⟨(zero_vadd LedgerChanges _).symm, rfl, fun _ => rfl⟩)
  have synced : Batcher.Machine.Step ledgerBdk ⟨250, 2500⟩
      ⟨1000, [], [], ledgerChangesets.blank, [], .syncing 1⟩ (.syncApplied ⟨1, [], [0], []⟩)
      (bootAt 1000) := by
    rw [bootAt, ← first_sync_funds]
    exact .syncApplied rfl
  have stages : Stages ledgerChangesets ledgerChangesets.blank
      (.batcher (.syncApplied ⟨1, [], [0], []⟩)) (.of (.synced ⟨1, [], [0], []⟩)) fundedLedger :=
    ⟨first_sync_funds.symm, rfl, nofun⟩
  have written := persist_succeeds (j := (journal storage
    (startedWith 1000 ledgerChangesets.blank)).stage (.of (.synced ⟨1, [], [0], []⟩)))
    ledger_documented
  have funded := syncing.next (.persisted (.batcher synced nofun) rfl stages written)
  let first : Faucet.Machine.State Ledger ℕ :=
    ⟨boot.pow, ⟨1000, [], [], ledgerChangesets.blank, [], .asleep⟩⟩
  let second : Faucet.Machine.State Ledger ℕ :=
    ⟨boot.pow, ⟨1000, [], [], ledgerChangesets.blank, [], .syncing 1⟩⟩
  refine ⟨_, _, _, _, funded, rfl, file, ?_, ⟨first, [⟨first, .batcher .syncStarted, second⟩,
    ⟨second, .batcher (.syncApplied ⟨1, [], [0], []⟩), bootFrom 1000⟩], bootFrom 1000⟩, ?_,
    rfl, ?_⟩
  · have sound : (journal storage (startedWith 1000 ledgerChangesets.blank)).Sound
        ledgerChangesets.blank :=
      Serving.sound (healthy_run ledger_lawful ledger_documented started)
    exact (sound.stage _).saved_commit.trans first_sync_funds
  · rw [lives_snoc, lives_snoc, now]
    rfl
  · exact List.forall_mem_cons.mpr ⟨nofun, List.forall_mem_cons.mpr ⟨nofun, by simp⟩⟩

theorem paid_life {ts : RestartTrace Ledger ℕ LedgerChanges} {storage : Storage LedgerChanges}
    {now : ℕ} {staged : LedgerChanges}
    (run : SampleRun ts
      ⟨storage, .up { startedWith now fundedLedger with staged := staged }⟩)
    {life : Life Ledger ℕ} {earlier : List (Life Ledger ℕ)} (current : lives ts = life :: earlier)
    (last : life.last = bootFrom now) (installs : ∀ x ∈ life.trace, InstallsFor 120 x) :
    ∃ ts' staged' paid,
      SampleRun ts' ⟨storage, .up ⟨.signet, sampleSeed, paid.last, staged', true⟩⟩ ∧
      lives ts' = paid :: earlier ∧
      paid.last.batcher =
        ⟨now, [], [], fundedLedger, [⟨1, [firstRequest], .broadcasting⟩], .asleep⟩ ∧
      paid.last.pow.shared.now = 0 ∧ ∀ x ∈ paid.trace, InstallsFor 120 x := by
  obtain ⟨tr, faucet', later, batcher, clock, lasting, quiet⟩ := paid_stretch now
  obtain ⟨ts', db', staged', run', now', kept⟩ :=
    process_follows ledger_documented run rfl current last later
  obtain rfl : db' = storage.db := by
    refine kept fun x member => ?_
    obtain ⟨unrecorded, unsynced⟩ := quiet x member
    unfold persistsWallet
    split
    · exact (unrecorded _ ‹_›).elim
    · exact (unsynced _ ‹_›).elim
    · rfl
  refine ⟨ts', staged', ⟨life.first, life.trace ++ tr, faucet'⟩, run', now', batcher, clock, ?_⟩
  exact fun x member => (List.mem_append.mp member).elim (installs x) (lasting x)

/-- Over any number of restarts a client is paid once at most for every start of the faucet, and
once more at most for every full period that it has been up, where every challenge lasts at least a
period from its installation on; and the transactions of all lives together pay no more than that
for everyone who has asked for a challenge. -/
theorem restarts_forgive_once_each [DecidableEq Tx] {period : Duration} (pos : 0 < period)
    (lawful : Lawful bdk) (doc : Documented bdk cs)
    (run : RestartRun env bdk cfg cs derivation ts s)
    (lasting : ∀ life ∈ lives ts, ∀ x ∈ powTrace life.trace, Lasting period x) :
    (∀ ip, ((lives ts).map fun life => life.paid ip).sum ≤
      ((lives ts).map Life.uptime).sum / period + ts.countP fun x => serves x.label) ∧
    ((lives ts).map Life.sent).sum ≤ (everyone (lives ts)).card *
      (((lives ts).map Life.uptime).sum / period + ts.countP fun x => serves x.label) *
        env.l1AmountPerClaim := by
  have lived := lived_run lawful doc run
  have periods := sum_periods_le period (lives ts)
  rw [lived.starts] at periods
  refine ⟨fun ip => ?_, ?_⟩
  · refine (List.sum_le_sum fun life member => ?_).trans periods
    obtain ⟨init, stretch⟩ := lived.runs life member
    exact ncard_recipients_le pos init stretch (lasting life member) ip
  · calc ((lives ts).map Life.sent).sum
      _ ≤ ((lives ts).map fun life => (everyone (lives ts)).card *
            (life.uptime / period + 1) * env.l1AmountPerClaim).sum := by
          refine List.sum_le_sum fun life member => ?_
          obtain ⟨init, stretch⟩ := lived.runs life member
          refine (sum_recipients_le pos init stretch (lasting life member)).trans ?_
          refine Nat.mul_le_mul_right _ (Nat.mul_le_mul_right _ ?_)
          exact Finset.card_le_card (subset_everyone life member)
      _ = (everyone (lives ts)).card *
            ((lives ts).map fun life => life.uptime / period + 1).sum * env.l1AmountPerClaim := by
          rw [List.sum_map_mul_right, List.sum_map_mul_left]
      _ ≤ _ := Nat.mul_le_mul_right _ (Nat.mul_le_mul_left _ periods)

/-- The coin is paid in a life that ends before the batch is recorded, and again in the next one,
and no time has passed. -/
theorem restarts_forgive_once_each_nonvacuous : ∃ ts s, SampleRun ts s ∧
    (∀ life ∈ lives ts, ∀ x ∈ powTrace life.trace, Lasting 120 x) ∧
    (lives ts).map Life.sent = [5000, 5000] ∧ (lives ts).map Life.uptime = [0, 0] ∧
    ((lives ts).map Life.sent).sum ≤ (everyone (lives ts)).card *
      (((lives ts).map Life.uptime).sum / 120 + ts.countP fun x => serves x.label) *
        sampleEnv.l1AmountPerClaim := by
  obtain ⟨_, _, storage, _, funded, _, file, coin, life₀, current₀, last₀, installs₀⟩ := funded_life
  obtain ⟨_, _, life, paying, current, batcher, clock, installs⟩ :=
    paid_life funded current₀ last₀ installs₀
  have keys := Serving.keys (healthy_run ledger_lawful ledger_documented paying)
  have crashed := paying.next .crashed
  obtain ⟨_, storage', w, again, started, _, opened⟩ := fine_start crashed file (.inr keys)
    (show life.last.batcher.now ≤ 1000 by rw [batcher]) (by decide)
  rw [if_neg (by rw [ledger_documented.nonempty_of_keys keys]; exact Bool.false_ne_true),
    coin] at opened
  subst opened
  obtain ⟨ts, _, life', paying', current', batcher', clock', installs'⟩ :=
    paid_life again started rfl (by simp)
  have both : lives ts = [life', life] :=
    current'.trans (congrArg (life' :: ·) ((lives_snoc _ _).trans current))
  have sent (l : Life Ledger ℕ) (built : l.last.batcher = ⟨1000, [], [], fundedLedger,
      [⟨1, [firstRequest], .broadcasting⟩], .asleep⟩) : l.sent = 5000 := by
    rw [Life.sent, recipients, built]
    rfl
  have still (l : Life Ledger ℕ) (zero : l.last.pow.shared.now = 0) : l.uptime = 0 := by
    rw [Life.uptime, zero, Nat.zero_sub]
  have lasting : ∀ l ∈ lives ts, ∀ x ∈ powTrace l.trace, Lasting 120 x := by
    rw [both]
    exact List.forall_mem_cons.mpr ⟨lasting_projected installs',
      List.forall_mem_singleton.mpr (lasting_projected installs)⟩
  have limited := restarts_forgive_once_each (show 0 < 120 by decide) ledger_lawful
    ledger_documented paying' lasting
  refine ⟨_, _, paying', lasting, ?_, ?_, limited.2⟩ <;> rw [both]
  · rw [List.map_cons, List.map_singleton, sent life' batcher', sent life batcher]
  · rw [List.map_cons, List.map_singleton, still life' clock', still life clock]

end FaucetApi.Faucet.Lives
