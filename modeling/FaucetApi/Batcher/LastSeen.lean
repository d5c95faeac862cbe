/- module: FaucetApi/Batcher/LastSeen
   layer: results
   digest: The times that the batcher and the syncer write, and when a sync drops a transaction. -/

import FaucetApi.Batcher.Accounting

set_option autoImplicit false
set_option relaxedAutoImplicit false

namespace FaucetApi.Batcher.LastSeen

open FaucetApi.Lib.Runs
open FaucetApi.Pow.Claims
open FaucetApi.Batcher.Wallet
open FaucetApi.Batcher.Machine
open FaucetApi.Batcher.Accounting

variable {W Tx : Type} {bdk : Bdk W Tx} {cfg : BatcherConfig}
variable {ts : Trace W Tx} {s : State W Tx}

/-- No sync that has brought something so far started after this second. -/
def horizon (s : State W Tx) : ℕ :=
  match s.syncer with
  | .asleep => seconds s.now
  | .syncing startTime => startTime

def bootWallet (ts : Trace W Tx) (s : State W Tx) : W :=
  match ts with
  | [] => s.wallet
  | x :: _ => x.source.wallet

private theorem bootWallet_snoc {s' : State W Tx} {label : Label Tx} :
    bootWallet (ts ++ [⟨s, label, s'⟩]) s' = bootWallet ts s := by
  cases ts <;> rfl

def RecordedAt (x : Transition (State W Tx) (Label Tx)) (tx : Tx) (millis : ℕ) : Prop :=
  ∃ i batch, x.label = .recorded i ∧ x.source.batches[i]? = some batch ∧ batch.tx = tx ∧
    x.source.now = millis

/-- The wallet's times, as the run made them. -/
structure Clocks (bdk : Bdk W Tx) (ts : Trace W Tx) (s : State W Tx) : Prop where
  started : horizon s ≤ seconds s.now
  evicted : ∀ tx, bdk.evictedAt s.wallet tx ≤ (horizon s : WithBot ℕ)
  booted : ∀ tx, bdk.lastSeen (bootWallet ts s) tx ≤ bdk.lastSeen s.wallet tx
  recorded : ∀ x ∈ ts, ∀ tx millis, RecordedAt x tx millis →
    (millis : WithBot ℕ) ≤ bdk.lastSeen s.wallet tx
  /-- Nothing else moves a last-seen time beyond the horizon. -/
  bounded : ∀ tx (bound : ℕ), bdk.lastSeen (bootWallet ts s) tx ≤ (bound : WithBot ℕ) →
    (∀ x ∈ ts, ∀ millis, RecordedAt x tx millis → millis ≤ bound) → horizon s ≤ bound →
      bdk.lastSeen s.wallet tx ≤ (bound : WithBot ℕ)

private theorem clocks_initial (init : Initial bdk s) : Clocks bdk [] s := by
  obtain ⟨_, evicted, _, _, _, asleep⟩ := init
  have now : horizon s = seconds s.now := by simp [horizon, asleep]
  refine ⟨now.le, fun tx => ?_, fun _ => le_rfl, by simp, fun _ _ boot _ _ => boot⟩
  rw [now]
  exact evicted tx

theorem Clocks.keep {s' : State W Tx} {label : Label Tx} (before : Clocks bdk ts s)
    (started : horizon s' ≤ seconds s'.now) (later : horizon s ≤ horizon s')
    (evictedAt : bdk.evictedAt s'.wallet = bdk.evictedAt s.wallet)
    (lastSeen : bdk.lastSeen s'.wallet = bdk.lastSeen s.wallet)
    (other : ∀ i, label ≠ .recorded i) : Clocks bdk (ts ++ [⟨s, label, s'⟩]) s' := by
  refine ⟨started, fun tx => ?_, fun tx => ?_, ?_, ?_⟩
  · rw [evictedAt]
    exact (before.evicted tx).trans (WithBot.coe_le_coe.mpr later)
  · rw [bootWallet_snoc, lastSeen]
    exact before.booted tx
  · rw [lastSeen]
    refine snoc_forall before.recorded ?_
    rintro tx millis ⟨i, batch, now, _⟩
    exact (other i now).elim
  · intro tx bound boot records horizon'
    rw [lastSeen]
    rw [bootWallet_snoc] at boot
    exact before.bounded tx bound boot
      (fun x member => records x (List.mem_append_left _ member)) (later.trans horizon')

private theorem Clocks.record {i : ℕ} {batch : Batch Tx} {sent : Bool} [DecidableEq Tx]
    (before : Clocks bdk ts s) (lawful : Lawful bdk) (here : s.batches[i]? = some batch) :
    Clocks bdk
      (ts ++ [⟨s, .recorded i, { s with
        wallet := bdk.applyUnconfirmedTxs s.wallet batch.tx s.now
        batches := s.batches.set i { batch with stage := .recorded sent } }⟩])
      { s with
        wallet := bdk.applyUnconfirmedTxs s.wallet batch.tx s.now
        batches := s.batches.set i { batch with stage := .recorded sent } } := by
  have grown (tx : Tx) : bdk.lastSeen s.wallet tx ≤
      bdk.lastSeen (bdk.applyUnconfirmedTxs s.wallet batch.tx s.now) tx := by
    rw [lawful.unconfirmed_lastSeen]
    split
    · rename_i same
      exact same ▸ le_sup_left
    · exact le_rfl
  have own (s' : State W Tx) : RecordedAt ⟨s, .recorded i, s'⟩ batch.tx s.now :=
    ⟨i, batch, rfl, here, rfl, rfl⟩
  refine ⟨before.started, fun tx => ?_, fun tx => ?_, snoc_forall ?_ ?_, ?_⟩
  · change bdk.evictedAt (bdk.applyUnconfirmedTxs s.wallet batch.tx s.now) tx ≤ _
    rw [lawful.unconfirmed_evictedAt]
    exact before.evicted tx
  · rw [bootWallet_snoc]
    exact (before.booted tx).trans (grown tx)
  · exact fun x member tx millis recorded =>
      (before.recorded x member tx millis recorded).trans (grown tx)
  · rintro tx millis ⟨j, batch', label, there, rfl, rfl⟩
    obtain rfl := Label.recorded.inj label
    obtain rfl := Option.some.inj (here.symm.trans there)
    change (s.now : WithBot ℕ) ≤ bdk.lastSeen (bdk.applyUnconfirmedTxs s.wallet batch.tx s.now) _
    rw [lawful.unconfirmed_lastSeen, if_pos rfl]
    exact le_sup_right
  · intro tx bound boot records later
    rw [bootWallet_snoc] at boot
    have old := before.bounded tx bound boot
      (fun x member => records x (List.mem_append_left _ member)) later
    change bdk.lastSeen (bdk.applyUnconfirmedTxs s.wallet batch.tx s.now) tx ≤ _
    rw [lawful.unconfirmed_lastSeen]
    split
    · rename_i same
      subst same
      have new := records _ (List.mem_append_right _ List.mem_cons_self) s.now (own _)
      exact sup_le old (WithBot.coe_le_coe.mpr new)
    · exact old

private theorem Clocks.sync {update : Update Tx} [DecidableEq Tx] (before : Clocks bdk ts s)
    (lawful : Lawful bdk) (syncing : s.syncer = .syncing update.startTime) :
    Clocks bdk
      (ts ++ [⟨s, .syncApplied update,
        { s with wallet := bdk.applyUpdate s.wallet update, syncer := .asleep }⟩])
      { s with wallet := bdk.applyUpdate s.wallet update, syncer := .asleep } := by
  have start : horizon s = update.startTime := by simp [horizon, syncing]
  have past : update.startTime ≤ seconds s.now := start ▸ before.started
  have grown (tx : Tx) :
      bdk.lastSeen s.wallet tx ≤ bdk.lastSeen (bdk.applyUpdate s.wallet update) tx := by
    rw [lawful.update_lastSeen]
    split
    · exact le_sup_left
    · exact le_rfl
  refine ⟨le_rfl, fun tx => ?_, fun tx => ?_, snoc_forall ?_ ?_, ?_⟩
  · change bdk.evictedAt (bdk.applyUpdate s.wallet update) tx ≤ (seconds s.now : WithBot ℕ)
    have old := (before.evicted tx).trans (WithBot.coe_le_coe.mpr before.started)
    rw [lawful.update_evictedAt]
    split
    · exact sup_le old (WithBot.coe_le_coe.mpr past)
    · exact old
  · rw [bootWallet_snoc]
    exact (before.booted tx).trans (grown tx)
  · exact fun x member tx millis recorded =>
      (before.recorded x member tx millis recorded).trans (grown tx)
  · rintro tx millis ⟨i, batch, label, _⟩
    cases label
  · intro tx bound boot records later
    rw [bootWallet_snoc] at boot
    have old := before.bounded tx bound boot
      (fun x member => records x (List.mem_append_left _ member))
      (before.started.trans later)
    change bdk.lastSeen (bdk.applyUpdate s.wallet update) tx ≤ _
    rw [lawful.update_lastSeen]
    split
    · exact sup_le old (WithBot.coe_le_coe.mpr (past.trans later))
    · exact old

theorem clocks_run [DecidableEq Tx] (lawful : Lawful bdk) (run : BatcherRun bdk cfg ts s) :
    Clocks bdk ts s := by
  induction run with
  | start init => exact clocks_initial init
  | @next ts s s' label _ taken before =>
      cases taken with
      | recorded here _ => exact before.record lawful here
      | syncApplied syncing => exact before.sync lawful syncing
      | @clock millis =>
          have later : seconds s.now ≤ seconds (s.now + millis) :=
            Nat.div_le_div_right (Nat.le_add_right _ _)
          have started := before.started
          cases syncer : s.syncer with
          | asleep =>
              refine before.keep ?_ ?_ rfl rfl (by simp)
              · simp [horizon]
              · simpa [horizon, syncer] using later
          | syncing startTime =>
              simp only [horizon, syncer] at started
              refine before.keep ?_ ?_ rfl rfl (by simp)
              · simpa [horizon, syncer] using started.trans later
              · simp [horizon, syncer]
      | syncStarted asleep =>
          refine before.keep le_rfl ?_ rfl rfl (by simp)
          simp [horizon, asleep]
      | syncFailed syncing =>
          exact before.keep le_rfl before.started rfl rfl (by simp)
      | tickFailed _ finished =>
          exact before.keep before.started le_rfl (lawful.finish_evictedAt _ _ _ _ _ finished)
            (lawful.finish_lastSeen _ _ _ _ _ finished) (by simp)
      | built _ finished =>
          exact before.keep before.started le_rfl (lawful.finish_evictedAt _ _ _ _ _ finished)
            (lawful.finish_lastSeen _ _ _ _ _ finished) (by simp)
      | _ => exact before.keep before.started le_rfl rfl rfl (by simp)

private theorem now_positive (run : BatcherRun bdk cfg ts s) : 0 < s.now := by
  refine run.invariant (P := fun s => 0 < s.now) (fun _ init => init.1) ?_
  intro s l s' positive taken
  cases taken with
  | clock => exact Nat.add_pos_left positive _
  | _ => exact positive

theorem evicted_before_now [DecidableEq Tx] (lawful : Lawful bdk) (run : BatcherRun bdk cfg ts s)
    (tx : Tx) : bdk.evictedAt s.wallet tx < (s.now : WithBot ℕ) := by
  have clocks := clocks_run lawful run
  have early : horizon s < s.now :=
    clocks.started.trans_lt (Nat.div_lt_self (now_positive run) (by decide))
  exact (clocks.evicted tx).trans_lt (WithBot.coe_lt_coe.mpr early)

private theorem bootWallet_cut {a b : Trace W Tx} {x : Transition (State W Tx) (Label Tx)}
    (split : ts = a ++ x :: b) : bootWallet ts s = bootWallet a x.source := by
  subst split
  cases a <;> rfl

/-- A sync that does not find a transaction makes the wallet drop it exactly when every time at
which the batcher recorded it, in milliseconds, and the time with which the wallet was loaded, are
no later than the second at which the sync started. -/
theorem sync_forgets_iff [DecidableEq Tx] (lawful : Lawful bdk) (timed : KeptWhileSeen bdk)
    (run : BatcherRun bdk cfg ts s) {a b : Trace W Tx} {x : Transition (State W Tx) (Label Tx)}
    {update : Update Tx} {tx : Tx} (split : ts = a ++ x :: b)
    (applied : x.label = .syncApplied update) (missing : tx ∈ update.evicted) :
    Forgotten bdk x.target.wallet tx ↔
      bdk.lastSeen (bootWallet ts s) tx ≤ (update.startTime : WithBot ℕ) ∧
        ∀ y ∈ a, ∀ millis, RecordedAt y tx millis → millis ≤ update.startTime := by
  have clocks := clocks_run lawful (run.cut split)
  have taken := run.step_at split
  obtain ⟨source, label, target⟩ := x
  change label = _ at applied
  subst applied
  change Step bdk cfg source (.syncApplied update) target at taken
  cases taken with
  | syncApplied syncing =>
      have start : horizon source = update.startTime := by simp [horizon, syncing]
      have old := clocks.evicted tx
      rw [start] at old
      rw [forgotten_iff lawful, timed _ _ _ missing, lawful.update_evictedAt,
        if_pos missing, sup_eq_right.mpr old, not_lt, lawful.update_lastSeen, bootWallet_cut split]
      have drop : (if tx ∈ update.seen then
          bdk.lastSeen source.wallet tx ⊔ (update.startTime : WithBot ℕ)
          else bdk.lastSeen source.wallet tx) ≤ (update.startTime : WithBot ℕ) ↔
            bdk.lastSeen source.wallet tx ≤ (update.startTime : WithBot ℕ) := by
        split <;> simp
      rw [drop]
      constructor
      · intro low
        refine ⟨(clocks.booted tx).trans low, fun y member millis recorded => ?_⟩
        exact WithBot.coe_le_coe.mp ((clocks.recorded y member tx millis recorded).trans low)
      · rintro ⟨boot, records⟩
        exact clocks.bounded tx _ boot records start.le

theorem sync_forgets_iff_nonvacuous : ∃ ts s, ∃ update : Update ℕ,
    BatcherRun ledgerBdk defaultConfig ts s ∧ update.evicted = [1] ∧
      Forgotten ledgerBdk s.wallet 1 := by
  obtain ⟨x, y, z, built, queued, received, last, begin, _⟩ :=
    sample_batch (.start (boot_initial Nat.one_pos)) rfl rfl rfl 1
  have sent := built.next (show Step _ _ _ (.broadcast 0 true) _ from .broadcast rfl rfl)
  have recorded := sent.next
    (@Step.recorded _ _ _ _ _ 0 ⟨1, [sampleRequest], .returned true⟩ true rfl rfl)
  have later := recorded.next (show Step _ _ _ (.clock 2000) _ from .clock)
  have started := later.next (.syncStarted rfl)
  have applied := started.next
    (show Step _ _ _ (.syncApplied ⟨2, [], [], [1]⟩) _ from .syncApplied rfl)
  have forgets := sync_forgets_iff ledger_lawful ledger_keptWhileSeen applied rfl rfl
    (show 1 ∈ [1] from List.mem_cons_self)
  have boot : ledgerBdk.lastSeen x.source.wallet 1 ≤ ((2 : ℕ) : WithBot ℕ) := begin ▸ bot_le
  refine ⟨_, _, ⟨2, [], [], [1]⟩, applied, rfl, forgets.mpr ⟨boot, ?_⟩⟩
  refine snoc_forall (snoc_forall (snoc_forall (snoc_forall (snoc_forall (snoc_forall (snoc_forall
    (by simp) ?_) ?_) ?_) ?_) ?_) ?_) ?_
  case refine_5 =>
    rintro millis ⟨_, _, _, _, _, rfl⟩
    decide
  all_goals
    rintro millis ⟨_, _, label, _⟩
    simp_all

/-- A batch is recorded, vanishes, and a sync that starts a minute later does not find it. -/
theorem vanished_batch_kept : ∃ ts s, ∃ update : Update ℕ, ∃ millis,
    BatcherRun ledgerBdk defaultConfig ts s ∧ (∃ x ∈ ts, RecordedAt x 1 millis) ∧
    (∃ x ∈ ts, x.label = .syncApplied update ∧ x.target = s) ∧ update.evicted = [1] ∧
    seconds millis < update.startTime ∧ ¬ Forgotten ledgerBdk s.wallet 1 := by
  obtain ⟨_, _, _, built, _⟩ :=
    sample_batch (.start (boot_initial (show 0 < 1700000000000 by decide))) rfl rfl rfl 1
  have sent := built.next (show Step _ _ _ (.broadcast 0 true) _ from .broadcast rfl rfl)
  have recorded := sent.next
    (@Step.recorded _ _ _ _ _ 0 ⟨1, [sampleRequest], .returned true⟩ true rfl rfl)
  have later := recorded.next (show Step _ _ _ (.clock 60000) _ from .clock)
  have started := later.next (.syncStarted rfl)
  have applied := started.next
    (show Step _ _ _ (.syncApplied ⟨1700000060, [], [], [1]⟩) _ from .syncApplied rfl)
  have kept : ((1700000060 : ℕ) : WithBot ℕ) < ((1700000000000 : ℕ) : WithBot ℕ) :=
    WithBot.coe_lt_coe.mpr (by decide)
  refine ⟨_, _, ⟨1700000060, [], [], [1]⟩, 1700000000000, applied, ?_,
    ⟨_, List.mem_append_right _ List.mem_cons_self, rfl, rfl⟩, rfl, by decide,
    fun forgotten => forgotten.uncounted kept⟩
  refine ⟨_, List.mem_append_left _ (List.mem_append_left _ (List.mem_append_left _
    (List.mem_append_right _ List.mem_cons_self))), 0, _, rfl, rfl, rfl, rfl⟩

end FaucetApi.Batcher.LastSeen
