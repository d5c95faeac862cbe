/- module: FaucetApi/Faucet/Durability
   layer: results
   digest: What the wallet still knows of its transactions after any number of restarts. -/

import FaucetApi.Faucet.Lives

set_option autoImplicit false
set_option relaxedAutoImplicit false

namespace FaucetApi.Faucet.Durability

open FaucetApi.Lib.Runs
open FaucetApi.Lib.Simulation
open FaucetApi.Lib.Journaling
open FaucetApi.Startup (Network)
open FaucetApi.Pow.Claims
open FaucetApi.Batcher.Wallet
open FaucetApi.Batcher.Machine (BatcherConfig Batch seconds)
open FaucetApi.L1.Persister
open FaucetApi.Faucet.Restarts
open FaucetApi.Faucet.Lives
open FaucetApi.Faucet.Admission (firstRequest)

variable {W Tx C D : Type} [AddMonoid C] [AddAction C W] [DecidableEq D]
variable {env : Env} {bdk : Bdk W Tx} {cfg : BatcherConfig} {cs : Changesets W C D}
variable {derivation : Derivation D} {s s' : State W Tx C}
variable {p : Process W Tx C} {ts a b : RestartTrace W Tx C} {l : Label Tx}
variable {x y : Transition (State W Tx C) (Label Tx)}

/-- The step persists the wallet of a process, or starts one with the wallet that is persisted. -/
def saves : Label Tx → Bool
  | .persisted _ done => done
  | .served _ _ => true
  | _ => false

def failsToPersist : Label Tx → Bool
  | .persisted _ done => !done
  | _ => false

private theorem known_unpersisted [DecidableEq Tx] {faucet faucet' : Faucet.Machine.State W Tx}
    {label : Faucet.Machine.Label Tx} (lawful : Lawful bdk)
    (taken : Faucet.Machine.Step env bdk cfg faucet label faucet')
    (quiet : persistsWallet label = false) :
    known bdk faucet'.batcher.wallet = known bdk faucet.batcher.wallet := by
  have finished {w w' : W} {feeRate : FeeRate} {recipients : List Recipient} {result : Option Tx}
      (done : bdk.finish w feeRate recipients result w') : known bdk w' = known bdk w := by
    unfold known
    rw [lawful.finish_counts _ _ _ _ _ done, lawful.finish_lastSeen _ _ _ _ _ done,
      lawful.finish_evictedAt _ _ _ _ _ done]
  cases taken with
  | pow _ _ => rfl
  | claimed _ _ moved =>
      cases moved
      rfl
  | batcher moved _ =>
      cases moved with
      | tickFailed _ done => exact finished done
      | built _ done => exact finished done
      | recorded _ _ => cases quiet
      | syncApplied _ => cases quiet
      | _ => rfl

private theorem loaded_unsaved (doc : Documented bdk cs)
    (taken : Step env bdk cfg cs derivation s l s') (unsaved : saves l = false)
    (there : cs.isEmpty s.storage.db = false) :
    cs.isEmpty s'.storage.db = false ∧ known bdk (loaded cs s') = known bdk (loaded cs s) := by
  cases taken with
  | persisted _ _ _ _ => cases unsaved
  | served _ _ _ _ _ => cases unsaved
  | panicked booted _ =>
      obtain ⟨still, _, same⟩ := boot_keeps doc booted there
      exact ⟨still, same⟩
  | _ => exact ⟨there, rfl⟩

theorem loaded_saved [DecidableEq Tx] (lawful : Lawful bdk) (doc : Documented bdk cs)
    (before : Healthy env bdk cfg cs derivation s)
    (taken : Step env bdk cfg cs derivation s l s') (saving : saves l = true) :
    ∃ p, s'.phase = .up p ∧ cs.isEmpty s'.storage.db = false ∧
      loaded cs s' = p.faucet.batcher.wallet := by
  have after := healthy_step lawful doc before taken
  cases taken with
  | persisted _ _ stages done =>
      refine ⟨_, rfl, doc.nonempty_of_keys (Serving.keys after), ?_⟩
      exact (persisted_journal doc (Serving.sound before) stages done).2
  | served booted _ _ _ _ begins =>
      refine ⟨_, rfl, doc.nonempty_of_keys (Serving.keys after), ?_⟩
      obtain ⟨_, _, rfl⟩ := boot_serves doc booted
      rw [begins.2.1]
      rfl
  | live _ _ _ _ => cases saving
  | unpersisted _ _ _ _ => cases saving
  | crashed => cases saving
  | panicked _ _ => cases saving

/-- Unless an attempt to persist has failed, a start would find what the wallet knows. -/
def UpToDate (bdk : Bdk W Tx) (cs : Changesets W C D) (s : State W Tx C) : Prop :=
  cs.isEmpty s.storage.db = false ∧
    ∀ p, s.phase = .up p → known bdk (loaded cs s) = known bdk p.faucet.batcher.wallet

theorem upToDate_step [DecidableEq Tx] (lawful : Lawful bdk) (doc : Documented bdk cs)
    (healthy : Healthy env bdk cfg cs derivation s) (before : UpToDate bdk cs s)
    (taken : Step env bdk cfg cs derivation s l s') (works : failsToPersist l = false) :
    UpToDate bdk cs s' := by
  cases saving : saves l with
  | true =>
      obtain ⟨p, up, there, same⟩ := loaded_saved lawful doc healthy taken saving
      refine ⟨there, fun q up' => ?_⟩
      obtain rfl : p = q := Phase.up.inj (up.symm.trans up')
      rw [same]
  | false =>
      obtain ⟨there, same⟩ := loaded_unsaved doc taken saving before.1
      refine ⟨there, fun q up => ?_⟩
      rw [same]
      cases taken with
      | live moved quiet _ _ =>
          obtain rfl := Phase.up.inj up
          rw [before.2 _ rfl]
          exact (known_unpersisted lawful moved quiet).symm
      | persisted _ _ _ _ => cases saving
      | unpersisted _ _ _ _ => cases works
      | served _ _ _ _ _ => cases saving
      | crashed => cases up
      | panicked _ _ => cases up

/-- What the wallet knows of transactions is found again by the next start as it was when it was
last persisted, and as it is unless an attempt to persist it has failed since. -/
theorem restart_finds_last_persisted [DecidableEq Tx] (lawful : Lawful bdk)
    (doc : Documented bdk cs) (run : RestartRun env bdk cfg cs derivation ts s)
    (split : ts = a ++ x :: b) (saving : saves x.label = true) :
    ((∀ y ∈ b, saves y.label = false) → ∃ p, x.target.phase = .up p ∧
      known bdk (loaded cs s) = known bdk p.faucet.batcher.wallet) ∧
    ((∀ y ∈ b, failsToPersist y.label = false) → ∀ p, s.phase = .up p →
      known bdk (loaded cs s) = known bdk p.faucet.batcher.wallet) := by
  obtain ⟨p, up, there, same⟩ := loaded_saved lawful doc
    (healthy_run lawful doc (run.cut split)) (run.step_at split) saving
  constructor
  · intro unsaved
    have kept := holds_since
      (P := fun s => cs.isEmpty s.storage.db = false ∧
        known bdk (loaded cs s) = known bdk p.faucet.batcher.wallet)
      run split ⟨there, congrArg (known bdk) same⟩ fun y member before taken => by
        obtain ⟨still, same'⟩ := loaded_unsaved doc taken (unsaved y member) before.1
        exact ⟨still, same'.trans before.2⟩
    exact ⟨p, up, kept.2⟩
  · intro works
    have start : UpToDate bdk cs x.target := by
      refine ⟨there, fun q up' => ?_⟩
      obtain rfl : p = q := Phase.up.inj (up.symm.trans up')
      exact congrArg (known bdk) same
    have healthy := healthy_step lawful doc (healthy_run lawful doc (run.cut split))
      (run.step_at split)
    have kept := holds_since
      (P := fun s => Healthy env bdk cfg cs derivation s ∧ UpToDate bdk cs s)
      run split ⟨healthy, start⟩ fun y member before taken =>
        ⟨healthy_step lawful doc before.1 taken,
          upToDate_step lawful doc before.1 before.2 taken (works y member)⟩
    exact kept.2.2

/-- The first sync is persisted, and the faucet crashes. -/
theorem restart_finds_last_persisted_nonvacuous : ∃ ts s, SampleRun ts s ∧
    s.phase = .down 1000 ∧
    known ledgerBdk (loaded ledgerChangesets s) = known ledgerBdk fundedLedger := by
  obtain ⟨a, x, storage, _, funded, label, _⟩ := funded_life
  have crashed := funded.next .crashed
  have found := (restart_finds_last_persisted ledger_lawful ledger_documented crashed
    (List.append_assoc a [x] _) (by rw [label]; rfl)).1 (by simp [saves])
  obtain ⟨p, up, same⟩ := found
  rw [funded.last.2.2] at up
  obtain rfl := Phase.up.inj up
  exact ⟨_, _, crashed, rfl, same⟩

/-! A batch that was recorded and persisted. -/

/-- The wallet last saw the transaction at this time or later, and so would the next start. -/
def SeenSince (bdk : Bdk W Tx) (cs : Changesets W C D) (tx : Tx) (time : ℕ) (s : State W Tx C) :
    Prop :=
  cs.isEmpty s.storage.db = false ∧ (time : WithBot ℕ) ≤ bdk.lastSeen (loaded cs s) tx ∧
    ∀ p, s.phase = .up p → (time : WithBot ℕ) ≤ bdk.lastSeen p.faucet.batcher.wallet tx

private theorem lastSeen_mono [DecidableEq Tx] {faucet faucet' : Faucet.Machine.State W Tx}
    {label : Faucet.Machine.Label Tx} (lawful : Lawful bdk)
    (taken : Faucet.Machine.Step env bdk cfg faucet label faucet') (tx : Tx) :
    bdk.lastSeen faucet.batcher.wallet tx ≤ bdk.lastSeen faucet'.batcher.wallet tx := by
  cases quiet : persistsWallet label with
  | false => exact (congrFun (congrArg (fun view => view.2.1)
      (known_unpersisted lawful taken quiet)) tx).ge
  | true =>
      cases taken with
      | pow _ _ => exact le_rfl
      | claimed _ _ moved =>
          cases moved
          exact le_rfl
      | batcher moved _ =>
          cases moved with
          | recorded _ _ =>
              rw [lawful.unconfirmed_lastSeen]
              split_ifs with same
              · rw [same]
                exact le_sup_left
              · exact le_rfl
          | syncApplied _ =>
              rw [lawful.update_lastSeen]
              split_ifs
              · exact le_sup_left
              · exact le_rfl
          | _ => cases quiet

private theorem seenSince_step [DecidableEq Tx] {tx : Tx} {time : ℕ} (lawful : Lawful bdk)
    (doc : Documented bdk cs) (healthy : Healthy env bdk cfg cs derivation s)
    (before : SeenSince bdk cs tx time s)
    (taken : Step env bdk cfg cs derivation s l s') : SeenSince bdk cs tx time s' := by
  obtain ⟨there, found, seen⟩ := before
  have live : ∀ p, s'.phase = .up p →
      (time : WithBot ℕ) ≤ bdk.lastSeen p.faucet.batcher.wallet tx := by
    intro q up
    cases taken with
    | live moved _ _ _ | persisted moved _ _ _ | unpersisted moved _ _ _ =>
        obtain rfl := Phase.up.inj up
        exact (seen _ rfl).trans (lastSeen_mono lawful moved tx)
    | crashed => cases up
    | panicked _ _ => cases up
    | served booted _ _ _ _ begins =>
        obtain rfl := Phase.up.inj up
        obtain ⟨_, _, rfl⟩ := boot_serves doc booted
        have same := (boot_keeps doc booted there).2.2
        rw [begins.2.1]
        exact found.trans (congrFun (congrArg (fun view => view.2.1) same) tx).ge
  cases saving : saves l with
  | true =>
      obtain ⟨p, up, there', same⟩ := loaded_saved lawful doc healthy taken saving
      refine ⟨there', ?_, live⟩
      rw [same]
      exact live p up
  | false =>
      obtain ⟨there', same⟩ := loaded_unsaved doc taken saving there
      refine ⟨there', ?_, live⟩
      exact found.trans (congrFun (congrArg (fun view => view.2.1) same) tx).ge

private theorem recorded_seen [DecidableEq Tx] {i : ℕ} {batch : Batch Tx} (lawful : Lawful bdk)
    (doc : Documented bdk cs) (healthy : Healthy env bdk cfg cs derivation s)
    (taken : Step env bdk cfg cs derivation s
      (.persisted (.batcher (.recorded i)) true) s') (up : s.phase = .up p)
    (here : p.faucet.batcher.batches[i]? = some batch) :
    SeenSince bdk cs batch.tx p.faucet.batcher.now s' := by
  obtain ⟨q, up', there, same⟩ := loaded_saved lawful doc healthy taken rfl
  have seen : ((p.faucet.batcher.now : ℕ) : WithBot ℕ) ≤
      bdk.lastSeen q.faucet.batcher.wallet batch.tx := by
    cases taken with
    | persisted moved _ _ _ =>
        obtain rfl := Phase.up.inj up
        obtain rfl := Phase.up.inj up'
        cases moved with
        | batcher moved _ =>
            cases moved with
            | recorded here' _ =>
                obtain rfl := Option.some.inj (here.symm.trans here')
                rw [lawful.unconfirmed_lastSeen, if_pos rfl]
                exact le_sup_right
  refine ⟨there, ?_, fun r up'' => ?_⟩
  · rw [same]
    exact seen
  · obtain rfl : q = r := Phase.up.inj (up'.symm.trans up'')
    exact seen

private theorem seen_since_recorded [DecidableEq Tx] {i : ℕ} {batch : Batch Tx}
    (lawful : Lawful bdk) (doc : Documented bdk cs)
    (run : RestartRun env bdk cfg cs derivation ts s) (split : ts = a ++ x :: b)
    (recorded : x.label = .persisted (.batcher (.recorded i)) true)
    (up : x.source.phase = .up p) (here : p.faucet.batcher.batches[i]? = some batch) :
    SeenSince bdk cs batch.tx p.faucet.batcher.now s := by
  have healthy := healthy_run lawful doc (run.cut split)
  have taken := run.step_at split
  have start := recorded_seen lawful doc healthy (recorded ▸ taken) up here
  have kept := holds_since
    (P := fun s => Healthy env bdk cfg cs derivation s ∧
      SeenSince bdk cs batch.tx p.faucet.batcher.now s)
    run split ⟨healthy_step lawful doc healthy taken, start⟩ fun y _ before taken =>
      ⟨healthy_step lawful doc before.1 taken, seenSince_step lawful doc before.1 before.2 taken⟩
  exact kept.2

theorem sync_keeps [DecidableEq Tx] {update : Update Tx} {done : Bool} {tx : Tx} {time : ℕ}
    (lawful : Lawful bdk) (healthy : Healthy env bdk cfg cs derivation s')
    (taken : Step env bdk cfg cs derivation s
      (.persisted (.batcher (.syncApplied update)) done) s') (up : s'.phase = .up p)
    (evicted : tx ∈ update.evicted)
    (seen : (time : WithBot ℕ) ≤ bdk.lastSeen p.faucet.batcher.wallet tx)
    (early : seconds p.faucet.batcher.now < time) :
    bdk.counts p.faucet.batcher.wallet tx ∨ bdk.Opposed p.faucet.batcher.wallet tx := by
  have serving : ∃ storage, Serving env bdk cfg cs derivation storage p := by
    obtain ⟨storage, phase⟩ := s'
    obtain rfl : phase = .up p := up
    exact ⟨storage, healthy⟩
  obtain ⟨_, _, _, _, _, tr, run⟩ := serving
  have past : bdk.evictedAt p.faucet.batcher.wallet tx < bdk.lastSeen p.faucet.batcher.wallet tx :=
    calc bdk.evictedAt p.faucet.batcher.wallet tx
      _ ≤ (seconds p.faucet.batcher.now : WithBot ℕ) := evicted_le_now lawful run tx
      _ < (time : WithBot ℕ) := WithBot.coe_lt_coe.mpr early
      _ ≤ _ := seen
  cases taken with
  | persisted moved _ _ _ | unpersisted moved _ _ _ =>
      obtain rfl := Phase.up.inj up
      cases moved with
      | batcher moved _ =>
          cases moved with
          | syncApplied _ => exact lawful.update_kept _ update tx evicted past

private theorem recorded_life : ∃ a x storage p q, SampleRun (a ++ [x]) ⟨storage, .up p⟩ ∧
    x.label = .persisted (.batcher (.recorded 0)) true ∧ x.source.phase = .up q ∧
    q.faucet.batcher.now = 1000 ∧
    q.faucet.batcher.batches[0]? = some ⟨1, [firstRequest], .returned true⟩ ∧
    p.faucet.batcher.now = 1000 ∧ p.network = .signet ∧ p.seed = sampleSeed ∧
    storage.seedFile = some sampleSeed.toList ∧
    storage.db +ᵥ ledgerChangesets.blank = fundedLedger.see 1 1000 := by
  obtain ⟨_, _, storage, _, funded, _, file, _, life₀, current₀, last₀, installs₀⟩ := funded_life
  obtain ⟨_, _, ⟨first, tr, pow, batcher⟩, paying, _, built, _⟩ :=
    paid_life funded current₀ last₀ installs₀
  obtain rfl : batcher = _ := built
  have sending : Batcher.Machine.Step ledgerBdk ⟨250, 2500⟩
      ⟨1000, [], [], fundedLedger, [⟨1, [firstRequest], .broadcasting⟩], .asleep⟩
      (.broadcast 0 true)
      ⟨1000, [], [], fundedLedger, [⟨1, [firstRequest], .returned true⟩], .asleep⟩ :=
    @Batcher.Machine.Step.broadcast _ _ _ _ _ _ ⟨1, [firstRequest], .broadcasting⟩ _ rfl rfl
  have recording : Batcher.Machine.Step ledgerBdk ⟨250, 2500⟩
      ⟨1000, [], [], fundedLedger, [⟨1, [firstRequest], .returned true⟩], .asleep⟩ (.recorded 0)
      ⟨1000, [], [], fundedLedger.see 1 1000, [⟨1, [firstRequest], .recorded true⟩], .asleep⟩ :=
    @Batcher.Machine.Step.recorded _ _ _ _ _ _ ⟨1, [firstRequest], .returned true⟩ _ rfl rfl
  have sent := paying.next (.live (.batcher sending nofun) rfl (fun _ => rfl)
    ⟨(zero_vadd LedgerChanges _).symm, rfl, fun _ => rfl⟩)
  have recorded := sent.next (.persisted (.batcher recording nofun) rfl
    (show Stages ledgerChangesets fundedLedger _ (.of (.seen 1 1000)) _ from ⟨rfl, rfl, nofun⟩)
    (persist_succeeds ledger_documented))
  obtain ⟨_, up, _, same⟩ := loaded_saved ledger_lawful ledger_documented
    (healthy_run ledger_lawful ledger_documented sent) recorded.last.2.1 rfl
  obtain rfl := Phase.up.inj up
  exact ⟨_, _, _, _, _, recorded, rfl, rfl, rfl, rfl, rfl, rfl, rfl, file, same⟩

private theorem missing_sync
    {ts : RestartTrace Ledger ℕ LedgerChanges} {storage : Storage LedgerChanges}
    {w : Ledger} (run : SampleRun ts ⟨storage, .up (startedWith 1000 w)⟩) :
    ∃ x y q, SampleRun (ts ++ [x, y]) y.target ∧ y.target.phase = .up q ∧
      y.label = .persisted (.batcher (.syncApplied ⟨1, [], [], [1]⟩)) true ∧
      q.faucet.batcher.now = 1000 ∧
      q.faucet.batcher.wallet = w.update ⟨1, [], [], [1]⟩ := by
  have starting : Batcher.Machine.Step ledgerBdk ⟨250, 2500⟩ ⟨1000, [], [], w, [], .asleep⟩
      .syncStarted ⟨1000, [], [], w, [], .syncing (seconds 1000)⟩ := .syncStarted rfl
  have missing : Batcher.Machine.Step ledgerBdk ⟨250, 2500⟩
      ⟨1000, [], [], w, [], .syncing (seconds 1000)⟩ (.syncApplied ⟨1, [], [], [1]⟩)
      ⟨1000, [], [], w.update ⟨1, [], [], [1]⟩, [], .asleep⟩ := .syncApplied rfl
  have syncing := run.next (.live (.batcher starting nofun) rfl (fun _ => rfl)
    ⟨(zero_vadd LedgerChanges _).symm, rfl, fun _ => rfl⟩)
  have synced := syncing.next (.persisted (.batcher missing nofun) rfl
    (show Stages ledgerChangesets _ _ (.of (.synced ⟨1, [], [], [1]⟩)) _ from ⟨rfl, rfl, nofun⟩)
    (persist_succeeds ledger_documented))
  rw [List.append_assoc] at synced
  exact ⟨_, _, _, synced, rfl, rfl, rfl, rfl⟩

private theorem batch_unopposed :
    ¬ ledgerBdk.Opposed ((fundedLedger.see 1 1000).update ⟨1, [], [], [1]⟩) 1 := by
  rintro ⟨base, other, builds, differ, counted, o, spends, spends'⟩
  have spender {tx : ℕ} {o : OutPoint} (spends : o ∈ ledgerBdk.inputs tx) :
      tx ≠ 0 ∧ o = coin := by
    change o ∈ ledgerInputs tx at spends
    unfold ledgerInputs at spends
    split at spends
    · cases spends
    · exact ⟨‹_›, List.mem_singleton.mp spends⟩
  have own : other = 1 := by
    by_contra unknown
    simp [ledgerBdk, Ledger.counts, Ledger.update, Ledger.see, fundedLedger, unknown,
      (spender spends').1] at counted
  cases builds with
  | self => exact differ own
  | child spent pays builds =>
      obtain rfl := (spender spent).2
      obtain rfl := congrArg OutPoint.txid (List.mem_singleton.mp pays)
      cases builds with
      | self => exact (spender spends).1 rfl
      | child spent _ _ => exact (spender spent).1 rfl

/-- A batch that was recorded and persisted is known to the wallet of every later process, by the
time in milliseconds at which it was recorded. So until as many seconds have passed since the epoch
no sync makes the wallet drop it, now or after any restart, but for a transaction that conflicts
with it or with one that it builds on. -/
theorem recorded_batch_outlives_restarts [DecidableEq Tx] {i : ℕ} {batch : Batch Tx}
    (lawful : Lawful bdk) (doc : Documented bdk cs)
    (run : RestartRun env bdk cfg cs derivation ts s) (split : ts = a ++ x :: b)
    (recorded : x.label = .persisted (.batcher (.recorded i)) true)
    (up : x.source.phase = .up p) (here : p.faucet.batcher.batches[i]? = some batch) :
    ((p.faucet.batcher.now : ℕ) : WithBot ℕ) ≤ bdk.lastSeen (loaded cs s) batch.tx ∧
    ∀ y ∈ b, ∀ update done q, y.label = .persisted (.batcher (.syncApplied update)) done →
      y.target.phase = .up q → batch.tx ∈ update.evicted →
      seconds q.faucet.batcher.now < p.faucet.batcher.now →
      bdk.counts q.faucet.batcher.wallet batch.tx ∨
        bdk.Opposed q.faucet.batcher.wallet batch.tx := by
  refine ⟨(seen_since_recorded lawful doc run split recorded up here).2.1, ?_⟩
  intro y member update done q label up' evicted early
  obtain ⟨b₁, b₂, rfl⟩ := List.append_of_mem member
  have split' : ts = (a ++ x :: b₁) ++ y :: b₂ := by rw [split, List.append_assoc]; rfl
  have taken := run.step_at split'
  have later := (run.cut split').next taken
  have seen := seen_since_recorded lawful doc later
    (by rw [List.append_assoc, List.cons_append]) recorded up here
  exact sync_keeps lawful (healthy_run lawful doc later) (label ▸ taken) up' evicted
    (seen.2.2 q up') early

/-- A sync in the second life does not find the batch of the first one, and the wallet keeps it. -/
theorem recorded_batch_outlives_restarts_nonvacuous : ∃ a x b s q,
    SampleRun (a ++ x :: b) s ∧ x.label = .persisted (.batcher (.recorded 0)) true ∧
    (∃ y ∈ b, y.label = .crashed) ∧ s.phase = .up q ∧
    (∃ y ∈ b, y.label = .persisted (.batcher (.syncApplied ⟨1, [], [], [1]⟩)) true ∧
      y.target = s) ∧
    ledgerBdk.counts q.faucet.batcher.wallet 1 := by
  obtain ⟨_, _, _, _, _, first, recorded, up, time, here, clock, network, seed, file, content⟩ :=
    recorded_life
  have keys := Serving.keys (healthy_run ledger_lawful ledger_documented first)
  rw [network, seed] at keys
  obtain ⟨_, _, w, second, _, _, opened⟩ := fine_start (first.next .crashed) file (.inr keys)
    clock.le (by decide)
  rw [if_neg (by rw [ledger_documented.nonempty_of_keys keys]; exact Bool.false_ne_true)] at opened
  obtain rfl : w = fundedLedger.see 1 1000 := opened.trans content
  obtain ⟨_, y, q, synced, up', missed, clock', wallet⟩ := missing_sync second
  simp only [List.append_assoc, List.cons_append, List.nil_append] at synced
  have last (t u v : Transition (State Ledger ℕ LedgerChanges) (Label ℕ)) :
      y ∈ [t, u, v, y] := by simp
  have early : seconds q.faucet.batcher.now < 1000 := by
    rw [clock']
    decide
  have kept := (recorded_batch_outlives_restarts ledger_lawful ledger_documented synced rfl
    recorded up here).2 _ (last _ _ _) _ _ _ missed up' List.mem_cons_self
      (early.trans_eq time.symm)
  exact ⟨_, _, _, _, _, synced, recorded, ⟨_, List.mem_cons_self, rfl⟩, up',
    ⟨y, last _ _ _, missed, rfl⟩, kept.resolve_right (wallet ▸ batch_unopposed)⟩

end FaucetApi.Faucet.Durability
