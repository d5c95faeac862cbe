/- module: FaucetApi/Batcher/DoubleSpend
   layer: results
   digest: When no two batches spend one output, and the run in which they do. -/

import FaucetApi.Batcher.LastSeen

set_option autoImplicit false
set_option relaxedAutoImplicit false

namespace FaucetApi.Batcher.DoubleSpend

open FaucetApi.Lib.Runs
open FaucetApi.Pow.Claims
open FaucetApi.Batcher.Wallet
open FaucetApi.Batcher.Machine
open FaucetApi.Batcher.Accounting
open FaucetApi.Batcher.LastSeen

variable {W Tx : Type} {bdk : Bdk W Tx} {cfg : BatcherConfig}
variable {ts : Trace W Tx} {s : State W Tx}

/-- Two batches that spend one output: by the time the later one was built, the broadcast of the
earlier one had returned an error. -/
def NoDoubleSpend (bdk : Bdk W Tx) (ts : Trace W Tx) : Prop :=
  ts.Pairwise fun x y => ∀ batch batch', x.label = .built batch → y.label = .built batch' →
    (∃ o ∈ bdk.inputs batch.tx, o ∈ bdk.inputs batch'.tx) →
      ∃ earlier, y.source.batches[x.source.batches.length]? = some earlier ∧
        earlier.stage.failed = true

/-- The inputs of the transaction can be spent, or it is the one that spends them. -/
def Unspent (bdk : Bdk W Tx) (w : W) (tx : Tx) : Prop :=
  bdk.counts w tx ∨ ∀ o ∈ bdk.inputs tx, bdk.Spendable w o

/-- What keeps the batches of a run apart. -/
structure Orderly (bdk : Bdk W Tx) (x : Transition (State W Tx) (Label Tx)) : Prop where
  /-- A batch is built only while every batch in flight has failed. -/
  built : ∀ batch, x.label = .built batch → ∀ b ∈ x.source.batches,
    b.stage.inFlight = true → b.stage.failed = true
  /-- A failed batch is recorded only while it is the last one built. -/
  recorded : ∀ i b, x.label = .recorded i → x.source.batches[i]? = some b →
    b.stage.failed = true → i + 1 = x.source.batches.length
  /-- A sync frees no input of a batch that was sent and recorded. -/
  freed : ∀ update, x.label = .syncApplied update → ∀ b ∈ x.source.batches,
    b.stage = .recorded true →
      ∀ o ∈ bdk.inputs b.tx, bdk.Spent (bdk.applyUpdate x.source.wallet update) o
  /-- A sync takes no input from the last batch while it is in flight, unless it finds the
  transaction of that batch. -/
  taken : ∀ update, x.label = .syncApplied update → ∀ i b, x.source.batches[i]? = some b →
    i + 1 = x.source.batches.length → b.stage.inFlight = true →
      Unspent bdk (bdk.applyUpdate x.source.wallet update) b.tx

/-- The wallet holds the outputs that batches use. -/
structure Reserved (bdk : Bdk W Tx) (s : State W Tx) : Prop where
  settled : ∀ b ∈ s.batches, b.stage = .recorded true →
    ∀ o ∈ bdk.inputs b.tx, bdk.Spent s.wallet o
  last : ∀ i b, s.batches[i]? = some b → i + 1 = s.batches.length → b.stage.inFlight = true →
    Unspent bdk s.wallet b.tx
  alone : ∀ i b, s.batches[i]? = some b → b.stage.inFlight = true → b.stage.failed = false →
    i + 1 = s.batches.length

private theorem spent_congr {w w' : W} (same : bdk.counts w' = bdk.counts w) (o : OutPoint) :
    bdk.Spent w' o ↔ bdk.Spent w o := by
  simp only [Bdk.Spent, same]

private theorem spendable_congr {w w' : W} (same : bdk.counts w' = bdk.counts w) (o : OutPoint) :
    bdk.Spendable w' o ↔ bdk.Spendable w o := by
  simp only [Bdk.Spendable, Bdk.Spent, same]

private theorem unspent_congr {w w' : W} (same : bdk.counts w' = bdk.counts w) (tx : Tx) :
    Unspent bdk w' tx ↔ Unspent bdk w tx := by
  simp only [Unspent, spendable_congr same, same]

private theorem reserved_initial (init : Initial bdk s) : Reserved bdk s := by
  obtain ⟨_, _, _, _, none, _⟩ := init
  exact ⟨by simp [none], by simp [none], by simp [none]⟩

theorem Reserved.keep {s' : State W Tx} (before : Reserved bdk s) (batches : s'.batches = s.batches)
    (same : bdk.counts s'.wallet = bdk.counts s.wallet) : Reserved bdk s' := by
  refine ⟨?_, ?_, ?_⟩ <;> rw [batches]
  · exact fun b member stage o spends =>
      (spent_congr same o).mpr (before.settled b member stage o spends)
  · exact fun i b here final flying =>
      (unspent_congr same b.tx).mpr (before.last i b here final flying)
  · exact before.alone

theorem Reserved.built [DecidableEq Tx] {feeRate : FeeRate} {requests : List L1PayoutRequest}
    {queue : List L1PayoutRequest} {tx : Tx} {wallet' : W} (lawful : Lawful bdk)
    (before : Reserved bdk s)
    (finished : bdk.finish s.wallet feeRate (requests.map recipientOf) (some tx) wallet')
    (failed : ∀ b ∈ s.batches, b.stage.inFlight = true → b.stage.failed = true) :
    Reserved bdk { s with
      l1PayoutQueue := queue
      wallet := wallet'
      batches := s.batches ++ [⟨tx, requests, .broadcasting⟩] } := by
  have same := lawful.finish_counts _ _ _ _ _ finished
  have fresh {i : ℕ} {b : Batch Tx} (final : i + 1 = s.batches.length + 1)
      (here : (s.batches ++ [⟨tx, requests, .broadcasting⟩])[i]? = some b) : tx = b.tx := by
    obtain rfl : i = s.batches.length := by omega
    simp only [List.getElem?_concat_length, Option.some.injEq] at here
    rw [← here]
  refine ⟨fun b member stage o spends => ?_, fun i b here final _ => .inr fun o spends => ?_,
    fun i b here flying unfailed => ?_⟩
  · rcases List.mem_append.mp member with old | new
    · exact (spent_congr same o).mpr (before.settled b old stage o spends)
    · rw [List.mem_singleton.mp new] at stage
      cases stage
  · have own := fresh (by simpa using final) here
    exact (spendable_congr same o).mpr
      (lawful.finish_spendable _ _ _ _ _ finished o (own ▸ spends))
  · change (s.batches ++ [⟨tx, requests, .broadcasting⟩])[i]? = some b at here
    rw [List.length_append, List.length_singleton]
    rw [List.getElem?_append] at here
    split at here
    · simp [failed b (List.mem_of_getElem? here) flying] at unfailed
    · have bound := (List.getElem?_eq_some_iff.mp here).1
      simp only [List.length_singleton] at bound
      omega

private theorem getElem?_set_cases {l : List (Batch Tx)} {i j : ℕ} {new b : Batch Tx}
    (here : (l.set i new)[j]? = some b) : (j = i ∧ b = new) ∨ (j ≠ i ∧ l[j]? = some b) := by
  rw [List.getElem?_set] at here
  split at here
  · rename_i same
    split at here
    · exact .inl ⟨same.symm, (Option.some.inj here).symm⟩
    · simp at here
  · rename_i differ
    exact .inr ⟨Ne.symm differ, here⟩

theorem Reserved.broadcast {i : ℕ} {batch : Batch Tx} {sent : Bool} (before : Reserved bdk s)
    (here : s.batches[i]? = some batch) (stage : batch.stage = .broadcasting) :
    Reserved bdk { s with batches := s.batches.set i { batch with stage := .returned sent } } := by
  have flying : batch.stage.inFlight = true := by rw [stage]; rfl
  have unfailed : batch.stage.failed = false := by rw [stage]; rfl
  refine ⟨fun b member settled => ?_, fun j b there final => ?_, fun j b there => ?_⟩
  · rcases List.mem_or_eq_of_mem_set member with old | rfl
    · exact before.settled b old settled
    · cases settled
  · rw [List.length_set] at final
    rcases getElem?_set_cases there with ⟨rfl, rfl⟩ | ⟨_, old⟩
    · exact fun _ => before.last j batch here final flying
    · exact before.last j b old final
  · rw [List.length_set]
    rcases getElem?_set_cases there with ⟨rfl, rfl⟩ | ⟨_, old⟩
    · exact fun _ _ => before.alone j batch here flying unfailed
    · exact before.alone j b old

theorem Reserved.recorded [DecidableEq Tx] {i : ℕ} {batch : Batch Tx} {sent : Bool}
    (lawful : Lawful bdk) (before : Reserved bdk s) (here : s.batches[i]? = some batch)
    (stage : batch.stage = .returned sent) (final : i + 1 = s.batches.length)
    (past : bdk.evictedAt s.wallet batch.tx < (s.now : WithBot ℕ)) :
    Reserved bdk { s with
      wallet := bdk.applyUnconfirmedTxs s.wallet batch.tx s.now
      batches := s.batches.set i { batch with stage := .recorded sent } } := by
  have flying : batch.stage.inFlight = true := by rw [stage]; rfl
  obtain ⟨counted, kept⟩ := lawful.unconfirmed_counts s.wallet batch.tx s.now
    (before.last i batch here final flying) past
  refine ⟨fun b member settled o spends => ?_, fun j b there final' flying' => ?_,
    fun j b there flying' unfailed => ?_⟩
  · rcases List.mem_or_eq_of_mem_set member with old | rfl
    · obtain ⟨tx, counts, spent⟩ := before.settled b old settled o spends
      exact ⟨tx, kept tx counts, spent⟩
    · exact ⟨batch.tx, counted, spends⟩
  · rw [List.length_set] at final'
    rcases getElem?_set_cases there with ⟨_, rfl⟩ | ⟨differ, _⟩
    · cases flying'
    · omega
  · rw [List.length_set]
    rcases getElem?_set_cases there with ⟨_, rfl⟩ | ⟨_, old⟩
    · cases flying'
    · exact before.alone j b old flying' unfailed

theorem reserved_run [DecidableEq Tx] (lawful : Lawful bdk) (run : BatcherRun bdk cfg ts s)
    (orderly : ∀ x ∈ ts, Orderly bdk x) : Reserved bdk s := by
  induction run with
  | start init => exact reserved_initial init
  | @next ts s s' label prior taken ih =>
      have before := ih fun x member => orderly x (List.mem_append_left _ member)
      have step := orderly ⟨s, label, s'⟩ (List.mem_append_right _ List.mem_cons_self)
      cases taken with
      | tickFailed _ finished =>
          exact before.keep rfl (lawful.finish_counts _ _ _ _ _ finished)
      | built _ finished => exact before.built lawful finished (step.built _ rfl)
      | broadcast here stage => exact before.broadcast here stage
      | @recorded i batch sent here stage =>
          have final : i + 1 = s.batches.length := by
            cases sent with
            | false => exact step.recorded i batch rfl here (by rw [stage]; rfl)
            | true => exact before.alone i batch here (by rw [stage]; rfl) (by rw [stage]; rfl)
          exact before.recorded lawful here stage final (evicted_before_now lawful prior _)
      | syncApplied _ =>
          exact ⟨step.freed _ rfl, step.taken _ rfl, before.alone⟩
      | _ => exact before.keep rfl rfl

private theorem batch_kept
    {s' : State W Tx} {label : Label Tx} (taken : Step bdk cfg s label s') {n : ℕ}
    {b : Batch Tx} (here : s.batches[n]? = some b) :
    ∃ b', s'.batches[n]? = some b' ∧ b'.tx = b.tx ∧ b'.requests = b.requests := by
  have replaced {i : ℕ} {batch : Batch Tx} (stage : Stage) (there : s.batches[i]? = some batch) :
      ∃ b', (s.batches.set i { batch with stage := stage })[n]? = some b' ∧ b'.tx = b.tx ∧
        b'.requests = b.requests := by
    by_cases same : i = n
    · subst same
      obtain rfl := Option.some.inj (here.symm.trans there)
      exact ⟨_, List.getElem?_set_self (List.getElem?_eq_some_iff.mp here).1, rfl, rfl⟩
    · exact ⟨b, by rw [List.getElem?_set_ne same, here], rfl, rfl⟩
  cases taken with
  | built _ _ =>
      refine ⟨b, ?_, rfl, rfl⟩
      change (s.batches ++ _)[n]? = some b
      rw [List.getElem?_append_left (List.getElem?_eq_some_iff.mp here).1, here]
  | broadcast there _ => exact replaced _ there
  | recorded there _ => exact replaced _ there
  | _ => exact ⟨b, here, rfl, rfl⟩

private theorem built_kept (run : BatcherRun bdk cfg ts s) :
    ∀ x ∈ ts, ∀ batch, x.label = .built batch →
      ∃ b, s.batches[x.source.batches.length]? = some b ∧ b.tx = batch.tx ∧
        b.requests = batch.requests := by
  induction run with
  | start _ => simp
  | @next ts s s' label _ taken ih =>
      refine snoc_forall (fun x member batch built => ?_) ?_
      · obtain ⟨b, here, tx, requests⟩ := ih x member batch built
        obtain ⟨b', there, tx', requests'⟩ := batch_kept taken here
        exact ⟨b', there, tx'.trans tx, requests'.trans requests⟩
      · rintro batch rfl
        cases taken with
        | built _ _ => exact ⟨_, List.getElem?_concat_length, rfl, rfl⟩

private theorem Stage.recorded_of_unfailed {stage : Stage} (landed : stage.inFlight ≠ true)
    (unfailed : stage.failed ≠ true) : stage = .recorded true := by
  cases stage with
  | broadcasting => exact (landed rfl).elim
  | returned sent => exact (landed rfl).elim
  | recorded sent => simpa [Stage.failed] using unfailed

/-- In an orderly run no two batches spend one output, unless the broadcast of the earlier one
failed before the later one was built. -/
theorem orderly_no_double_spend [DecidableEq Tx] (lawful : Lawful bdk)
    (run : BatcherRun bdk cfg ts s) (orderly : ∀ x ∈ ts, Orderly bdk x) :
    NoDoubleSpend bdk ts := by
  induction run with
  | start _ => exact List.Pairwise.nil
  | @next ts s s' label prior taken ih =>
      have orderly' : ∀ x ∈ ts, Orderly bdk x :=
        fun x member => orderly x (List.mem_append_left _ member)
      have step := orderly ⟨s, label, s'⟩ (List.mem_append_right _ List.mem_cons_self)
      have reserved := reserved_run lawful prior orderly'
      rw [NoDoubleSpend, List.pairwise_append]
      refine ⟨ih orderly', List.pairwise_singleton _ _, fun x old y new => ?_⟩
      obtain rfl := List.mem_singleton.mp new
      rintro batch batch' first rfl ⟨o, spends, spends'⟩
      obtain ⟨earlier, here, same, _⟩ := built_kept prior x old batch first
      have member := List.mem_of_getElem? here
      refine ⟨earlier, here, ?_⟩
      by_contra unfailed
      have landed : earlier.stage.inFlight ≠ true := fun flying =>
        unfailed (step.built batch' rfl earlier member flying)
      -- the earlier batch was sent and recorded, so the wallet holds its inputs
      have held := reserved.settled earlier member
        (Stage.recorded_of_unfailed landed unfailed) o (same ▸ spends)
      cases taken with
      | built _ finished => exact (lawful.finish_spendable _ _ _ _ _ finished o spends').2 held

private theorem Orderly.of_built {x : Transition (State W Tx) (Label Tx)} {batch : Batch Tx}
    (label : x.label = .built batch) (failed : ∀ b ∈ x.source.batches,
      b.stage.inFlight = true → b.stage.failed = true) : Orderly bdk x := by
  refine ⟨fun _ _ => failed, ?_, ?_, ?_⟩ <;> simp [label]

private theorem Orderly.of_other {x : Transition (State W Tx) (Label Tx)}
    (built : ∀ batch, x.label ≠ .built batch) (recorded : ∀ i, x.label ≠ .recorded i)
    (synced : ∀ update, x.label ≠ .syncApplied update) : Orderly bdk x :=
  ⟨fun batch label => (built batch label).elim, fun i _ label => (recorded i label).elim,
    fun update label => (synced update label).elim, fun update label => (synced update label).elim⟩

/-- Both batches spend the coin, after the broadcast of the first one failed. -/
theorem orderly_no_double_spend_nonvacuous : ∃ ts s, BatcherRun ledgerBdk defaultConfig ts s ∧
    s.batches.map Batch.tx = [1, 2] ∧ NoDoubleSpend ledgerBdk ts := by
  obtain ⟨_, _, z, built, queued, received, first, _, before⟩ :=
    sample_batch (.start (boot_initial Nat.one_pos)) rfl rfl rfl 1
  have failed := built.next (show Step _ _ _ (.broadcast 0 false) _ from .broadcast rfl rfl)
  obtain ⟨_, _, z', built', queued', received', second, _, between⟩ :=
    sample_batch failed rfl rfl rfl 2
  refine ⟨_, _, built', rfl, orderly_no_double_spend ledger_lawful built' ?_⟩
  refine snoc_forall (snoc_forall (snoc_forall (snoc_forall (snoc_forall (snoc_forall (snoc_forall
    (by simp) ?_) ?_) ?_) ?_) ?_) ?_) ?_
  case refine_3 =>
    refine .of_built first fun b member _ => ?_
    rw [before] at member
    exact (List.not_mem_nil member).elim
  case refine_7 =>
    refine .of_built second fun b member _ => ?_
    rw [between] at member
    obtain rfl := List.mem_singleton.mp member
    rfl
  all_goals apply Orderly.of_other <;> simp [*]

/-- The period passes while the first broadcast is under way, and the next batch takes the same
coin. -/
theorem coin_spent_twice : ∃ ts s, BatcherRun ledgerBdk defaultConfig ts s ∧
    s.batches = [⟨1, [sampleRequest], .broadcasting⟩, ⟨2, [sampleRequest], .broadcasting⟩] ∧
      ¬ NoDoubleSpend ledgerBdk ts := by
  obtain ⟨_, _, z, built, _, _, first, _, before⟩ :=
    sample_batch (.start (boot_initial (show 0 < 1700000000000 by decide))) rfl rfl rfl 1
  have later := built.next (show Step _ _ _ (.clock 180000) _ from .clock)
  obtain ⟨_, _, z', built', _, _, second, _, between⟩ := sample_batch later rfl rfl rfl 2
  refine ⟨_, _, built', rfl, fun apart => ?_⟩
  obtain ⟨earlier, here, failed⟩ := (List.pairwise_append.mp apart).2.2 z
    (by simp) z' List.mem_cons_self _ _ first second
    ⟨coin, List.mem_cons_self, List.mem_cons_self⟩
  rw [before, between] at here
  obtain rfl := Option.some.inj here
  cases failed

end FaucetApi.Batcher.DoubleSpend
