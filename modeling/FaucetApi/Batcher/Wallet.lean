/- module: FaucetApi/Batcher/Wallet
   layer: source model
   digest: The wallet operations that the batcher and the syncer call, and what BDK documents. -/

import FaucetApi.Pow.Claims
import Mathlib.Algebra.Order.Monoid.Unbundled.WithTop
import Mathlib.Order.Lattice.Nat

/-!
BDK is not part of the repository. `Bdk` stands for the operations used of it, over any type of
wallets and of transactions, and `Lawful` for what its documentation promises. Times are unix times;
a time that was never set is `⊥`.
-/

set_option autoImplicit false
set_option relaxedAutoImplicit false

namespace FaucetApi.Batcher.Wallet

open FaucetApi.Pow.Claims

/-- Satoshis per kilo weight unit. -/
abbrev FeeRate := ℕ

abbrev Recipient := L1Address × Amount

structure OutPoint where
  txid : ℕ
  vout : ℕ
  deriving DecidableEq

/-- What a sync brings back. `evicted` are the transactions that the wallet expected and Esplora
found neither in the mempool nor in the chain. -/
structure Update (Tx : Type) where
  /-- When the sync started, in seconds. -/
  startTime : ℕ
  anchored : List Tx
  seen : List Tx
  evicted : List Tx

structure Bdk (W Tx : Type) where
  inputs : Tx → List OutPoint
  /-- The outputs of a transaction that pay to the wallet, its change among them. -/
  ownOutputs : Tx → List OutPoint
  /-- Whether the wallet counts the transaction, in its balance and among its outputs. -/
  counts : W → Tx → Prop
  lastSeen : W → Tx → WithBot ℕ
  evictedAt : W → Tx → WithBot ℕ
  /-- What `build_tx` and `finish` may yield, as the transaction that is signed and extracted from
  it, or `none` for an error. -/
  finish : W → FeeRate → List Recipient → Option Tx → W → Prop
  applyUnconfirmedTxs : W → Tx → ℕ → W
  applyUpdate : W → Update Tx → W

variable {W Tx : Type} (bdk : Bdk W Tx)

def Bdk.Spent (w : W) (o : OutPoint) : Prop := ∃ tx, bdk.counts w tx ∧ o ∈ bdk.inputs tx

/-- The wallet has this output and may spend it. -/
def Bdk.Spendable (w : W) (o : OutPoint) : Prop :=
  (∃ tx, bdk.counts w tx ∧ o ∈ bdk.ownOutputs tx) ∧ ¬ bdk.Spent w o

/-- The first transaction is the second one, or spends its outputs, or those of one that does. -/
inductive Bdk.BuildsOn : Tx → Tx → Prop
  | self (tx : Tx) : Bdk.BuildsOn tx tx
  | child {tx parent base : Tx} {o : OutPoint} :
      o ∈ bdk.inputs tx → o ∈ bdk.ownOutputs parent → Bdk.BuildsOn parent base →
      Bdk.BuildsOn tx base

/-- The wallet counts a transaction that conflicts with this one or with one that it builds on. -/
def Bdk.Opposed (w : W) (tx : Tx) : Prop :=
  ∃ base other, bdk.BuildsOn tx base ∧ other ≠ base ∧ bdk.counts w other ∧
    ∃ o ∈ bdk.inputs base, o ∈ bdk.inputs other

def Bdk.Recorded (w : W) (tx : Tx) : Prop := bdk.lastSeen w tx ≠ ⊥

structure Lawful [DecidableEq Tx] : Prop where
  /-- An output point names its transaction. -/
  ownOutputs_unique : ∀ tx tx' o, o ∈ bdk.ownOutputs tx → o ∈ bdk.ownOutputs tx' → tx = tx'
  finish_spendable : ∀ w feeRate recipients tx w', bdk.finish w feeRate recipients (some tx) w' →
    ∀ o ∈ bdk.inputs tx, bdk.Spendable w o
  /-- Building and signing reserve nothing. -/
  finish_counts : ∀ w feeRate recipients result w',
    bdk.finish w feeRate recipients result w' → bdk.counts w' = bdk.counts w
  finish_evictedAt : ∀ w feeRate recipients result w',
    bdk.finish w feeRate recipients result w' → bdk.evictedAt w' = bdk.evictedAt w
  finish_lastSeen : ∀ w feeRate recipients result w',
    bdk.finish w feeRate recipients result w' → bdk.lastSeen w' = bdk.lastSeen w
  unconfirmed_lastSeen : ∀ w tx (time : ℕ) tx',
    bdk.lastSeen (bdk.applyUnconfirmedTxs w tx time) tx' =
      if tx' = tx then bdk.lastSeen w tx ⊔ (time : WithBot ℕ) else bdk.lastSeen w tx'
  unconfirmed_evictedAt : ∀ w tx (time : ℕ),
    bdk.evictedAt (bdk.applyUnconfirmedTxs w tx time) = bdk.evictedAt w
  /-- Without a conflict the transaction is counted from now on, and so is what was counted
  before. -/
  unconfirmed_counts : ∀ w tx (time : ℕ),
    (bdk.counts w tx ∨ ∀ o ∈ bdk.inputs tx, bdk.Spendable w o) →
    bdk.evictedAt w tx < (time : WithBot ℕ) →
    bdk.counts (bdk.applyUnconfirmedTxs w tx time) tx ∧
      ∀ tx', bdk.counts w tx' → bdk.counts (bdk.applyUnconfirmedTxs w tx time) tx'
  update_lastSeen : ∀ w update tx,
    bdk.lastSeen (bdk.applyUpdate w update) tx =
      if tx ∈ update.seen then bdk.lastSeen w tx ⊔ (update.startTime : WithBot ℕ)
      else bdk.lastSeen w tx
  update_evictedAt : ∀ w update tx,
    bdk.evictedAt (bdk.applyUpdate w update) tx =
      if tx ∈ update.evicted then bdk.evictedAt w tx ⊔ (update.startTime : WithBot ℕ)
      else bdk.evictedAt w tx
  /-- A transaction that is not in the chain is dropped unless it was seen after its last
  eviction. -/
  update_dropped : ∀ w update tx, tx ∈ update.evicted → bdk.counts (bdk.applyUpdate w update) tx →
    bdk.evictedAt (bdk.applyUpdate w update) tx < bdk.lastSeen (bdk.applyUpdate w update) tx
  /-- If it was, then it gives way to conflicting transactions only. -/
  update_kept : ∀ w update tx, tx ∈ update.evicted →
    bdk.evictedAt (bdk.applyUpdate w update) tx < bdk.lastSeen (bdk.applyUpdate w update) tx →
    bdk.counts (bdk.applyUpdate w update) tx ∨ bdk.Opposed (bdk.applyUpdate w update) tx

/-- Conflicts set aside, a transaction that is not in the chain is kept exactly while it was seen
after its last eviction. -/
def KeptWhileSeen : Prop := ∀ w update tx, tx ∈ update.evicted →
  (bdk.counts (bdk.applyUpdate w update) tx ↔
    bdk.evictedAt (bdk.applyUpdate w update) tx < bdk.lastSeen (bdk.applyUpdate w update) tx)

variable {bdk}

/-- The wallet no longer counts the transaction: it spends nothing and its change is gone. -/
structure Forgotten (bdk : Bdk W Tx) (w : W) (tx : Tx) : Prop where
  uncounted : ¬ bdk.counts w tx
  inputs_free : ∀ o ∈ bdk.inputs tx, bdk.Spent w o →
    ∃ other, other ≠ tx ∧ bdk.counts w other ∧ o ∈ bdk.inputs other
  change_gone : ∀ o ∈ bdk.ownOutputs tx, ¬ bdk.Spendable w o

theorem forgotten_iff [DecidableEq Tx] (lawful : Lawful bdk) {w : W} {tx : Tx} :
    Forgotten bdk w tx ↔ ¬ bdk.counts w tx := by
  refine ⟨Forgotten.uncounted, fun uncounted => ⟨uncounted, ?_, ?_⟩⟩
  · rintro o _ ⟨other, counted, spends⟩
    exact ⟨other, fun same => uncounted (same ▸ counted), counted, spends⟩
  · rintro o own ⟨⟨other, counted, own'⟩, _⟩
    exact uncounted (lawful.ownOutputs_unique _ _ _ own' own ▸ counted)

/-! A wallet with one coin. Transaction `0` pays the coin to the wallet, every other one spends it
and has one output of change. -/

structure Ledger where
  lastSeen : ℕ → WithBot ℕ
  evictedAt : ℕ → WithBot ℕ

def Ledger.counts (w : Ledger) (tx : ℕ) : Prop := w.evictedAt tx < w.lastSeen tx

def coin : OutPoint := ⟨0, 0⟩

def ledgerInputs (tx : ℕ) : List OutPoint := if tx = 0 then [] else [coin]

def Ledger.see (w : Ledger) (tx : ℕ) (time : ℕ) : Ledger :=
  { w with lastSeen := Function.update w.lastSeen tx (w.lastSeen tx ⊔ (time : WithBot ℕ)) }

def Ledger.update (w : Ledger) (update : Update ℕ) : Ledger where
  lastSeen := fun tx =>
    if tx ∈ update.seen then w.lastSeen tx ⊔ (update.startTime : WithBot ℕ) else w.lastSeen tx
  evictedAt := fun tx =>
    if tx ∈ update.evicted then w.evictedAt tx ⊔ (update.startTime : WithBot ℕ)
    else w.evictedAt tx

def ledgerSpendable (w : Ledger) (o : OutPoint) : Prop :=
  (∃ tx, w.counts tx ∧ o ∈ [OutPoint.mk tx 0]) ∧ ¬ ∃ tx, w.counts tx ∧ o ∈ ledgerInputs tx

def ledgerBdk : Bdk Ledger ℕ where
  inputs := ledgerInputs
  ownOutputs := fun tx => [⟨tx, 0⟩]
  counts := Ledger.counts
  lastSeen := Ledger.lastSeen
  evictedAt := Ledger.evictedAt
  finish := fun w _ _ result w' => w' = w ∧
    ∀ tx, result = some tx → ∀ o ∈ ledgerInputs tx, ledgerSpendable w o
  applyUnconfirmedTxs := Ledger.see
  applyUpdate := Ledger.update

theorem ledger_lawful : Lawful ledgerBdk where
  ownOutputs_unique := by
    intro tx tx' o own own'
    rw [List.mem_singleton.mp own] at own'
    exact congrArg OutPoint.txid (List.mem_singleton.mp own')
  finish_spendable := fun w _ _ tx w' done => done.2 tx rfl
  finish_counts := by
    rintro w feeRate recipients result w' ⟨rfl, _⟩
    rfl
  finish_evictedAt := by
    rintro w feeRate recipients result w' ⟨rfl, _⟩
    rfl
  finish_lastSeen := by
    rintro w feeRate recipients result w' ⟨rfl, _⟩
    rfl
  unconfirmed_lastSeen := by
    intro w tx time tx'
    change Function.update w.lastSeen tx _ tx' = _
    rw [Function.update_apply]
    rfl
  unconfirmed_evictedAt := fun _ _ _ => rfl
  unconfirmed_counts := by
    intro w tx time _ later
    refine ⟨?_, fun tx' counted => ?_⟩
    · change w.evictedAt tx < Function.update w.lastSeen tx _ tx
      rw [Function.update_self]
      exact later.trans_le le_sup_right
    · change w.evictedAt tx' < Function.update w.lastSeen tx _ tx'
      by_cases here : tx' = tx
      · subst here
        rw [Function.update_self]
        exact lt_of_lt_of_le counted le_sup_left
      · rw [Function.update_of_ne here]
        exact counted
  update_lastSeen := fun _ _ _ => rfl
  update_evictedAt := fun _ _ _ => rfl
  update_dropped := fun _ _ _ _ counted => counted
  update_kept := fun _ _ _ _ seen => .inl seen

theorem ledger_keptWhileSeen : KeptWhileSeen ledgerBdk := fun _ _ _ _ => Iff.rfl

def fundedLedger : Ledger := ⟨fun tx => if tx = 0 then ((1 : ℕ) : WithBot ℕ) else ⊥, fun _ => ⊥⟩

theorem funded_spendable (tx : ℕ) : ∀ o ∈ ledgerInputs tx, ledgerSpendable fundedLedger o := by
  intro o spends
  unfold ledgerInputs at spends
  split at spends
  · simp at spends
  · obtain rfl := List.mem_singleton.mp spends
    refine ⟨⟨0, WithBot.bot_lt_coe 1, List.mem_singleton_self coin⟩, ?_⟩
    rintro ⟨other, counted, spent⟩
    by_cases zero : other = 0
    · simp [ledgerInputs, zero] at spent
    · simp [Ledger.counts, fundedLedger, zero] at counted

theorem seen_change_spendable {tx : ℕ} (nonzero : tx ≠ 0) (time : ℕ) :
    ledgerBdk.Spendable (fundedLedger.see tx time) ⟨tx, 0⟩ := by
  refine ⟨⟨tx, ?_, List.mem_singleton_self _⟩, ?_⟩
  · change ⊥ < Function.update fundedLedger.lastSeen tx _ tx
    rw [Function.update_self]
    exact (WithBot.bot_lt_coe time).trans_le le_sup_right
  · rintro ⟨other, _, spends⟩
    change _ ∈ ledgerInputs other at spends
    unfold ledgerInputs at spends
    split at spends
    · simp at spends
    · exact nonzero (congrArg OutPoint.txid (List.mem_singleton.mp spends))

end FaucetApi.Batcher.Wallet
