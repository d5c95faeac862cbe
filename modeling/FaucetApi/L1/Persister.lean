/- module: FaucetApi/L1/Persister
   layer: source model
   digest: The wallet's database, and what main does with it and with the seed before it serves. -/

import FaucetApi.Batcher.Wallet
import FaucetApi.Lib.Hex
import FaucetApi.Lib.Journaling
import FaucetApi.SavableSeed
import FaucetApi.Startup
import Mathlib.Algebra.FreeMonoid.Basic

/-!
BDK keeps the wallet in memory with the changes that it has not written yet, and rebuilds it from
the changes in the database. `Changesets` stands for what it makes of them, and `Documented` for
what its documentation promises. A transaction of the database is done as a whole or not at all.
Whoever persists the wallet panics where that fails, which ends the process in the release profile,
where a panic aborts.
-/

set_option autoImplicit false
set_option relaxedAutoImplicit false

namespace FaucetApi.L1.Persister

open FaucetApi.Lib.Journaling
open FaucetApi.SavableSeed (Seed Disk Attempt loadOrCreate)
open FaucetApi.Startup (Network)
open FaucetApi.Batcher.Wallet

/-- What ties a wallet to a seed and a network. `D` is the type of descriptors. -/
structure Keys (D : Type) where
  external : D
  internal : D
  network : Network
  deriving DecidableEq

/-- `Xpriv::new_master` with its text, and the descriptor that a text is read as. -/
structure Derivation (D : Type) where
  newMaster : Seed → String
  intoDescriptor : String → D

def baseDesc (rootpriv : String) : String := "tr(" ++ rootpriv ++ "/86h/0h/0h"

def externalDesc (rootpriv : String) : String := baseDesc rootpriv ++ "/0/*)"

def internalDesc (rootpriv : String) : String := baseDesc rootpriv ++ "/1/*)"

def keysOf {D : Type} (derivation : Derivation D) (network : Network) (seed : Seed) : Keys D where
  external := derivation.intoDescriptor (externalDesc (derivation.newMaster seed))
  internal := derivation.intoDescriptor (internalDesc (derivation.newMaster seed))
  network := network

structure Changesets (W C D : Type) where
  /-- What the changes of a whole database are applied to. -/
  blank : W
  isEmpty : C → Bool
  keys : C → Option (Keys D)
  /-- What `Wallet::create` stages. -/
  created : Keys D → C
  /-- What `reveal_next_address` stages. -/
  revealNextAddress : W → C

def known {W Tx : Type} (bdk : Bdk W Tx) (w : W) :
    (Tx → Prop) × (Tx → WithBot ℕ) × (Tx → WithBot ℕ) :=
  (bdk.counts w, bdk.lastSeen w, bdk.evictedAt w)

variable {W Tx C D : Type} [AddMonoid C] [AddAction C W]

structure Documented (bdk : Bdk W Tx) (cs : Changesets W C D) : Prop where
  isEmpty_iff : ∀ c, cs.isEmpty c = true ↔ c = 0
  /-- Merging changes keeps the keys of the earlier ones unless the later ones name others. -/
  keys_add : ∀ c c', cs.keys (c + c') = (cs.keys c).or (cs.keys c')
  keys_zero : cs.keys 0 = none
  keys_created : ∀ keys, cs.keys (cs.created keys) = some keys
  /-- A new wallet has nothing evicted. -/
  created_evictedAt : ∀ keys tx, bdk.evictedAt (cs.created keys +ᵥ cs.blank) tx = ⊥
  reveal_keys : ∀ w, cs.keys (cs.revealNextAddress w) = none
  reveal_known : ∀ w, known bdk (cs.revealNextAddress w +ᵥ w) = known bdk w
  /-- Every operation of the batcher and the syncer stages all that it changes, and no keys. -/
  finish_staged : ∀ w feeRate recipients result w', bdk.finish w feeRate recipients result w' →
    ∃ c, cs.keys c = none ∧ w' = c +ᵥ w
  unconfirmed_staged : ∀ w tx time,
    ∃ c, cs.keys c = none ∧ bdk.applyUnconfirmedTxs w tx time = c +ᵥ w
  update_staged : ∀ w update, ∃ c, cs.keys c = none ∧ bdk.applyUpdate w update = c +ᵥ w

/-- `Persister::initialize`. -/
def persisterInitialize {C : Type} (succeeds : Bool) (db : C) : Except Unit C :=
  if succeeds then .ok db else .error ()

def persisterPersist {C : Type} [Add C] (succeeds : Bool) (changeset db : C) : Except Unit C :=
  if succeeds then .ok (changeset + db) else .error ()

section

variable (cs : Changesets W C D)

def persist (succeeds : Bool) (l1w : Journal W C) : Except Unit (Journal W C) :=
  if cs.isEmpty l1w.staged then .ok l1w
  else (persisterPersist succeeds l1w.staged l1w.durable).map fun db => ⟨l1w.content, 0, db⟩

/-- Where a start ends without serving. -/
inductive Panic where
  | seedLoad
  /-- The `unwrap` of `load_wallet`: the database cannot be read or is another wallet's. -/
  | walletLoad
  | walletCreation
  | revealPersist
  /-- One of the later `expect`s of `main`. -/
  | later
  deriving DecidableEq

/-- What a start finds in its surroundings: the network of its settings, and whether the operations
that may fail succeed. -/
structure Surroundings where
  network : Network
  seed : Attempt
  initializes : Bool
  creates : Bool
  persists : Bool
  continues : Bool

/-- `L1Wallet::new`. -/
def newWallet [DecidableEq D] (around : Surroundings) (keys : Keys D) (db : C) :
    Except Panic (Journal W C) :=
  match persisterInitialize around.initializes db with
  | .error _ => .error .walletLoad
  | .ok changeset =>
      if cs.isEmpty changeset then
        match persist cs around.creates ((opened cs.blank changeset).stage (cs.created keys)) with
        | .error _ => .error .walletCreation
        | .ok l1w => .ok l1w
      else if cs.keys changeset = some keys then .ok (opened cs.blank changeset)
      else .error .walletLoad

/-- What outlives the process. -/
structure Storage (C : Type) where
  seedFile : Disk
  db : C

/-- `main` until it serves, and what it leaves on the disk. -/
def boot [DecidableEq D] (derivation : Derivation D) (around : Surroundings)
    (storage : Storage C) : Except Panic (Seed × Journal W C) × Storage C :=
  match loadOrCreate storage.seedFile around.seed with
  | (.error _, seedFile) => (.error .seedLoad, ⟨seedFile, storage.db⟩)
  | (.ok seed, seedFile) =>
      match newWallet cs around (keysOf derivation around.network seed) storage.db with
      | .error panic => (.error panic, ⟨seedFile, storage.db⟩)
      | .ok l1Wallet =>
          match persist cs around.persists
            (l1Wallet.stage (cs.revealNextAddress l1Wallet.content)) with
          | .error _ => (.error .revealPersist, ⟨seedFile, l1Wallet.durable⟩)
          | .ok l1Wallet =>
              (if around.continues then .ok (seed, l1Wallet) else .error .later,
                ⟨seedFile, l1Wallet.durable⟩)

end

section

variable {bdk : Bdk W Tx} {cs : Changesets W C D} {derivation : Derivation D}
variable {around : Surroundings} {storage storage' : Storage C} {keys : Keys D} {db c : C}
variable {j j' : Journal W C} {succeeds : Bool}

theorem Documented.isEmpty_eq_false (doc : Documented bdk cs) : cs.isEmpty c = false ↔ c ≠ 0 := by
  rw [← Bool.not_eq_true, doc.isEmpty_iff]

theorem Documented.nonempty_of_keys (doc : Documented bdk cs) (named : cs.keys c = some keys) :
    cs.isEmpty c = false := by
  rw [doc.isEmpty_eq_false]
  rintro rfl
  rw [doc.keys_zero] at named
  cases named

theorem Documented.keys_later (doc : Documented bdk cs) (unnamed : cs.keys c = none) :
    cs.keys (c + db) = cs.keys db := by
  rw [doc.keys_add, unnamed, Option.none_or]

theorem persist_commits (doc : Documented bdk cs) (done : persist cs succeeds j = .ok j') :
    j' = j.commit := by
  unfold persist at done
  split_ifs at done with unstaged
  · obtain rfl := Except.ok.inj done
    exact (Journal.commit_of_unstaged ((doc.isEmpty_iff _).mp unstaged)).symm
  · cases succeeds with
    | false => cases done
    | true => exact (Except.ok.inj done).symm

theorem newWallet_opens [DecidableEq D] (doc : Documented bdk cs)
    (new : newWallet cs around keys db = .ok j) :
    j.Sound cs.blank ∧ j.staged = 0 ∧ cs.keys j.durable = some keys ∧
      if cs.isEmpty db then j.content = cs.created keys +ᵥ cs.blank
      else j = opened cs.blank db := by
  unfold newWallet persisterInitialize at new
  cases reads : around.initializes with
  | false =>
      rw [reads] at new
      cases new
  | true =>
      rw [reads] at new
      simp only [if_true] at new
      cases empty : cs.isEmpty db with
      | true =>
          rw [empty, if_pos rfl] at new
          split at new
          · cases new
          · rename_i created done
            obtain rfl := Except.ok.inj new
            obtain rfl := persist_commits doc done
            obtain rfl := (doc.isEmpty_iff db).mp empty
            have sound := (Journal.opened_sound cs.blank (0 : C)).stage (cs.created keys)
            refine ⟨sound.commit, rfl, ?_, ?_⟩
            · change cs.keys ((cs.created keys + 0) + 0) = some keys
              rw [add_zero, add_zero, doc.keys_created]
            · rw [if_pos rfl]
              change cs.created keys +ᵥ ((0 : C) +ᵥ cs.blank) = _
              rw [zero_vadd]
      | false =>
          rw [empty, if_neg Bool.false_ne_true] at new
          split_ifs at new with same
          obtain rfl := Except.ok.inj new
          exact ⟨Journal.opened_sound _ _, rfl, same, rfl⟩

/-- What a start may do: it leaves the database as it is, it gets to the wallet and no further, or
it persists a revealed address and serves or panics later. -/
theorem boot_cases [DecidableEq D] (doc : Documented bdk cs)
    {result : Except Panic (Seed × Journal W C)}
    (booted : boot cs derivation around storage = (result, storage')) :
    storage'.seedFile = SavableSeed.diskAfter storage.seedFile around.seed ∧
    (((∃ panic, result = .error panic) ∧ storage'.db = storage.db) ∨
      ∃ seed l1w, (loadOrCreate storage.seedFile around.seed).1 = .ok seed ∧
        newWallet cs around (keysOf derivation around.network seed) storage.db = .ok l1w ∧
        (((∃ panic, result = .error panic) ∧ storage'.db = l1w.durable) ∨
          ((result = .error .later ∨
              result = .ok (seed, (l1w.stage (cs.revealNextAddress l1w.content)).commit)) ∧
            storage'.db = (l1w.stage (cs.revealNextAddress l1w.content)).commit.durable))) := by
  unfold boot at booted
  unfold SavableSeed.diskAfter
  rcases loaded : loadOrCreate storage.seedFile around.seed with ⟨_ | seed, seedFile⟩
  · rw [loaded] at booted
    obtain ⟨rfl, rfl⟩ := Prod.mk.inj booted
    exact ⟨rfl, .inl ⟨⟨_, rfl⟩, rfl⟩⟩
  · rw [loaded] at booted
    dsimp only at booted
    rcases new :
      newWallet cs around (keysOf derivation around.network seed) storage.db with panic | l1w
    · rw [new] at booted
      obtain ⟨rfl, rfl⟩ := Prod.mk.inj booted
      exact ⟨rfl, .inl ⟨⟨_, rfl⟩, rfl⟩⟩
    · rw [new] at booted
      dsimp only at booted
      rcases written : persist cs around.persists
        (l1w.stage (cs.revealNextAddress l1w.content)) with _ | l1w'
      · rw [written] at booted
        obtain ⟨rfl, rfl⟩ := Prod.mk.inj booted
        exact ⟨rfl, .inr ⟨seed, l1w, rfl, new, .inl ⟨⟨_, rfl⟩, rfl⟩⟩⟩
      · rw [written] at booted
        obtain rfl := persist_commits doc written
        obtain ⟨rfl, rfl⟩ := Prod.mk.inj booted
        refine ⟨rfl, .inr ⟨seed, l1w, rfl, new, .inr ⟨?_, rfl⟩⟩⟩
        split_ifs
        · exact .inr rfl
        · exact .inl rfl

private theorem saved_of_unstaged {blank : W} (sound : j.Sound blank) (unstaged : j.staged = 0) :
    j.saved blank = j.content := by
  rw [sound, unstaged, zero_vadd]

private theorem boot_database [DecidableEq D] (doc : Documented bdk cs)
    {result : Except Panic (Seed × Journal W C)}
    (booted : boot cs derivation around storage = (result, storage')) :
    storage'.db = storage.db ∨ ∃ seed l1w,
      newWallet cs around (keysOf derivation around.network seed) storage.db = .ok l1w ∧
        cs.keys storage'.db = some (keysOf derivation around.network seed) ∧
        known bdk (storage'.db +ᵥ cs.blank) = known bdk l1w.content := by
  obtain ⟨_, ⟨_, same⟩ | ⟨seed, l1w, _, new, rest⟩⟩ := boot_cases doc booted
  · exact .inl same
  · obtain ⟨sound, unstaged, keys, _⟩ := newWallet_opens doc new
    refine .inr ⟨seed, l1w, new, ?_⟩
    rcases rest with ⟨_, db⟩ | ⟨_, db⟩
    · rw [db]
      exact ⟨keys, congrArg (known bdk) (saved_of_unstaged sound unstaged)⟩
    · have revealed := (sound.stage (cs.revealNextAddress l1w.content)).saved_commit
      rw [db]
      refine ⟨?_, (congrArg (known bdk) revealed).trans (doc.reveal_known _)⟩
      change cs.keys ((_ + l1w.staged) + l1w.durable) = _
      rw [unstaged, add_zero, doc.keys_later (doc.reveal_keys _), keys]

theorem boot_keeps [DecidableEq D] (doc : Documented bdk cs)
    {result : Except Panic (Seed × Journal W C)}
    (booted : boot cs derivation around storage = (result, storage'))
    (there : cs.isEmpty storage.db = false) :
    cs.isEmpty storage'.db = false ∧ cs.keys storage'.db = cs.keys storage.db ∧
      known bdk (storage'.db +ᵥ cs.blank) = known bdk (storage.db +ᵥ cs.blank) := by
  rcases boot_database doc booted with same | ⟨seed, l1w, new, keys, same⟩
  · rw [same]
    exact ⟨there, rfl, rfl⟩
  · obtain ⟨_, _, named, loaded⟩ := newWallet_opens doc new
    rw [if_neg (by rw [there]; exact Bool.false_ne_true)] at loaded
    subst loaded
    exact ⟨doc.nonempty_of_keys keys, keys.trans named.symm, same⟩

theorem boot_creates [DecidableEq D] (doc : Documented bdk cs)
    {result : Except Panic (Seed × Journal W C)}
    (booted : boot cs derivation around storage = (result, storage'))
    (empty : cs.isEmpty storage.db = true) :
    cs.isEmpty storage'.db = true ∨
      ∀ tx, bdk.evictedAt (storage'.db +ᵥ cs.blank) tx = ⊥ := by
  rcases boot_database doc booted with same | ⟨seed, l1w, new, _, same⟩
  · rw [same]
    exact .inl empty
  · obtain ⟨_, _, _, created⟩ := newWallet_opens doc new
    rw [if_pos empty] at created
    refine .inr fun tx => ?_
    have evictions : bdk.evictedAt (storage'.db +ᵥ cs.blank) = bdk.evictedAt l1w.content :=
      congrArg (fun view => view.2.2) same
    rw [evictions, created, doc.created_evictedAt]

theorem boot_serves [DecidableEq D] (doc : Documented bdk cs) {seed : Seed}
    (booted : boot cs derivation around storage = (.ok (seed, j), storage')) :
    (loadOrCreate storage.seedFile around.seed).1 = .ok seed ∧
      cs.keys storage'.db = some (keysOf derivation around.network seed) ∧
      j = ⟨storage'.db +ᵥ cs.blank, 0, storage'.db⟩ := by
  obtain ⟨_, ⟨⟨_, refused⟩, _⟩ | ⟨seed', l1w, loaded, new, rest⟩⟩ := boot_cases doc booted
  · cases refused
  · obtain ⟨sound, unstaged, keys, _⟩ := newWallet_opens doc new
    rcases rest with ⟨⟨_, refused⟩, _⟩ | ⟨refused | served, db⟩
    · cases refused
    · cases refused
    · obtain ⟨rfl, rfl⟩ := Prod.mk.inj (Except.ok.inj served)
      have revealed := (sound.stage (cs.revealNextAddress l1w.content)).saved_commit
      refine ⟨loaded, ?_, ?_⟩
      · rw [db]
        change cs.keys ((_ + l1w.staged) + l1w.durable) = _
        rw [unstaged, add_zero, doc.keys_later (doc.reveal_keys _), keys]
      · rw [db]
        change _ = (⟨Journal.saved cs.blank _, 0, _⟩ : Journal W C)
        rw [revealed]
        rfl

theorem newWallet_refuses [DecidableEq D] (there : cs.isEmpty db = false)
    (other : cs.keys db ≠ some keys) : newWallet cs around keys db = .error .walletLoad := by
  unfold newWallet persisterInitialize
  cases around.initializes with
  | false => rfl
  | true =>
      rw [if_pos rfl]
      dsimp only
      rw [if_neg (by rw [there]; exact Bool.false_ne_true), if_neg other]

theorem boot_refuses [DecidableEq D] {seed : Seed}
    (loads : SavableSeed.read storage.seedFile around.seed = .ok (some seed))
    (there : cs.isEmpty storage.db = false)
    (other : cs.keys storage.db ≠ some (keysOf derivation around.network seed)) :
    boot cs derivation around storage = (.error .walletLoad, storage) := by
  unfold boot
  rw [SavableSeed.loadOrCreate_loads loads]
  dsimp only
  rw [newWallet_refuses there other]

theorem boot_refuses_network [DecidableEq D] (there : cs.isEmpty storage.db = false)
    (named : cs.keys storage.db = some keys) (other : around.network ≠ keys.network) :
    ∃ panic seedFile,
      boot cs derivation around storage = (.error panic, ⟨seedFile, storage.db⟩) := by
  have differ (seed : Seed) :
      cs.keys storage.db ≠ some (keysOf derivation around.network seed) := by
    intro same
    obtain rfl := Option.some.inj (named.symm.trans same)
    exact other rfl
  unfold boot
  rcases loadOrCreate storage.seedFile around.seed with ⟨_ | seed, seedFile⟩
  · exact ⟨_, _, rfl⟩
  · dsimp only
    rw [newWallet_refuses there (differ seed)]
    exact ⟨_, _, rfl⟩

theorem boot_replaces_seed [DecidableEq D]
    (fails : ∀ seed, SavableSeed.read storage.seedFile around.seed ≠ .ok (some seed))
    (written : around.seed.writeOutcome = .done) (there : cs.isEmpty storage.db = false)
    (other : cs.keys storage.db ≠ some (keysOf derivation around.network around.seed.drawn)) :
    boot cs derivation around storage =
      (.error .walletLoad, ⟨some around.seed.drawn.toList, storage.db⟩) := by
  unfold boot
  rw [SavableSeed.loadOrCreate_creates fails]
  unfold SavableSeed.save SavableSeed.writeFile
  rw [written]
  dsimp only [Except.map]
  rw [newWallet_refuses there other]

theorem persist_succeeds (doc : Documented bdk cs) : persist cs true j = .ok j.commit := by
  unfold persist
  split_ifs with unstaged
  · rw [Journal.commit_of_unstaged ((doc.isEmpty_iff _).mp unstaged)]
  · rfl

def Surroundings.Fine (around : Surroundings) : Prop :=
  around.initializes = true ∧ around.creates = true ∧ around.persists = true ∧
    around.continues = true

theorem boot_succeeds [DecidableEq D] (doc : Documented bdk cs) {seed : Seed}
    (fine : around.Fine)
    (loads : SavableSeed.read storage.seedFile around.seed = .ok (some seed))
    (own : cs.isEmpty storage.db = true ∨
      cs.keys storage.db = some (keysOf derivation around.network seed)) :
    ∃ l1w, boot cs derivation around storage =
        (.ok (seed, (l1w.stage (cs.revealNextAddress l1w.content)).commit),
          ⟨storage.seedFile, (l1w.stage (cs.revealNextAddress l1w.content)).commit.durable⟩) ∧
      newWallet cs around (keysOf derivation around.network seed) storage.db = .ok l1w := by
  obtain ⟨initializes, creates, persists, continues⟩ := fine
  have opens : ∃ l1w,
      newWallet cs around (keysOf derivation around.network seed) storage.db = .ok l1w := by
    unfold newWallet persisterInitialize
    rw [initializes, creates, if_pos rfl]
    dsimp only
    rw [persist_succeeds doc]
    dsimp only
    split_ifs with empty same
    · exact ⟨_, rfl⟩
    · exact ⟨_, rfl⟩
    · exact (own.elim empty same).elim
  obtain ⟨l1w, new⟩ := opens
  refine ⟨l1w, ?_, new⟩
  unfold boot
  rw [SavableSeed.loadOrCreate_loads loads]
  dsimp only
  rw [new]
  dsimp only
  rw [persists, persist_succeeds doc, continues]
  rfl

end

/-! The wallet with one coin, journaled as the list of the operations that changed it. -/

inductive LedgerChange where
  | created (keys : Keys String)
  | revealed
  | seen (tx time : ℕ)
  | synced (update : Update ℕ)

def LedgerChange.apply : LedgerChange → Ledger → Ledger
  | .created _, w => w
  | .revealed, w => w
  | .seen tx time, w => w.see tx time
  | .synced update, w => w.update update

abbrev LedgerChanges := FreeAddMonoid LedgerChange

instance ledgerAction : AddAction LedgerChanges Ledger :=
  FreeAddMonoid.mkAddAction LedgerChange.apply

def LedgerChange.named : LedgerChange → Option (Keys String)
  | .created keys => some keys
  | _ => none

def ledgerChangesets : Changesets Ledger LedgerChanges String where
  blank := ⟨fun _ => ⊥, fun _ => ⊥⟩
  isEmpty := fun c => c.toList.isEmpty
  keys := fun c => c.toList.findSome? LedgerChange.named
  created := fun keys => .of (.created keys)
  revealNextAddress := fun _ => .of .revealed

theorem ledger_documented : Documented ledgerBdk ledgerChangesets where
  isEmpty_iff := by
    intro c
    exact List.isEmpty_iff
  keys_add := by
    intro c c'
    exact List.findSome?_append
  keys_zero := rfl
  keys_created := fun _ => rfl
  created_evictedAt := fun _ _ => rfl
  reveal_keys := fun _ => rfl
  reveal_known := fun _ => rfl
  finish_staged := by
    rintro w feeRate recipients result w' ⟨rfl, _⟩
    exact ⟨0, rfl, rfl⟩
  unconfirmed_staged := fun w tx time => ⟨.of (.seen tx time), rfl, rfl⟩
  update_staged := fun w update => ⟨.of (.synced update), rfl, rfl⟩

/-- The text of a seed stands for its root key. -/
def sampleDerivation : Derivation String where
  newMaster := fun seed => String.ofList (FaucetApi.Lib.Hex.encode seed.toList)
  intoDescriptor := id

def fineSurroundings : Surroundings where
  network := .signet
  seed := ⟨true, true, .replicate 32 1, .done⟩
  initializes := true
  creates := true
  persists := true
  continues := true

end FaucetApi.L1.Persister
