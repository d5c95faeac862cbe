/- module: FaucetApi/Faucet/Reserve
   layer: results
   digest: Challenges priced from the wallet's balance, and when the minimum balance is kept. -/

import FaucetApi.Difficulty.Formula
import FaucetApi.Faucet.Payouts

/-!
`get_pow_challenge` reads the balance in one step and calls `get` in a later one, with the
difficulty that it has computed from what it read.
-/

set_option autoImplicit false
set_option relaxedAutoImplicit false

namespace FaucetApi.Faucet.Reserve

open FaucetApi.Lib.Runs
open FaucetApi.Lib.Floating
open FaucetApi.Pow.Hash
open FaucetApi.Pow.Challenges
open FaucetApi.Pow.Claims
open FaucetApi.Pow.Threads
open FaucetApi.Pow.Consumption
open FaucetApi.Difficulty.Config
open FaucetApi.Batcher.Wallet
open FaucetApi.Batcher.Machine (BatcherConfig Batch bootAt boot_initial defaultConfig seconds)
open FaucetApi.Faucet.Machine (FaucetRun FaucetTrace powTrace batcherTrace handedOver)
open FaucetApi.Faucet.Admission
open FaucetApi.Faucet.Payouts

structure State (W Tx : Type) where
  faucet : Faucet.Machine.State W Tx
  /-- The L1 balance that each call of `get_pow_challenge` has read. -/
  readings : CallId → Option ℕ

inductive Label (Tx : Type) where
  | balanceRead (id : CallId)
  | faucet (label : Faucet.Machine.Label Tx)

variable {W Tx : Type}

/-- A call of `get` for L1 comes with the difficulty at the balance that it has read. -/
def Priced (config : DifficultyConfig) (s : State W Tx) (l : Faucet.Machine.Label Tx) : Prop :=
  ∀ id ip nonce difficulty duration,
    l = .pow (.called id (.get ip .l1 nonce difficulty duration)) →
      ∃ x, s.readings id = some x ∧ difficulty = calculateDifficulty .exact config x

section

variable (env : Env) (bdk : Bdk W Tx) (cfg : BatcherConfig) (trustedSpendable : W → ℕ)
variable (config : DifficultyConfig) (minBalance : ℕ)

inductive Step : State W Tx → Label Tx → State W Tx → Prop
  | balanceRead {s : State W Tx} {id : CallId} :
      s.readings id = none →
      Step s (.balanceRead id)
        { s with
          readings := Function.update s.readings id
            (some (trustedSpendable s.faucet.batcher.wallet)) }
  | faucet {s : State W Tx} {l : Faucet.Machine.Label Tx} {faucet' : Faucet.Machine.State W Tx} :
      Faucet.Machine.Step env bdk cfg s.faucet l faucet' → Priced config s l →
      Step s (.faucet l) { s with faucet := faucet' }

/-- The faucet starts with the minimum balance at least. -/
def Initial (s : State W Tx) : Prop :=
  Faucet.Machine.Initial bdk s.faucet ∧ s.readings = (fun _ => none) ∧
    minBalance ≤ trustedSpendable s.faucet.batcher.wallet

abbrev ReserveRun :=
  Run (Initial bdk trustedSpendable minBalance) (Step env bdk cfg trustedSpendable config)

end

abbrev ReserveTrace (W Tx : Type) := List (Transition (State W Tx) (Label Tx))

def faucetLabel : Label Tx → Option (Faucet.Machine.Label Tx)
  | .balanceRead _ => none
  | .faucet l => some l

def faucetTrace (ts : ReserveTrace W Tx) : FaucetTrace W Tx :=
  ts.filterMap (Transition.project State.faucet faucetLabel)

variable {env : Env} {bdk : Bdk W Tx} {cfg : BatcherConfig} {trustedSpendable : W → ℕ}
variable {config : DifficultyConfig} {minBalance : ℕ}
variable {ts a b : ReserveTrace W Tx} {s s' : State W Tx} {l : Label Tx}

private theorem faucet_run (run : ReserveRun env bdk cfg trustedSpendable config minBalance ts s) :
    FaucetRun env bdk cfg (faucetTrace ts) s.faucet := by
  refine run.project (fun _ init => init.1) ?_
  intro s l s' taken
  cases taken with
  | balanceRead _ => exact rfl
  | faucet taken _ => exact taken

private theorem reading_kept {id : CallId} {x : ℕ}
    (taken : Step env bdk cfg trustedSpendable config s l s') (reading : s.readings id = some x) :
    s'.readings id = some x := by
  cases taken with
  | @balanceRead id' unread =>
      have other : id ≠ id' := by
        rintro rfl
        rw [unread] at reading
        cases reading
      exact (Function.update_of_ne other _ _).trans reading
  | faucet _ _ => exact reading

private theorem get_priced (run : ReserveRun env bdk cfg trustedSpendable config minBalance ts s) :
    ∀ x ∈ ts, ∀ id ip nonce difficulty duration,
      x.label = .faucet (.pow (.called id (.get ip .l1 nonce difficulty duration))) →
        ∃ y, s.readings id = some y ∧ difficulty = calculateDifficulty .exact config y := by
  induction run with
  | start _ => simp
  | next prior taken ih =>
      intro x member id ip nonce difficulty duration label
      rcases List.mem_append.mp member with old | new
      · obtain ⟨y, reading, priced⟩ := ih x old id ip nonce difficulty duration label
        exact ⟨y, reading_kept taken reading, priced⟩
      · obtain rfl := List.mem_singleton.mp new
        dsimp only at label
        subst label
        cases taken with
        | faucet _ priced => exact priced id ip nonce difficulty duration rfl

private theorem installed_priced
    (run : ReserveRun env bdk cfg trustedSpendable config minBalance ts s)
    {g : CallId} {ip : Ipv4Addr} {c : Challenge}
    (did : Did (powTrace (faucetTrace ts)) g (.installed ip .l1 c)) :
    ∃ y, s.readings g = some y ∧ c.difficulty = calculateDifficulty .exact config y := by
  obtain ⟨x, member, nonce, duration, label⟩ :=
    installed_offered (Faucet.Machine.pow_run (faucet_run run)) did
  obtain ⟨y, inside, part, _⟩ := mem_projected member
  obtain ⟨z, inside', part', _⟩ := mem_projected inside
  have begun : z.label = .faucet (.pow (.called g (.get ip .l1 nonce c.difficulty duration))) := by
    rw [label] at part
    cases same : y.label with
    | batcher _ => simp [Faucet.Machine.powLabel, same] at part
    | pow _ =>
        rw [same] at part part'
        cases part
        cases same' : z.label with
        | balanceRead _ => simp [faucetLabel, same'] at part'
        | faucet _ =>
            rw [same'] at part'
            cases part'
            rfl
  exact get_priced run z inside' g ip nonce c.difficulty duration begun

private theorem reading_taken
    (run : ReserveRun env bdk cfg trustedSpendable config minBalance ts s) {id : CallId} {x : ℕ}
    (reading : s.readings id = some x) :
    ∃ a r b, ts = a ++ r :: b ∧ r.label = .balanceRead id ∧
      x = trustedSpendable r.source.faucet.batcher.wallet := by
  induction run with
  | start init =>
      rw [init.2.1] at reading
      cases reading
  | @next ts s s' l prior taken ih =>
      have older (old : s.readings id = some x) : ∃ a r b, ts ++ [⟨s, l, s'⟩] = a ++ r :: b ∧
          r.label = .balanceRead id ∧ x = trustedSpendable r.source.faucet.batcher.wallet := by
        obtain ⟨a, r, b, split, label, same⟩ := ih old
        exact ⟨a, r, b ++ [⟨s, l, s'⟩], by rw [split, List.append_assoc, List.cons_append], label,
          same⟩
      cases taken with
      | @balanceRead id' _ =>
          dsimp only at reading
          by_cases same : id = id'
          · subst same
            rw [Function.update_self] at reading
            exact ⟨ts, _, [], rfl, rfl, (Option.some.inj reading).symm⟩
          · rw [Function.update_of_ne same] at reading
            exact older reading
      | faucet _ _ => exact older reading

def accepted : Label Tx → Option L1PayoutRequest
  | .balanceRead _ => none
  | .faucet l => Payouts.accepted l

def acceptedIn (ts : ReserveTrace W Tx) : ℕ :=
  ((ts.filterMap fun x => accepted x.label).map L1PayoutRequest.amount).sum

/-- The payouts that are still in the wallet's balance, in satoshis. -/
noncomputable def owed (env : Env) (bdk : Bdk W Tx) (s : State W Tx) : ℕ :=
  total (outstanding env bdk s.faucet)

/-- The wallet's balance with all that the batches that it counts pay. -/
noncomputable def funds (bdk : Bdk W Tx) (trustedSpendable : W → ℕ) (s : State W Tx) : ℕ :=
  trustedSpendable s.faucet.batcher.wallet + total (countedRequests bdk s.faucet.batcher)

/-- Whatever a step takes out of the balance, a batch pays that the wallet has begun to count. No
fees are counted. -/
def PaysOnlyClaims (bdk : Bdk W Tx) (trustedSpendable : W → ℕ)
    (x : Transition (State W Tx) (Label Tx)) : Prop :=
  funds bdk trustedSpendable x.source ≤ funds bdk trustedSpendable x.target

/-- No accepted L1 solution has as many leading zero bits as the maximum difficulty. -/
def BelowMaximum (env : Env) (maxDifficulty : UInt8) (ts : ReserveTrace W Tx) : Prop :=
  ∀ id claim old, Did (powTrace (faucetTrace ts)) id (.swapped claim old) →
    Did (powTrace (faucetTrace ts)) id (.hashed claim (.ok ())) → claim.chain = .l1 →
      leadingZeroBits (env.sha256 (preimage old.nonce claim.solution)).toList <
        maxDifficulty.toNat

/-- When a claim is accepted: the payouts that were outstanding when the balance was read for its
challenge, and those accepted since, are no more than what that balance was above the minimum. -/
def Covered (env : Env) (bdk : Bdk W Tx) (trustedSpendable : W → ℕ) (minBalance : ℕ)
    (a : ReserveTrace W Tx) (x : Transition (State W Tx) (Label Tx)) : Prop :=
  ∀ id claim request old g b r c, x.label = .faucet (.pow (.thread id (.queued claim request))) →
    Did (powTrace (faucetTrace a)) id (.swapped claim old) →
    Did (powTrace (faucetTrace a)) g (.installed claim.ip claim.chain old) →
    a = b ++ r :: c → r.label = .balanceRead g →
      owed env bdk r.source + acceptedIn c ≤
        trustedSpendable r.source.faucet.batcher.wallet - minBalance

/-- The balance without the outstanding payouts is at most one claim below the minimum. -/
def Protected (env : Env) (bdk : Bdk W Tx) (trustedSpendable : W → ℕ) (minBalance : ℕ)
    (s : State W Tx) : Prop :=
  minBalance + owed env bdk s ≤ trustedSpendable s.faucet.batcher.wallet + env.l1AmountPerClaim

private theorem acceptedIn_append (a b : ReserveTrace W Tx) :
    acceptedIn (a ++ b) = acceptedIn a + acceptedIn b := by
  simp [acceptedIn]

private theorem acceptedIn_single (x : Transition (State W Tx) (Label Tx)) :
    acceptedIn [x] = (accepted x.label).elim 0 L1PayoutRequest.amount := by
  cases given : accepted x.label <;> simp [acceptedIn, given]

private theorem acceptedIn_read {r : Transition (State W Tx) (Label Tx)} {id : CallId}
    (label : r.label = .balanceRead id) (c : ReserveTrace W Tx) :
    acceptedIn (r :: c) = acceptedIn c := by
  simp [acceptedIn, label, accepted]

private theorem acknowledged_since
    (run : ReserveRun env bdk cfg trustedSpendable config minBalance ts s)
    {x : Transition (State W Tx) (Label Tx)} (split : ts = a ++ x :: b) :
    total (acknowledged env s.faucet.pow) =
      total (acknowledged env x.source.faucet.pow) + acceptedIn (x :: b) := by
  have step {s s' : State W Tx} {l : Label Tx}
      (taken : Step env bdk cfg trustedSpendable config s l s') :
      total (acknowledged env s'.faucet.pow) =
        total (acknowledged env s.faucet.pow) + acceptedIn [⟨s, l, s'⟩] := by
    rw [acceptedIn_single]
    cases taken with
    | balanceRead _ => rfl
    | faucet taken _ => exact acknowledged_next taken
  induction run generalizing b with
  | start _ => simp at split
  | next prior taken ih =>
      rcases snoc_cut split with ⟨rfl, rfl, rfl⟩ | ⟨c, rfl, earlier⟩
      · exact step taken
      · rw [step taken, ih earlier, ← List.cons_append, acceptedIn_append, add_assoc]

private theorem funds_since {R : ℕ → ℕ → Prop} [IsTrans ℕ R]
    (run : ReserveRun env bdk cfg trustedSpendable config minBalance ts s)
    {x : Transition (State W Tx) (Label Tx)} (split : ts = a ++ x :: b)
    (steps : ∀ y ∈ ts,
      R (funds bdk trustedSpendable y.source) (funds bdk trustedSpendable y.target)) :
    R (funds bdk trustedSpendable x.source) (funds bdk trustedSpendable s) := by
  induction run generalizing b with
  | start _ => simp at split
  | next prior taken ih =>
      rw [List.forall_mem_append, List.forall_mem_singleton] at steps
      rcases snoc_cut split with ⟨rfl, rfl, rfl⟩ | ⟨c, rfl, earlier⟩
      · exact steps.2
      · exact IsTrans.trans _ _ _ (ih earlier steps.1) steps.2

private theorem funds_owed (run : ReserveRun env bdk cfg trustedSpendable config minBalance ts s) :
    funds bdk trustedSpendable s + owed env bdk s =
      trustedSpendable s.faucet.batcher.wallet + total (acknowledged env s.faucet.pow) := by
  have parts := outstanding_add_counted (faucet_run run)
  unfold funds owed
  omega

/-- The balance without the outstanding payouts falls by what is accepted, and by no more. -/
private theorem balance_since
    (run : ReserveRun env bdk cfg trustedSpendable config minBalance ts s)
    {x : Transition (State W Tx) (Label Tx)} (split : ts = a ++ x :: b)
    (pays : ∀ y ∈ ts, PaysOnlyClaims bdk trustedSpendable y) :
    trustedSpendable x.source.faucet.batcher.wallet + owed env bdk s ≤
      trustedSpendable s.faucet.batcher.wallet + owed env bdk x.source + acceptedIn (x :: b) := by
  have before := funds_owed (run.cut split)
  have after := funds_owed run
  have more := acknowledged_since run split
  have kept : funds bdk trustedSpendable x.source ≤ funds bdk trustedSpendable s :=
    funds_since run split pays
  omega

private theorem claim_step (taken : Step env bdk cfg trustedSpendable config s l s')
    {request : L1PayoutRequest} (given : accepted l = some request) :
    ∃ id claim, l = .faucet (.pow (.thread id (.queued claim request))) ∧ claim.chain = .l1 ∧
      (id, .settle claim) ∈ s.faucet.pow.pool ∧ request.amount = env.l1AmountPerClaim := by
  cases taken with
  | balanceRead _ => cases given
  | @faucet l _ taken _ =>
      cases taken with
      | batcher _ _ => cases given
      | pow _ nothing => cases nothing.symm.trans given
      | @claimed label request' pow' batcher' taken handed queued =>
          obtain rfl : request' = request := Option.some.inj (handed.symm.trans given)
          cases taken with
          | clock => cases handed
          | called _ => cases handed
          | task _ => cases handed
          | @thread id pc pc' rest event shared' pool action =>
              cases action with
              | @queued ip solution address checked _ =>
                  cases handed
                  exact ⟨id, _, rfl, rfl, pool ▸ Multiset.mem_cons_self _ _, rfl⟩
              | _ => cases handed

private theorem claim_priced {maxDifficulty minDifficulty : UInt8} {bigL : ℚ}
    (built : Built .exact maxDifficulty minDifficulty minBalance env.l1AmountPerClaim bigL config)
    (run : ReserveRun env bdk cfg trustedSpendable config minBalance ts s)
    (below : BelowMaximum env maxDifficulty ts) {id : CallId} {claim : Claim}
    (chain : claim.chain = .l1) (settles : (id, .settle claim) ∈ s.faucet.pow.pool) :
    ∃ old g y, Did (powTrace (faucetTrace ts)) id (.swapped claim old) ∧
      Did (powTrace (faucetTrace ts)) g (.installed claim.ip claim.chain old) ∧
      s.readings g = some y ∧ minBalance < y := by
  have powRun := Faucet.Machine.pow_run (faucet_run run)
  obtain ⟨hashed, old, swapped, solved⟩ := pool_explained powRun _ _ settles
  obtain ⟨source, consumes⟩ := exists_consumes powRun
  obtain ⟨x, member, label⟩ := swapped
  obtain ⟨c, d, split⟩ := List.append_of_mem member
  have installed : Did (powTrace (faucetTrace ts)) (source id)
      (.installed claim.ip claim.chain old) := by
    rw [split]
    exact Did.of_prefix (consumes.hit c x d id claim old split label).installed
  have installed' := installed
  rw [chain] at installed'
  obtain ⟨y, reading, priced⟩ := installed_priced run installed'
  refine ⟨old, source id, y, ⟨x, member, label⟩, installed, reading, ?_⟩
  by_contra low
  have greatest := Difficulty.Formula.difficulty_at_minimum built (not_lt.mp low)
  have enough := accepted_leadingZeroBits solved
  have limit := below id claim old ⟨x, member, label⟩ hashed chain
  rw [priced, greatest] at enough
  omega

private theorem BelowMaximum.of_prefix {maxDifficulty : UInt8}
    (below : BelowMaximum env maxDifficulty (a ++ b)) : BelowMaximum env maxDifficulty a := by
  have earlier {id : CallId} {event : Pow.Machine.ThreadEvent}
      (did : Did (powTrace (faucetTrace a)) id event) :
      Did (powTrace (faucetTrace (a ++ b))) id event := by
    rw [faucetTrace, List.filterMap_append, powTrace, List.filterMap_append]
    exact did.of_prefix
  intro id claim old swapped hashed
  exact below id claim old (earlier swapped) (earlier hashed)

private theorem enough_of_covered {maxDifficulty minDifficulty : UInt8} {bigL : ℚ}
    (built : Built .exact maxDifficulty minDifficulty minBalance env.l1AmountPerClaim bigL config)
    (run : ReserveRun env bdk cfg trustedSpendable config minBalance ts s)
    (taken : Step env bdk cfg trustedSpendable config s l s')
    (pays : ∀ y ∈ ts, PaysOnlyClaims bdk trustedSpendable y)
    (below : BelowMaximum env maxDifficulty ts) {request : L1PayoutRequest}
    (given : accepted l = some request)
    (covered : Covered env bdk trustedSpendable minBalance ts ⟨s, l, s'⟩) :
    minBalance + owed env bdk s ≤ trustedSpendable s.faucet.batcher.wallet := by
  obtain ⟨id, claim, rfl, chain, settles, _⟩ := claim_step taken given
  obtain ⟨old, g, y, swapped, installed, reading, above⟩ :=
    claim_priced built run below chain settles
  obtain ⟨b, r, c, split, label, same⟩ := reading_taken run reading
  have fits := covered id claim request old g b r c rfl swapped installed split label
  have since := balance_since run split pays
  rw [acceptedIn_read label] at since
  omega

private theorem protected_initial (init : Initial bdk trustedSpendable minBalance s) :
    Protected env bdk trustedSpendable minBalance s := by
  obtain ⟨⟨start, _⟩, _, enough⟩ := init
  have nothing : owed env bdk s = 0 := by
    simp [owed, outstanding, acknowledged, initial_pool start, total]
  unfold Protected
  omega

private theorem protected_step {maxDifficulty minDifficulty : UInt8} {bigL : ℚ}
    (built : Built .exact maxDifficulty minDifficulty minBalance env.l1AmountPerClaim bigL config)
    (run : ReserveRun env bdk cfg trustedSpendable config minBalance ts s)
    (taken : Step env bdk cfg trustedSpendable config s l s')
    (pays : ∀ y ∈ ts ++ [⟨s, l, s'⟩], PaysOnlyClaims bdk trustedSpendable y)
    (below : BelowMaximum env maxDifficulty ts)
    (covered : Covered env bdk trustedSpendable minBalance ts ⟨s, l, s'⟩)
    (before : Protected env bdk trustedSpendable minBalance s) :
    Protected env bdk trustedSpendable minBalance s' := by
  have since := balance_since (run.next taken) rfl pays
  rw [acceptedIn_single] at since
  unfold Protected at before ⊢
  dsimp only at since
  cases given : accepted l with
  | none =>
      rw [given, Option.elim_none] at since
      omega
  | some request =>
      obtain ⟨_, _, _, _, _, amount⟩ := claim_step taken given
      have enough := enough_of_covered built run taken
        (fun y old => pays y (List.mem_append_left _ old)) below given covered
      rw [given, Option.elim_some, amount] at since
      omega

theorem protected_run {maxDifficulty minDifficulty : UInt8} {bigL : ℚ}
    (built : Built .exact maxDifficulty minDifficulty minBalance env.l1AmountPerClaim bigL config)
    (run : ReserveRun env bdk cfg trustedSpendable config minBalance ts s)
    (pays : ∀ x ∈ ts, PaysOnlyClaims bdk trustedSpendable x)
    (below : BelowMaximum env maxDifficulty ts)
    (covered : ∀ a x b, ts = a ++ x :: b → Covered env bdk trustedSpendable minBalance a x) :
    Protected env bdk trustedSpendable minBalance s := by
  induction run with
  | start init => exact protected_initial init
  | @next ts s s' l prior taken ih =>
      have before := ih (fun y old => pays y (List.mem_append_left _ old)) below.of_prefix
        fun a x b split => covered a x (b ++ [⟨s, l, s'⟩])
          (by rw [split, List.append_assoc, List.cons_append])
      exact protected_step built prior taken pays below.of_prefix (covered ts _ [] rfl) before

/-- In a run that pays out accepted claims only, in which no accepted solution reaches the maximum
difficulty and in which every accepted claim is covered, the balance without the payouts that have
not been broadcast never falls more than one claim below the minimum. -/
theorem min_balance_protected {maxDifficulty minDifficulty : UInt8} {coeff : FloatValue}
    (accepts : DifficultyConfig.new .exact maxDifficulty minDifficulty minBalance
      env.l1AmountPerClaim coeff = .ok config)
    (run : ReserveRun env bdk cfg trustedSpendable config minBalance ts s)
    (pays : ∀ x ∈ ts, PaysOnlyClaims bdk trustedSpendable x)
    (below : BelowMaximum env maxDifficulty ts)
    (covered : ∀ a x b, ts = a ++ x :: b → Covered env bdk trustedSpendable minBalance a x) :
    minBalance + total (unbroadcast env bdk s.faucet) ≤
      trustedSpendable s.faucet.batcher.wallet + env.l1AmountPerClaim := by
  obtain ⟨bigL, rfl, built⟩ := new_ok accepts
  have kept := protected_run built run pays below covered
  have less := total_mono (unbroadcast_le_outstanding env bdk s.faucet)
  unfold Protected owed at kept
  omega

private theorem acknowledged_total
    (run : ReserveRun env bdk cfg trustedSpendable config minBalance ts s) :
    total (acknowledged env s.faucet.pow) = acceptedIn ts := by
  have nothing {s : State W Tx} (init : Initial bdk trustedSpendable minBalance s) :
      total (acknowledged env s.faucet.pow) = 0 := by
    simp [acknowledged, initial_pool init.1.1, total]
  cases ts with
  | nil => exact nothing run.initial_of_nil
  | cons x b =>
      have begin := (run.cut (List.nil_append _).symm).initial_of_nil
      rw [acknowledged_since run (List.nil_append _).symm, nothing begin, zero_add]

private theorem first_claim_covered
    (run : ReserveRun env bdk cfg trustedSpendable config minBalance ts s)
    (none : ∀ x ∈ ts, accepted x.label = none) (x : Transition (State W Tx) (Label Tx)) :
    Covered env bdk trustedSpendable minBalance ts x := by
  rintro id claim request old g b r c _ _ _ rfl _
  obtain ⟨before, after⟩ := List.forall_mem_append.mp none
  have first := acknowledged_total (run.cut rfl)
  have parts := outstanding_add_counted (faucet_run (run.cut rfl))
  have quiet : acceptedIn b = 0 ∧ acceptedIn c = 0 := by
    constructor
    · simp [acceptedIn, List.filterMap_eq_nil_iff.mpr before]
    · simp [acceptedIn, List.filterMap_eq_nil_iff.mpr fun y late =>
        after y (List.mem_cons_of_mem r late)]
  unfold owed
  omega

/-- The condition leaves nothing out: where nothing is paid into the wallet, a claim that is not
covered takes the balance, without the outstanding payouts, below that bound. -/
theorem uncovered_claim_breaks
    (run : ReserveRun env bdk cfg trustedSpendable config minBalance ts s)
    (taken : Step env bdk cfg trustedSpendable config s l s')
    (level : ∀ x ∈ ts ++ [⟨s, l, s'⟩],
      funds bdk trustedSpendable x.source = funds bdk trustedSpendable x.target)
    (uncovered : ¬ Covered env bdk trustedSpendable minBalance ts ⟨s, l, s'⟩) :
    ¬ Protected env bdk trustedSpendable minBalance s' := by
  unfold Covered at uncovered
  push Not at uncovered
  obtain ⟨id, claim, request, old, g, b, r, c, label, _, _, split, read, short⟩ := uncovered
  have given : accepted l = some request := by
    rw [show l = _ from label]
    rfl
  obtain ⟨_, _, _, _, _, amount⟩ := claim_step taken given
  have split' : ts ++ [⟨s, l, s'⟩] = b ++ r :: (c ++ [⟨s, l, s'⟩]) := by
    rw [split, List.append_assoc, List.cons_append]
  have same : funds bdk trustedSpendable r.source = funds bdk trustedSpendable s' :=
    funds_since (run.next taken) split' level
  have more := acknowledged_since (run.next taken) split'
  rw [acceptedIn_read read, acceptedIn_append, acceptedIn_single, given, Option.elim_some,
    amount] at more
  have before := funds_owed (run.cut split)
  have after := funds_owed (run.next taken)
  unfold Protected
  omega

/-! A wallet with one coin and two clients, who both get their challenges before either claims. -/

def sampleConfig : DifficultyConfig := ⟨8, 0, 10000, 15000, -1 / 625, 24⟩

private theorem sampleConfig_accepted :
    DifficultyConfig.new .exact 8 0 10000 5000 (.finite 1) = .ok sampleConfig := by decide +kernel

def sampleBalance (w : Ledger) : ℕ :=
  if w.evictedAt 0 < w.lastSeen 0 then
    if w.evictedAt 1 < w.lastSeen 1 then 8000 else 13000
  else 0

/-- A run that pays out `n` accepted claims, all of them covered. -/
private structure SampleRun (n : ℕ) (ts : ReserveTrace Ledger ℕ) (s : State Ledger ℕ) : Prop where
  run : ReserveRun sampleEnv ledgerBdk defaultConfig sampleBalance sampleConfig 10000 ts s
  pays : ∀ x ∈ ts, PaysOnlyClaims ledgerBdk sampleBalance x
  covered : ∀ a x b, ts = a ++ x :: b → Covered sampleEnv ledgerBdk sampleBalance 10000 a x
  claims : (ts.filterMap fun x => accepted x.label).length = n

section

variable {n : ℕ} {ts : ReserveTrace Ledger ℕ} {s s' : State Ledger ℕ} {l : Label ℕ}

private theorem SampleRun.next (sample : SampleRun n ts s)
    (taken : Step sampleEnv ledgerBdk defaultConfig sampleBalance sampleConfig s l s')
    (pays : PaysOnlyClaims ledgerBdk sampleBalance ⟨s, l, s'⟩) (quiet : accepted l = none) :
    SampleRun n (ts ++ [⟨s, l, s'⟩]) s' where
  run := sample.run.next taken
  pays := snoc_forall sample.pays pays
  covered := snoc_cut_forall sample.covered fun _ _ _ _ _ _ _ _ label => by
    cases label
    cases quiet
  claims := by simp [quiet, sample.claims]

private theorem SampleRun.claim (sample : SampleRun 0 ts s)
    (taken : Step sampleEnv ledgerBdk defaultConfig sampleBalance sampleConfig s l s')
    (pays : PaysOnlyClaims ledgerBdk sampleBalance ⟨s, l, s'⟩) {request : L1PayoutRequest}
    (given : accepted l = some request) : SampleRun 1 (ts ++ [⟨s, l, s'⟩]) s' where
  run := sample.run.next taken
  pays := snoc_forall sample.pays pays
  covered := snoc_cut_forall sample.covered (first_claim_covered sample.run (by
    simpa using sample.claims) _)
  claims := by simp [given, sample.claims]

end

section

variable {n : ℕ} {ts : ReserveTrace Ledger ℕ} {now : Instant} {challengeSet : ChallengeSet}
variable {queue : Pow.Eviction.EvictionQueue} {task : Pow.Eviction.Task}
variable {pool : Multiset (CallId × Pow.Machine.Pc)} {batcher : Batcher.Machine.State Ledger ℕ}
variable {readings : CallId → Option ℕ}

private theorem SampleRun.thread {id : CallId} {sh sh' : Pow.Machine.Shared}
    {pc pc' : Pow.Machine.Pc} {event : Pow.Machine.ThreadEvent}
    (sample : SampleRun n ts ⟨⟨⟨sh, task, (id, pc) ::ₘ pool⟩, batcher⟩, readings⟩)
    (action : Pow.Machine.ThreadStep sampleEnv id sh pc event sh' pc')
    (quiet : handedOver (.thread id event) = none) :
    ∃ ts', SampleRun n ts' ⟨⟨⟨sh', task, (id, pc') ::ₘ pool⟩, batcher⟩, readings⟩ :=
  ⟨_, sample.next (.faucet (.pow (.act action) quiet) (by rintro _ _ _ _ _ ⟨⟩)) le_rfl quiet⟩

def sampleChallenge (now : Instant) (difficulty : UInt8) : Challenge :=
  candidate (Vector.replicate 16 7) now difficulty 120

private theorem SampleRun.got (id : CallId) (ip : Ipv4Addr)
    (sample : SampleRun n ts ⟨⟨⟨⟨now, challengeSet, queue⟩, task, pool⟩, batcher⟩, readings⟩)
    {x : ℕ} {difficulty : UInt8} (worth : sampleBalance batcher.wallet = x)
    (priced : calculateDifficulty .exact sampleConfig x = difficulty)
    (unused : id ∉ pool.map Prod.fst) (unread : readings id = none)
    (free : challengeSet (keyOf ip .l1) = none) (unlocked : queue.locked = false)
    (started : queue.start ≤ now) :
    ∃ ts' queue', SampleRun n ts' ⟨⟨⟨⟨now,
        Function.update challengeSet (keyOf ip .l1) (some (sampleChallenge now difficulty)),
        queue'⟩, task, (id, .got ip .l1 (sampleChallenge now difficulty)) ::ₘ pool⟩, batcher⟩,
        Function.update readings id (some x)⟩ ∧
      queue'.locked = false ∧ queue'.start = queue.start := by
  have read := sample.next (.balanceRead unread) le_rfl rfl
  simp only [worth] at read
  have called := read.next (.faucet (.pow (@Pow.Machine.Step.called sampleEnv _ id
    (.get ip .l1 (Vector.replicate 16 7) difficulty 120) unused) rfl) (by
      rintro _ _ _ _ _ ⟨⟩
      exact ⟨x, Function.update_self _ _ _, priced.symm⟩))
    le_rfl rfl
  obtain ⟨_, installed⟩ := called.thread (.installed (getCas_ok.mpr ⟨free, rfl, rfl⟩)) rfl
  obtain ⟨_, pushed⟩ := installed.thread (.pushed unlocked started) rfl
  cases earlier : (queue.push (Pow.Eviction.entryOf ip .l1
      (sampleChallenge now difficulty))).mustWakeEarlier (sampleChallenge now difficulty) with
  | true =>
      obtain ⟨_, loaded⟩ := pushed.thread (.loaded earlier) rfl
      obtain ⟨_, sent⟩ := loaded.thread .sent rfl
      exact ⟨_, _, sent, unlocked, rfl⟩
  | false =>
      obtain ⟨_, loaded⟩ := pushed.thread (.loadedLater earlier) rfl
      exact ⟨_, _, loaded, unlocked, rfl⟩

private theorem SampleRun.solves (id : CallId) (claim : Claim) {c : Challenge}
    (sample : SampleRun n ts ⟨⟨⟨⟨now, challengeSet, queue⟩, task, pool⟩, batcher⟩, readings⟩)
    (unused : id ∉ pool.map Prod.fst) (present : challengeSet claim.key = some c)
    (unclaimed : c.claimed = false)
    (solved : checkHash sampleEnv.sha256 c claim.solution = .ok ()) :
    ∃ ts', SampleRun n ts' ⟨⟨⟨⟨now, Function.update challengeSet claim.key (some c.markClaimed),
      queue⟩, task, (id, .settle claim) ::ₘ pool⟩, batcher⟩, readings⟩ := by
  have called := sample.next (.faucet (.pow (@Pow.Machine.Step.called sampleEnv _ id
    (.check claim) unused) rfl) (by rintro _ _ _ _ _ ⟨⟩)) le_rfl rfl
  obtain ⟨_, read⟩ := called.thread (.read (checkRead_ok.mpr ⟨present, unclaimed⟩)) rfl
  obtain ⟨_, swapped⟩ := read.thread (.swapped (checkCas_ok.mpr ⟨present, rfl⟩)) rfl
  exact swapped.thread (.accepted solved) rfl

end

def secondIp : Ipv4Addr := ⟨0x7f000002⟩
def secondClaim : Claim := .l1 secondIp (Vector.replicate 8 0) ⟨"tb1p"⟩

private theorem sample_begin : SampleRun 0 [] ⟨boot, fun _ => none⟩ :=
  ⟨.start ⟨faucet_boot_initial, rfl, by decide⟩, by simp, by simp, rfl⟩

private theorem funded_worth : sampleBalance fundedLedger = 13000 := by decide

private theorem difficulty_at_thirteen_thousand :
    calculateDifficulty .exact sampleConfig 13000 = 3 := by decide +kernel

private theorem first_accepted : ∃ ts s l s' request, SampleRun 1 ts s ∧
    total (acknowledged sampleEnv s.faucet.pow) = 5000 ∧
    s.faucet.batcher.wallet = fundedLedger ∧ s'.faucet.batcher.wallet = fundedLedger ∧
    Step sampleEnv ledgerBdk defaultConfig sampleBalance sampleConfig s l s' ∧
    accepted l = some request ∧ PaysOnlyClaims ledgerBdk sampleBalance ⟨s, l, s'⟩ ∧
    s'.faucet.batcher.batches = [] := by
  obtain ⟨_, queue, first, unlocked, started⟩ := sample_begin.got 0 localIp funded_worth
    difficulty_at_thirteen_thousand (by simp) rfl rfl rfl (Nat.le_refl 0)
  obtain ⟨_, queue, second, _⟩ := first.got 1 secondIp funded_worth
    difficulty_at_thirteen_thousand (by simp) rfl rfl unlocked (started ▸ Nat.le_refl 0)
  obtain ⟨_, settles⟩ := second.solves 2 sampleClaim (by simp) rfl rfl rfl
  have accepted := settles.claim (.faucet (.claimed (.act (.queued rfl)) rfl .queued)
    (by rintro _ _ _ _ _ ⟨⟩)) le_rfl rfl
  obtain ⟨_, settles'⟩ := accepted.solves 3 secondClaim (by simp) rfl rfl rfl
  exact ⟨_, _, _, _, _, settles', rfl, rfl, rfl, .faucet (.claimed (.act (.queued rfl)) rfl .queued)
    (by rintro _ _ _ _ _ ⟨⟩), rfl, le_rfl, rfl⟩

private theorem sample_below (ts : ReserveTrace Ledger ℕ) : BelowMaximum sampleEnv 8 ts := by
  intro id claim old _ _ _
  change leadingZeroBits (Vector.replicate 32 (1 : UInt8)).toList < _
  decide

private theorem SampleRun.batcher {n : ℕ} {ts : ReserveTrace Ledger ℕ} {pow : Pow.Machine.State}
    {b b' : Batcher.Machine.State Ledger ℕ} {readings : CallId → Option ℕ}
    {label : Batcher.Machine.Label ℕ} (sample : SampleRun n ts ⟨⟨pow, b⟩, readings⟩)
    (taken : Batcher.Machine.Step ledgerBdk defaultConfig b label b')
    (other : ∀ request, label ≠ .queued request)
    (pays : sampleBalance b.wallet + total (countedRequests ledgerBdk b) ≤
      sampleBalance b'.wallet + total (countedRequests ledgerBdk b')) :
    SampleRun n (ts ++ [⟨⟨⟨pow, b⟩, readings⟩, .faucet (.batcher label), ⟨⟨pow, b'⟩, readings⟩⟩])
      ⟨⟨pow, b'⟩, readings⟩ :=
  sample.next (.faucet (.batcher taken other) (by rintro _ _ _ _ _ ⟨⟩)) pays rfl

private def sentBatch : Batch ℕ := ⟨1, [firstRequest], .broadcasting⟩

private def seenLedger : Ledger := fundedLedger.update ⟨0, [], [1], []⟩

private theorem seen_worth : sampleBalance seenLedger = 8000 := by decide

private theorem paid_run : ∃ ts x y s, SampleRun 1 (ts ++ [x, y]) s ∧
    x.label = .faucet (.batcher (.syncApplied ⟨0, [], [1], []⟩)) ∧
    x.source.faucet.batcher.batches = [⟨1, [firstRequest], .broadcasting⟩] ∧
    sampleBalance x.source.faucet.batcher.wallet = 13000 ∧
    sampleBalance s.faucet.batcher.wallet = 8000 := by
  obtain ⟨_, queue, first, unlocked, started⟩ := sample_begin.got 0 localIp funded_worth
    difficulty_at_thirteen_thousand (by simp) rfl rfl rfl (Nat.le_refl 0)
  obtain ⟨_, settles⟩ := first.solves 1 sampleClaim (by simp) rfl rfl rfl
  have accepted := settles.claim (.faucet (.claimed (.act (.queued rfl)) rfl .queued)
    (by rintro _ _ _ _ _ ⟨⟩)) le_rfl rfl
  have received := accepted.batcher (show Batcher.Machine.Step _ _ _ (.received firstRequest)
    ⟨1, [], [firstRequest], fundedLedger, [], .asleep⟩ from .received rfl) nofun le_rfl
  have built := received.batcher (show Batcher.Machine.Step _ _ _ (.built sentBatch)
    ⟨1, [], [], fundedLedger, [sentBatch], .asleep⟩ from .built (List.cons_ne_nil _ _)
      (show ledgerBdk.finish _ 250 _ (some 1) _ from ⟨rfl, fun tx _ => funded_spendable tx⟩))
    nofun (Nat.le_add_right _ _)
  have syncing := built.batcher (show Batcher.Machine.Step _ _ _ .syncStarted
    ⟨1, [], [], fundedLedger, [sentBatch], .syncing (seconds 1)⟩ from .syncStarted rfl) nofun le_rfl
  have unseen : countedOf ledgerBdk fundedLedger sentBatch = 0 := if_neg (lt_irrefl ⊥)
  have seen : countedOf ledgerBdk seenLedger sentBatch = {firstRequest} :=
    if_pos (WithBot.bot_lt_coe 0)
  have synced := syncing.batcher (show Batcher.Machine.Step _ _ _ (.syncApplied ⟨0, [], [1], []⟩)
    ⟨1, [], [], seenLedger, [sentBatch], .asleep⟩ from .syncApplied rfl) nofun (by
      unfold countedRequests
      dsimp only
      rw [List.map_singleton, List.map_singleton, unseen, seen, funded_worth, seen_worth]
      decide)
  have read := synced.next (@Step.balanceRead _ _ _ _ _ _ _ _ 2 rfl) le_rfl rfl
  rw [List.append_assoc] at read
  exact ⟨_, _, _, _, read, rfl, rfl, funded_worth, seen_worth⟩

theorem min_balance_protected_nonvacuous : ∃ ts x y s,
    ReserveRun sampleEnv ledgerBdk defaultConfig sampleBalance sampleConfig 10000 (ts ++ [x, y])
      s ∧
    x.label = .faucet (.batcher (.syncApplied ⟨0, [], [1], []⟩)) ∧
    x.source.faucet.batcher.batches = [⟨1, [firstRequest], .broadcasting⟩] ∧
    sampleBalance x.source.faucet.batcher.wallet = 13000 ∧
    sampleBalance s.faucet.batcher.wallet = 8000 ∧
    10000 + total (unbroadcast sampleEnv ledgerBdk s.faucet) ≤
      sampleBalance s.faucet.batcher.wallet + sampleEnv.l1AmountPerClaim := by
  obtain ⟨ts, x, y, s, sample, label, batches, before, after⟩ := paid_run
  exact ⟨ts, x, y, s, sample.run, label, batches, before, after,
    min_balance_protected sampleConfig_accepted sample.run sample.pays (sample_below _)
      sample.covered⟩

/-- Both clients are priced at 13000, and the second claim takes what is left to 3000. -/
theorem min_balance_lost : ∃ ts s,
    DifficultyConfig.new .exact 8 0 10000 5000 (.finite 1) = .ok sampleConfig ∧
      ReserveRun sampleEnv ledgerBdk defaultConfig sampleBalance sampleConfig 10000 ts s ∧
      (∀ x ∈ ts, PaysOnlyClaims ledgerBdk sampleBalance x) ∧ BelowMaximum sampleEnv 8 ts ∧
      sampleBalance s.faucet.batcher.wallet = 13000 ∧
      total (unbroadcast sampleEnv ledgerBdk s.faucet) = 10000 ∧
      ¬ 10000 + total (unbroadcast sampleEnv ledgerBdk s.faucet) ≤
        sampleBalance s.faucet.batcher.wallet + sampleEnv.l1AmountPerClaim := by
  obtain ⟨ts, s, l, s', _, sample, before, _, wallet, taken, given, pays, unbuilt⟩ := first_accepted
  obtain ⟨_, _, _, _, _, amount⟩ := claim_step taken given
  have more := acknowledged_since (sample.run.next taken) rfl
  rw [acceptedIn_single, given, Option.elim_some, amount, before] at more
  have worth : sampleBalance s'.faucet.batcher.wallet = 13000 := wallet ▸ funded_worth
  have waiting : total (unbroadcast sampleEnv ledgerBdk s'.faucet) = 10000 := by
    rw [unbroadcast_of_unbuilt unbuilt]
    exact more
  refine ⟨_, _, sampleConfig_accepted, sample.run.next taken, snoc_forall sample.pays pays,
    sample_below _, worth, waiting, ?_⟩
  rw [worth, waiting]
  decide

end FaucetApi.Faucet.Reserve
