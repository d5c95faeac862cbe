/- module: FaucetApi/Pow/Leasing
   layer: refinement
   digest: The challenge set is a store of leases, and so it limits the rate of claims. -/

import FaucetApi.Lib.Leases
import FaucetApi.Pow.Tokens
import Mathlib.Algebra.Order.Ring.Nat

set_option autoImplicit false
set_option relaxedAutoImplicit false

namespace FaucetApi.Pow.Leasing

open FaucetApi.Lib.Runs
open FaucetApi.Lib.Simulation
open FaucetApi.Lib
open FaucetApi.Pow.Hash
open FaucetApi.Pow.Challenges
open FaucetApi.Pow.Claims
open FaucetApi.Pow.Eviction
open FaucetApi.Pow.Machine
open FaucetApi.Pow.Threads
open FaucetApi.Pow.Consumption
open FaucetApi.Pow.Tokens

variable {env : Env} {ts a b : Trace} {s₀ s s' : State} {id : CallId} {key : Key} {l : Label}

/-- A client leases its key; what it gets is a nonce and a difficulty. -/
abbrev Terms := Nonce × UInt8

def leaseOf (c : Challenge) : Leases.Lease Terms Instant :=
  ⟨(c.nonce, c.difficulty), c.expiresAt, c.claimed⟩

def storeOf (s : State) : Leases.Store Key Terms Instant :=
  ⟨s.shared.now, fun key => (s.shared.challengeSet key).map leaseOf⟩

/-- What a step means for the leases: a claim uses the lease before its solution is checked. -/
def leaseLabel : Label → Option (Leases.Label Key Terms Instant)
  | .clock _ => some .advance
  | .thread _ (.installed ip chain c) =>
      some (.grant (keyOf ip chain) (c.nonce, c.difficulty) c.expiresAt)
  | .thread _ (.swapped claim _) => some (.use claim.key)
  | .task (.removed entry _) => some (.drop entry.key)
  | _ => none

private theorem map_update (m : ChallengeSet) (key : Key) (bound : Option Challenge) :
    (fun k => (Function.update m key bound k).map leaseOf) =
      Function.update (fun k => (m k).map leaseOf) key (bound.map leaseOf) := by
  ext1 k
  by_cases here : k = key
  · subst here
    simp
  · simp [here]

private theorem now_of_step (taken : Step env s l s') (still : ∀ duration, l ≠ .clock duration) :
    s'.shared.now = s.shared.now := by
  cases taken with
  | clock => exact (still _ rfl).elim
  | called _ => rfl
  | thread _ action => cases action <;> rfl
  | task action => cases action <;> rfl

theorem storeOf_step {bound : Option Challenge} (same : s'.shared.now = s.shared.now)
    (updated : s'.shared.challengeSet = Function.update s.shared.challengeSet key bound) :
    storeOf s' = { storeOf s with
      held := Function.update (storeOf s).held key (bound.map leaseOf) } := by
  simp only [storeOf, same, updated, map_update]

private theorem takesPart (run : PowRun env a s) (taken : Step env s l s') :
    TakesPart Leases.Step (storeOf s) (leaseLabel l) (storeOf s') := by
  have effect := map_effect taken
  generalize after : s'.shared.challengeSet = m' at effect
  cases effect with
  | @installed id ip chain c absent =>
      have unclaimed : c.claimed = false :=
        installed_unclaimed (run.next taken) (did_snoc.mpr (.inr rfl))
      change Leases.Step _ (.grant _ _ _) _
      rw [storeOf_step (now_of_step taken (by simp)) after, Option.map_some, leaseOf, unclaimed]
      exact .grant (by simp [storeOf, absent])
  | @swapped id claim old stored =>
      have unclaimed : old.claimed = false :=
        swapped_unclaimed (run.next taken) (did_snoc.mpr (.inr rfl))
      change Leases.Step _ (.use _) _
      rw [storeOf_step (now_of_step taken (by simp)) after]
      have held : (storeOf s).held claim.key = some (leaseOf old) := by simp [storeOf, stored]
      exact .use held unclaimed
  | @removed entry =>
      obtain ⟨c, stored, _, due⟩ := removed_expired run taken
      change Leases.Step _ (.drop _) _
      rw [storeOf_step (now_of_step taken (by simp)) after]
      have held : (storeOf s).held entry.key = some (leaseOf c) := by simp [storeOf, stored]
      exact .drop held due
  | same noInstall noSwap noRemove =>
      cases l with
      | clock duration =>
          have passed := clock_monotone taken
          change Leases.Step _ .advance _
          have moved : storeOf s' = { storeOf s with now := s'.shared.now } := by
            rw [storeOf, storeOf, after]
          rw [moved]
          exact .advance passed
      | called _ _ =>
          change storeOf s' = storeOf s
          rw [storeOf, storeOf, after, now_of_step taken (by simp)]
      | thread id event =>
          have still : storeOf s' = storeOf s := by
            rw [storeOf, storeOf, after, now_of_step taken (by simp)]
          cases event with
          | installed _ _ _ => exact (noInstall _ _ _ _ rfl).elim
          | swapped _ _ => exact (noSwap _ _ _ rfl).elim
          | _ => exact still
      | task event =>
          have still : storeOf s' = storeOf s := by
            rw [storeOf, storeOf, after, now_of_step taken (by simp)]
          cases event with
          | removed _ _ => exact (noRemove _ _ rfl).elim
          | _ => exact still

private theorem storeOf_initial (init : Initial s) : Leases.Initial (storeOf s) := by
  obtain ⟨_, _, rfl⟩ := init
  rfl

/-- The machine of handler calls and eviction, seen as a store of leases. -/
def leasing (env : Env) : Refinement Initial (Step env) Leases.Initial
    (Leases.Step (K := Key) (V := Terms) (T := Instant)) where
  state := storeOf
  label := leaseLabel
  base := fun _ init => storeOf_initial init
  part := takesPart

/-- Every run of handler calls and eviction is a run of leases, and every stretch of it a stretch:
a challenge is granted only for a key that is free, is claimed only once, and is dropped only when
it has expired. -/
theorem challenges_are_leases (run : PowRun env a s₀) (later : Stretch (Step env) s₀ b s) :
    Run Leases.Initial Leases.Step ((leasing env).view a) (storeOf s₀) ∧
      Stretch Leases.Step (storeOf s₀) ((leasing env).view b) (storeOf s) :=
  ⟨(leasing env).run run, (leasing env).stretch run later⟩

def startedAt (now : Instant) : State :=
  ⟨⟨now, fun _ => none, EvictionQueue.new now⟩, ⟨.waiting, (EvictionQueue.new now).farFuture⟩, 0⟩

@[simp] theorem startedAt_pool (now : Instant) : (startedAt now).pool = 0 := rfl

theorem startedAt_initial (now : Instant) : Initial (startedAt now) := ⟨now, now, rfl⟩

/-- A challenge is granted, claimed and dropped. -/
theorem challenges_are_leases_nonvacuous : ∃ s₀ b s terms,
    PowRun sampleEnv [] s₀ ∧ Stretch (Step sampleEnv) s₀ b s ∧
    Stretch Leases.Step (storeOf s₀) ((leasing sampleEnv).view b) (storeOf s) ∧
    ((leasing sampleEnv).view b).map Transition.label =
      [.grant (keyOf localIp .l1) terms 120, .use (keyOf localIp .l1), .advance,
        .drop (keyOf localIp .l1)] := by
  have begin : PowRun sampleEnv [] (startedAt 0) := .start (startedAt_initial 0)
  have get := (stretch_nil begin).next
    (@Step.called _ _ 0 (.get localIp .l1 (Vector.replicate 16 7) 5 120) (by simp))
  have installed := get.next (.act (.installed (getCas_ok.mpr ⟨rfl, rfl, rfl⟩)))
  have pushed := installed.next (.act (.pushed rfl le_rfl))
  have loaded := pushed.next (.act (.loaded (by decide)))
  have sent := loaded.next (.act .sent)
  have claim := sent.next (@Step.called _ _ 1 (.check sampleClaim) (by simp))
  have read := claim.next (.act (.read (checkRead_ok.mpr ⟨rfl, rfl⟩)))
  have swapped := read.next (.act (.swapped (checkCas_ok.mpr ⟨rfl, rfl⟩)))
  have received := swapped.next (.evict (.received rfl rfl))
  have stored := received.next (.evict (.stored rfl))
  have later := stored.next (@Step.clock _ _ 120)
  have woke := later.next (.evict (.woke rfl (by decide)))
  have locked := woke.next (.evict (.locked rfl rfl))
  have popped := locked.next (.evict (.popped rfl (pop_last _) (by decide)))
  have stopped := popped.next (.evict (.stoppedEmpty rfl rfl))
  have removed := stopped.next (.evict (.removed rfl rfl))
  exact ⟨_, _, _, _, begin, removed, (challenges_are_leases begin removed).2, rfl⟩

/-! How often a key can be claimed and paid. -/

def claimsFor (key : Key) : Label → Bool
  | .thread _ (.swapped claim _) => decide (claim.key = key)
  | _ => false

theorem claimsFor_eq_true (claims : claimsFor key l = true) :
    ∃ id claim old, l = .thread id (.swapped claim old) ∧ claim.key = key := by
  unfold claimsFor at claims
  split at claims
  · exact ⟨_, _, _, rfl, of_decide_eq_true claims⟩
  · cases claims

def paysFor (key : Key) : Label → Bool
  | .thread _ (.queued claim _) => decide (claim.key = key)
  | .thread _ (.transferred claim _) => decide (claim.key = key)
  | _ => false

def claims (key : Key) (ts : Trace) : ℕ := ts.countP (fun x => claimsFor key x.label)

/-- The payout requests that were queued and the transactions that were sent for the key. -/
def payments (key : Key) (ts : Trace) : ℕ := ts.countP (fun x => paysFor key x.label)

def claiming (key : Key) : Pc → Bool
  | .checkHash claim _ => decide (claim.key = key)
  | .settle claim => decide (claim.key = key)
  | _ => false

def unsettled (key : Key) (pool : Multiset (CallId × Pc)) : ℕ :=
  pool.countP (fun call => claiming key call.2)

private theorem unsettled_cons (key : Key) (id : CallId) (pc : Pc) (pool : Multiset (CallId × Pc)) :
    unsettled key ((id, pc) ::ₘ pool) = unsettled key pool + (claiming key pc).toNat := by
  rw [unsettled, Multiset.countP_cons, ← unsettled]
  cases claiming key pc <;> rfl

private theorem claims_snoc (key : Key) (ts : Trace) (x : Transition State Label) :
    claims key (ts ++ [x]) = claims key ts + (claimsFor key x.label).toNat := countP_snoc _ ts x

private theorem payments_snoc (key : Key) (ts : Trace) (x : Transition State Label) :
    payments key (ts ++ [x]) = payments key ts + (paysFor key x.label).toNat := countP_snoc _ ts x

private theorem uses_view (key : Key) (ts : Trace) :
    Leases.uses key ((leasing env).view ts) = claims key ts := by
  rw [Leases.uses, Refinement.countP_view, claims]
  congr 1
  funext x
  cases x.label with
  | thread id event =>
      cases event <;> simp [leasing, leaseLabel, claimsFor, Leases.Label.uses]
  | task event => cases event <;> simp [leasing, leaseLabel, claimsFor, Leases.Label.uses]
  | _ => simp [leasing, leaseLabel, claimsFor, Leases.Label.uses]

private theorem leaseOf_inj {c c' : Challenge} (same : leaseOf c = leaseOf c') : c = c' := by
  obtain ⟨nonce, claimed, expiresAt, difficulty⟩ := c
  simp only [leaseOf, Leases.Lease.mk.injEq, Prod.mk.injEq] at same
  obtain ⟨⟨rfl, rfl⟩, rfl, rfl⟩ := same
  rfl

theorem stored_until_expired {c : Challenge} (run : PowRun env a s₀)
    (later : Stretch (Step env) s₀ b s) (stored : s₀.shared.challengeSet key = some c) :
    c.expiresAt ≤ s.shared.now ∨
      s.shared.challengeSet key =
        some { c with claimed := c.claimed || decide (0 < claims key b) } := by
  have held : (storeOf s₀).held key = some (leaseOf c) := by simp [storeOf, stored]
  rcases Leases.held_until_expired ((leasing env).stretch run later) held with expired | kept
  · exact .inl expired
  · rw [uses_view] at kept
    obtain ⟨now, found, same⟩ := Option.map_eq_some_iff.mp kept
    exact .inr (found.trans (congrArg some (leaseOf_inj same)))

private theorem payments_action (key : Key) {sh sh' : Shared} {pc pc' : Pc} {event : ThreadEvent}
    (action : ThreadStep env id sh pc event sh' pc') :
    (paysFor key (.thread id event)).toNat + (claiming key pc').toNat ≤
      (claimsFor key (.thread id event)).toNat + (claiming key pc).toNat := by
  cases action with
  | rejected _ => exact Nat.zero_le _
  | wrongNetwork _ => exact Nat.zero_le _
  | sendFailed => exact Nat.zero_le _
  | _ => simp [paysFor, claimsFor, claiming]

private theorem payments_step (key : Key) (taken : Step env s l s') :
    (paysFor key l).toNat + unsettled key s'.pool ≤
      (claimsFor key l).toNat + unsettled key s.pool := by
  cases taken with
  | clock => exact le_rfl
  | @called id call _ =>
      have begins : claiming key (call.entry s.shared.now) = false := by cases call <;> rfl
      simp [unsettled_cons, begins, paysFor]
  | task _ => exact Nat.add_le_add_right (by simp [paysFor]) _
  | thread pool action =>
      have moved := payments_action key action
      rw [pool, unsettled_cons, unsettled_cons]
      omega

/-- In any stretch the payments for a key are at most its claims, and one more for every claim that
was unsettled at the beginning. -/
theorem payments_add_unsettled_le (key : Key) (later : Stretch (Step env) s₀ b s) :
    payments key b + unsettled key s.pool ≤ claims key b + unsettled key s₀.pool := by
  induction later with
  | start same => simp [payments, claims, same]
  | next _ taken ih =>
      have moved := payments_step key taken
      rw [payments_snoc, claims_snoc]
      dsimp only
      omega

/-- A challenge, if this step installs one, lasts for at least this long from now on. -/
def Lasting (period : Duration) (x : Transition State Label) : Prop :=
  ∀ id ip chain c, x.label = .thread id (.installed ip chain c) →
    x.source.shared.now + period ≤ c.expiresAt

private theorem lasting_view {period : Duration} (lasting : ∀ x ∈ ts, Lasting period x) :
    ∀ y ∈ (leasing env).view ts, Leases.Lasting period y := by
  rintro y member key value expiresAt label
  obtain ⟨x, inside, seen, source, _⟩ := mem_projected member
  rw [label] at seen
  rw [source]
  generalize at_x : x.label = l at seen
  change leaseLabel l = _ at seen
  cases l with
  | thread id event =>
      cases event with
      | installed ip chain c =>
          cases seen
          exact lasting x inside id ip chain c at_x
      | _ => cases seen
  | task event => cases event <;> cases seen
  | _ => cases seen

private theorem le_periods {period : Duration} {n : ℕ} (pos : 0 < period) (run : PowRun env a s₀)
    (later : Stretch (Step env) s₀ b s) (lasting : ∀ x ∈ b, Lasting period x)
    (key : Key) (count : (storeOf s₀).unused key + n + 1 ≤ claims key b) :
    n ≤ (s.shared.now - s₀.shared.now) / period := by
  rw [← uses_view] at count
  have passed := Leases.uses_spaced ((leasing env).stretch run later) (lasting_view lasting) count
    (Nat.zero_le _)
  rw [Nat.le_div_iff_mul_le pos]
  exact Nat.le_sub_of_add_le' passed

private theorem claims_le {period : Duration} (pos : 0 < period) (run : PowRun env a s₀)
    (later : Stretch (Step env) s₀ b s) (lasting : ∀ x ∈ b, Lasting period x) (key : Key) :
    claims key b ≤ (s.shared.now - s₀.shared.now) / period + 2 := by
  by_contra many
  have unused := Leases.unused_le_one (storeOf s₀) key
  have bound := le_periods (n := (s.shared.now - s₀.shared.now) / period + 1) pos run later lasting
    key (by omega)
  omega

theorem claims_le_from_start {period : Duration} (pos : 0 < period) (init : Initial s₀)
    (later : Stretch (Step env) s₀ b s) (lasting : ∀ x ∈ b, Lasting period x) (key : Key) :
    claims key b ≤ (s.shared.now - s₀.shared.now) / period + 1 := by
  by_contra many
  have unused := Leases.unused_of_initial (storeOf_initial init) key
  have bound := le_periods (n := (s.shared.now - s₀.shared.now) / period + 1) pos (.start init)
    later lasting key (by omega)
  omega

/-- However the handler calls and the eviction interleave, a client can claim at most two challenges
and one more for every full period that passes, where every challenge lasts at least a period from
its installation on; from the start of the server on, at most one and one more for every period.
What it is paid is limited in the same way. -/
theorem claims_are_rate_limited {period : Duration} (pos : 0 < period) (run : PowRun env a s₀)
    (later : Stretch (Step env) s₀ b s) (lasting : ∀ x ∈ b, Lasting period x) (key : Key) :
    claims key b ≤ (s.shared.now - s₀.shared.now) / period + 2 ∧
    (Initial s₀ → claims key b ≤ (s.shared.now - s₀.shared.now) / period + 1) ∧
    payments key b ≤ claims key b + unsettled key s₀.pool := by
  refine ⟨claims_le pos run later lasting key, ?_, ?_⟩
  · exact fun init => claims_le_from_start pos init later lasting key
  · have paid := payments_add_unsettled_le key later
    omega

/-- The bound is met: a client is paid once at the start. -/
theorem claims_are_rate_limited_nonvacuous : ∃ s₀ b s, PowRun sampleEnv [] s₀ ∧
    Stretch (Step sampleEnv) s₀ b s ∧ (∀ x ∈ b, Lasting 120 x) ∧
    payments sampleClaim.key b = 1 ∧
    claims sampleClaim.key b = (s.shared.now - s₀.shared.now) / 120 + 1 := by
  have begin : PowRun sampleEnv [] (startedAt 0) := .start (startedAt_initial 0)
  have get := (stretch_nil begin).next
    (@Step.called _ _ 0 (.get localIp .l1 (Vector.replicate 16 7) 5 120) (by simp))
  have installed := get.next (.act (.installed (getCas_ok.mpr ⟨rfl, rfl, rfl⟩)))
  have claim := installed.next (@Step.called _ _ 1 (.check sampleClaim) (by simp))
  have read := claim.next (.act (.read (checkRead_ok.mpr ⟨rfl, rfl⟩)))
  have swapped := read.next (.act (.swapped (checkCas_ok.mpr ⟨rfl, rfl⟩)))
  have hashed := swapped.next (.act (.accepted (by decide)))
  have queued := hashed.next (.act (.queued rfl))
  have limited (lasting) := (claims_are_rate_limited (show 0 < 120 by decide) begin queued lasting
    sampleClaim.key).2.1 (startedAt_initial 0)
  refine ⟨_, _, _, begin, queued, ?lasting, rfl, le_antisymm (limited ?lasting) (by decide)⟩
  iterate 5 refine snoc_forall ?_ (by rintro _ _ _ _ ⟨⟩)
  refine snoc_forall (snoc_forall (by simp) (by rintro _ _ _ _ ⟨⟩)) ?_
  rintro _ _ _ _ ⟨⟩
  exact le_rfl

end FaucetApi.Pow.Leasing
