/- module: FaucetApi/Pow/Consumption
   layer: results
   digest: Accepted solutions consume distinct installed challenges, each at most once. -/

import FaucetApi.Pow.Threads
import Mathlib.Data.Set.Function

set_option autoImplicit false
set_option relaxedAutoImplicit false

namespace FaucetApi.Pow.Consumption

open FaucetApi.Lib.Runs
open FaucetApi.Pow.Hash
open FaucetApi.Pow.Challenges
open FaucetApi.Pow.Eviction
open FaucetApi.Pow.Claims
open FaucetApi.Pow.Machine
open FaucetApi.Pow.Threads

variable {env : Env} {ts : Trace} {s : State} {id : CallId} {key : Key} {c : Challenge}

private theorem keyOf_inj {ip ip' : Ipv4Addr} {chain chain' : Chain}
    (same : keyOf ip chain = keyOf ip' chain') : ip = ip' ∧ chain = chain' := by
  obtain ⟨bits, rfl⟩ := Prod.mk.inj same
  cases ip
  cases ip'
  simp only [Ipv4Addr.toBits] at bits
  exact ⟨by rw [bits], rfl⟩

/-- How one step changes which `get` call installed the challenge stored under `key`. -/
def installerStep (key : Key) (current : Option CallId) : Label → Option CallId
  | .thread id (.installed ip chain _) => if keyOf ip chain = key then some id else current
  | .task (.removed entry _) => if entry.key = key then none else current
  | _ => current

def installer (key : Key) (ts : Trace) : Option CallId :=
  ts.foldl (fun current x => installerStep key current x.label) none

@[simp] theorem installer_snoc (x : Transition State Label) :
    installer key (ts ++ [x]) = installerStep key (installer key ts) x.label := by
  simp [installer]

private theorem installerStep_same {current : Option CallId} {l : Label}
    (noInstall : ∀ id ip chain c, l ≠ .thread id (.installed ip chain c))
    (noRemove : ∀ entry bound, l ≠ .task (.removed entry bound)) :
    installerStep key current l = current := by
  unfold installerStep
  split
  · exact (noInstall _ _ _ _ rfl).elim
  · exact (noRemove _ _ rfl).elim
  · rfl

/-- The stored challenge `c` is the one that the call `g` installed, perhaps claimed since. -/
structure InstalledBy (ts : Trace) (key : Key) (c : Challenge) (g : CallId) : Prop where
  current : installer key ts = some g
  origin : ∃ ip chain old, keyOf ip chain = key ∧ Did ts g (.installed ip chain old) ∧
    (c = old ∨ c = old.markClaimed)

theorem InstalledBy.quiet {g : CallId} {x : Transition State Label}
    (owned : InstalledBy ts key c g)
    (calm : installerStep key (some g) x.label = some g) : InstalledBy (ts ++ [x]) key c g := by
  obtain ⟨ip, chain, old, same, did, shape⟩ := owned.origin
  exact ⟨by rw [installer_snoc, owned.current, calm], ip, chain, old, same, did.grow, shape⟩

theorem stored_installed (run : PowRun env ts s) :
    ∀ key c, s.shared.challengeSet key = some c → ∃ g, InstalledBy ts key c g := by
  induction run with
  | start init =>
      obtain ⟨_, _, rfl⟩ := init
      simp
  | @next ts s s' l prior taken ih =>
      intro key c present
      have effect := map_effect taken
      generalize s'.shared.challengeSet = m' at effect present
      cases effect with
      | @installed g ip chain c' _ =>
          by_cases here : key = keyOf ip chain
          · subst here
            rw [Function.update_self] at present
            obtain rfl := Option.some.inj present
            exact ⟨g, by simp [installerStep], ip, chain, c', rfl, did_snoc.mpr (.inr rfl),
              .inl rfl⟩
          · rw [Function.update_of_ne here] at present
            obtain ⟨g, owned⟩ := ih key c present
            exact ⟨g, owned.quiet (if_neg (Ne.symm here))⟩
      | @swapped id claim old stored =>
          by_cases here : key = claim.key
          · subst here
            rw [Function.update_self] at present
            obtain rfl := Option.some.inj present
            obtain ⟨g, owned⟩ := ih claim.key old stored
            obtain ⟨ip, chain, first, same, did, shape⟩ := owned.origin
            refine ⟨g, by simp [installerStep, owned.current], ip, chain, first, same,
              did.grow, .inr ?_⟩
            rcases shape with rfl | rfl <;> rfl
          · rw [Function.update_of_ne here] at present
            obtain ⟨g, owned⟩ := ih key c present
            exact ⟨g, owned.quiet rfl⟩
      | @removed entry =>
          by_cases here : key = entry.key
          · subst here
            simp at present
          · rw [Function.update_of_ne here] at present
            obtain ⟨g, owned⟩ := ih key c present
            exact ⟨g, owned.quiet (if_neg (Ne.symm here))⟩
      | same noInstall _ noRemove =>
          obtain ⟨g, owned⟩ := ih key c present
          exact ⟨g, owned.quiet (installerStep_same noInstall noRemove)⟩

/-- The call reached the hash check: its compare-and-swap marked a challenge as claimed. -/
def ReachedHash (ts : Trace) (id : CallId) : Prop :=
  ∃ claim old, Did ts id (.swapped claim old)

/-- The call `id` has the challenge that `source id` installed for the same address and chain: it
is stored and unclaimed when the compare-and-swap of `id` hits it. -/
structure Hit (a : Trace) (x : Transition State Label) (claim : Claim) (old : Challenge)
    (g : CallId) : Prop where
  current : installer claim.key a = some g
  installed : Did a g (.installed claim.ip claim.chain old)
  stored : x.source.shared.challengeSet claim.key = some old
  unclaimed : old.claimed = false

structure Consumes (ts : Trace) (s : State) (source : CallId → CallId) : Prop where
  hit : ∀ a x b id claim old, ts = a ++ x :: b → x.label = .thread id (.swapped claim old) →
    Hit a x claim old (source id)
  distinct : Set.InjOn source {id | ReachedHash ts id}
  /-- A challenge that has had its consumer stays claimed for as long as it is stored. -/
  spent : ∀ id claim old, Did ts id (.swapped claim old) →
    installer claim.key ts = some (source id) →
    ∃ c, s.shared.challengeSet claim.key = some c ∧ c.claimed = true

private def remembersInstall : ThreadEvent → Pc → Prop
  | .installed ip chain c, pc => pc = .addPush ip chain c ∨ pc = .addLoad ip chain c ∨
      pc = .addSend ip chain c ∨ pc = .got ip chain c
  | _, _ => True

private theorem installed_once (run : PowRun env ts s) {ip ip' : Ipv4Addr} {chain chain' : Chain}
    {c c' : Challenge} (did : Did ts id (.installed ip chain c))
    (did' : Did ts id (.installed ip' chain' c')) : ip = ip' ∧ chain = chain' ∧ c = c' := by
  have recorded := event_recorded (Q := remembersInstall) run
    (fun id sh pc event sh' pc' action => by cases action <;> simp [remembersInstall])
    (fun id sh pc event event' sh' pc' held action => by
      cases event with
      | installed ip chain c => cases action <;> simp_all [remembersInstall]
      | _ => trivial)
  obtain ⟨x, member, label⟩ := did
  obtain ⟨x', member', label'⟩ := did'
  obtain ⟨pc, here, held⟩ := recorded x member id _ label
  obtain ⟨pc', here', held'⟩ := recorded x' member' id _ label'
  obtain rfl := pc_unique run here here'
  rcases held with rfl | rfl | rfl | rfl <;> simpa [remembersInstall] using held'

def installs : ThreadEvent → Bool
  | .installed _ _ _ => true
  | _ => false

def swaps : ThreadEvent → Bool
  | .swapped _ _ => true
  | _ => false

def hashes : ThreadEvent → Bool
  | .hashed _ _ => true
  | _ => false

def payouts (event : ThreadEvent) : Bool := (paidClaim event).isSome

private theorem installs_nodup (run : PowRun env ts s) : (doers installs ts).Nodup :=
  once_per_call (n := 0) run (by
    intro id sh pc event sh' pc' action fit
    cases action <;> simp_all [installs, stage])

theorem swaps_nodup (run : PowRun env ts s) : (doers swaps ts).Nodup :=
  once_per_call (n := 1) run (by
    intro id sh pc event sh' pc' action fit
    cases action <;> simp_all [swaps, stage])

private theorem hashes_nodup (run : PowRun env ts s) : (doers hashes ts).Nodup :=
  once_per_call (n := 2) run (by
    intro id sh pc event sh' pc' action fit
    cases action <;> simp_all [hashes, stage])

theorem payouts_nodup (run : PowRun env ts s) : (doers payouts ts).Nodup :=
  once_per_call (n := 3) run (by
    intro id sh pc event sh' pc' action fit
    cases action <;> simp_all [payouts, paidClaim, stage])

theorem fresh_of_nodup {kind : ThreadEvent → Bool} {x : Transition State Label}
    {event event' : ThreadEvent} (nodup : (doers kind (ts ++ [x])).Nodup)
    (label : x.label = .thread id event) (fit : kind event = true) (fit' : kind event' = true) :
    ¬ Did ts id event' := by
  intro did
  rw [doers, List.filterMap_append, ← doers, List.nodup_append] at nodup
  refine nodup.2.2 id (mem_doers.mpr ⟨event', fit', did⟩) id ?_ rfl
  exact List.mem_filterMap.mpr ⟨x, List.mem_singleton_self x, doer_eq_some.mpr ⟨event, label, fit⟩⟩

theorem Consumes.quiet {source : CallId → CallId} {x : Transition State Label} {s' : State}
    (before : Consumes ts s source)
    (noSwap : ∀ id claim old, x.label ≠ .thread id (.swapped claim old))
    (calm : ∀ id claim old, Did ts id (.swapped claim old) →
      installer claim.key (ts ++ [x]) = some (source id) →
      installer claim.key ts = some (source id) ∧
        s'.shared.challengeSet claim.key = s.shared.challengeSet claim.key) :
    Consumes (ts ++ [x]) s' source := by
  have earlier {id : CallId} {claim : Claim} {old : Challenge}
      (did : Did (ts ++ [x]) id (.swapped claim old)) : Did ts id (.swapped claim old) :=
    (did_snoc.mp did).resolve_right (noSwap id claim old)
  refine ⟨?_, ?_, ?_⟩
  · intro a y b id claim old split label
    rcases snoc_cut split with ⟨_, rfl, _⟩ | ⟨c, _, inside⟩
    · exact (noSwap id claim old label).elim
    · exact before.hit a y c id claim old inside label
  · apply before.distinct.mono
    rintro id ⟨claim, old, did⟩
    exact ⟨claim, old, earlier did⟩
  · intro id claim old did current
    obtain ⟨same, kept⟩ := calm id claim old (earlier did) current
    rw [kept]
    exact before.spent id claim old (earlier did) same

theorem Consumes.unused {source : CallId → CallId} {claim : Claim} {old : Challenge} {g : CallId}
    (before : Consumes ts s source) (run : PowRun env ts s)
    (stored : s.shared.challengeSet claim.key = some old) (unclaimed : old.claimed = false)
    (current : installer claim.key ts = some g)
    (did : Did ts g (.installed claim.ip claim.chain old)) :
    ∀ id', ReachedHash ts id' → source id' ≠ g := by
  rintro id' ⟨claim', old', x, member, label⟩ used
  obtain ⟨a, b, split⟩ := List.append_of_mem member
  have hit := before.hit a x b id' claim' old' split label
  have there : Did ts g (.installed claim'.ip claim'.chain old') := by
    rw [split, ← used]
    exact hit.installed.of_prefix
  obtain ⟨sameIp, sameChain, _⟩ := installed_once run there did
  have key : claim'.key = claim.key := by rw [Claim.key, Claim.key, sameIp, sameChain]
  obtain ⟨c, present, claimed⟩ := before.spent id' claim' old' ⟨x, member, label⟩
    (by rw [key, used, current])
  rw [key, stored] at present
  obtain rfl := Option.some.inj present
  simp [claimed] at unclaimed

theorem Consumes.swap {source : CallId → CallId} {s' : State} {claim : Claim} {old : Challenge}
    (before : Consumes ts s source) (run : PowRun env ts s)
    (taken : Step env s (.thread id (.swapped claim old)) s')
    (stored : s.shared.challengeSet claim.key = some old)
    (after : s'.shared.challengeSet =
      Function.update s.shared.challengeSet claim.key (some old.markClaimed)) :
    ∃ source', Consumes (ts ++ [⟨s, .thread id (.swapped claim old), s'⟩]) s' source' := by
  have run' := Run.next run taken
  have unclaimed : old.claimed = false := swapped_unclaimed run' (did_snoc.mpr (.inr rfl))
  have fresh : id ∉ {id' | ReachedHash ts id'} := by
    rintro ⟨claim', old', did⟩
    exact fresh_of_nodup (swaps_nodup run') rfl rfl rfl did
  obtain ⟨g, current, ip, chain, first, sameKey, did, shape⟩ := stored_installed run _ _ stored
  obtain rfl : old = first := by
    rcases shape with same | claimed
    · exact same
    · simp [claimed] at unclaimed
  obtain ⟨rfl, rfl⟩ := keyOf_inj sameKey
  have unused := before.unused run stored unclaimed current did
  have old_source {id' : CallId} (reached : ReachedHash ts id') :
      Function.update source id g id' = source id' := by
    refine Function.update_of_ne ?_ _ _
    rintro rfl
    exact fresh reached
  refine ⟨Function.update source id g, ?_, ?_, ?_⟩
  · intro a y b id' claim' old' split label
    rcases snoc_cut split with ⟨rfl, rfl, _⟩ | ⟨c, _, inside⟩
    · obtain ⟨rfl, same⟩ := Label.thread.inj label
      obtain ⟨rfl, rfl⟩ := ThreadEvent.swapped.inj same
      rw [Function.update_self]
      exact ⟨current, did, stored, unclaimed⟩
    · have member : y ∈ ts := inside ▸ List.mem_append_right a List.mem_cons_self
      rw [old_source ⟨claim', old', y, member, label⟩]
      exact before.hit a y c id' claim' old' inside label
  · have grown : {id' | ReachedHash (ts ++ [⟨s, .thread id (.swapped claim old), s'⟩]) id'} ⊆
        insert id {id' | ReachedHash ts id'} := by
      rintro id' ⟨claim', old', did'⟩
      rcases did_snoc.mp did' with earlier | now
      · exact .inr ⟨claim', old', earlier⟩
      · exact .inl (Label.thread.inj now).1.symm
    refine Set.InjOn.mono grown ((Set.injOn_insert fresh).mpr ⟨?_, ?_⟩)
    · exact before.distinct.congr fun id' reached => (old_source reached).symm
    · rintro ⟨id', reached, same⟩
      rw [Function.update_self, old_source reached] at same
      exact unused id' reached same
  · intro id' claim' old' did' current'
    rw [after]
    by_cases here : claim'.key = claim.key
    · exact ⟨old.markClaimed, by rw [here, Function.update_self], rfl⟩
    · rw [Function.update_of_ne here]
      rcases did_snoc.mp did' with earlier | now
      · rw [old_source ⟨claim', old', earlier⟩] at current'
        exact before.spent id' claim' old' earlier (by simpa [installerStep] using current')
      · obtain ⟨_, same⟩ := Label.thread.inj now
        exact (here (congrArg Claim.key (ThreadEvent.swapped.inj same).1.symm)).elim

theorem exists_consumes (run : PowRun env ts s) : ∃ source, Consumes ts s source := by
  induction run with
  | start _ => exact ⟨id, by simp, by simp [Set.InjOn, ReachedHash, Did], by simp [Did]⟩
  | @next ts s s' l prior taken ih =>
      obtain ⟨source, before⟩ := ih
      have run' := Run.next prior taken
      have effect := map_effect taken
      generalize after : s'.shared.challengeSet = m' at effect
      cases effect with
      | @installed g ip chain c _ =>
          refine ⟨source, before.quiet (by simp) ?_⟩
          intro id claim old did current
          by_cases here : keyOf ip chain = claim.key
          · -- `g` has not installed anything before, so it is nobody's source yet
            obtain rfl : g = source id := by simpa [installerStep, here] using current
            obtain ⟨y, member, label⟩ := did
            obtain ⟨a, b, split⟩ := List.append_of_mem member
            have hit := before.hit a y b id claim old split label
            have earlier : Did ts (source id) (.installed claim.ip claim.chain old) := by
              rw [split]
              exact hit.installed.of_prefix
            exact (fresh_of_nodup (installs_nodup run') rfl rfl rfl earlier).elim
          · rw [after, Function.update_of_ne (Ne.symm here)]
            exact ⟨by simpa [installerStep, here] using current, rfl⟩
      | @swapped id claim old stored => exact before.swap prior taken stored after
      | @removed entry =>
          refine ⟨source, before.quiet (by simp) ?_⟩
          intro id claim old did current
          have here : entry.key ≠ claim.key := by
            intro same
            simp [installerStep, same] at current
          rw [after, Function.update_of_ne (Ne.symm here)]
          exact ⟨by simpa [installerStep, here] using current, rfl⟩
      | same noInstall noSwap noRemove =>
          refine ⟨source, before.quiet noSwap ?_⟩
          intro id claim old did current
          rw [installer_snoc, installerStep_same noInstall noRemove] at current
          exact ⟨current, by rw [after]⟩

theorem accepted_leadingZeroBits {sha256 : Sha256} {old : Challenge} {solution : Solution}
    (accepted : checkHash sha256 old solution = .ok ()) :
    old.difficulty.toNat ≤ leadingZeroBits (sha256 (preimage old.nonce solution)).toList := by
  unfold checkHash at accepted
  split_ifs at accepted with enough
  exact (UInt8.le_iff_toNat_le.mp enough).trans (countLeadingZeros_le _)

/-- Every call that reaches the hash check has its own installed challenge, which was unclaimed when
the call's compare-and-swap hit it; a call that returned `Ok` solved that challenge; and only such
calls pay out, each at most once. -/
theorem accepted_solutions_consume_distinct_challenges (run : PowRun env ts s) :
    ∃ source : CallId → CallId,
      (∀ a x b id claim old, ts = a ++ x :: b → x.label = .thread id (.swapped claim old) →
        Hit a x claim old (source id)) ∧
      Set.InjOn source {id | ReachedHash ts id} ∧
      (∀ id claim, Did ts id (.hashed claim (.ok ())) → ∃ old, Did ts id (.swapped claim old) ∧
        old.difficulty.toNat ≤
          leadingZeroBits (env.sha256 (preimage old.nonce claim.solution)).toList) ∧
      (∀ id claim result, Did ts id (.hashed claim result) → ReachedHash ts id) ∧
      (∀ id event claim, Did ts id event → paidClaim event = some claim →
        Did ts id (.hashed claim (.ok ()))) ∧
      (doers installs ts).Nodup ∧ (doers hashes ts).Nodup ∧ (doers payouts ts).Nodup := by
  obtain ⟨source, consumes⟩ := exists_consumes run
  refine ⟨source, consumes.hit, consumes.distinct, ?_, ?_, ?_, installs_nodup run,
    hashes_nodup run, payouts_nodup run⟩
  · intro id claim did
    obtain ⟨old, swapped, accepted⟩ := hashed_swapped run did
    exact ⟨old, swapped, accepted_leadingZeroBits accepted⟩
  · intro id claim result did
    obtain ⟨old, swapped, _⟩ := hashed_swapped run did
    exact ⟨claim, old, swapped⟩
  · intro id event claim did paid
    exact paid_accepted run paid did

def sampleEnv : Env :=
  ⟨fun _ => Vector.replicate 32 1, fun address => some ⟨address.text⟩, 5000, 5000⟩

def localIp : Ipv4Addr := ⟨0x7f000001⟩
def sampleClaim : Claim := .l1 localIp (Vector.replicate 8 0) ⟨"tb1q"⟩

def peerIp : Ipv4Addr := ⟨0x7f000002⟩
def peerClaim : Claim := .l1 peerIp (Vector.replicate 8 0) ⟨"tb1p"⟩

private theorem paid_run : ∃ ts s, PowRun sampleEnv ts s ∧
    Did ts 1 (.hashed sampleClaim (.ok ())) ∧ Did ts 3 (.hashed peerClaim (.ok ())) := by
  have begin : PowRun sampleEnv [] _ := .start ⟨0, 0, rfl⟩
  have get := begin.next
    (@Step.called _ _ 0 (.get localIp .l1 (Vector.replicate 16 7) 5 120) (by simp))
  have installed := get.next (.act (.installed (getCas_ok.mpr ⟨rfl, rfl, rfl⟩)))
  have claim := installed.next (@Step.called _ _ 1 (.check sampleClaim) (by simp))
  have read := claim.next (.act (.read (checkRead_ok.mpr ⟨rfl, rfl⟩)))
  have swapped := read.next (.act (.swapped (checkCas_ok.mpr ⟨rfl, rfl⟩)))
  have hashed := swapped.next (.act (.accepted (by decide)))
  have queued := hashed.next (.act (.queued rfl))
  have get' := queued.next
    (@Step.called _ _ 2 (.get peerIp .l1 (Vector.replicate 16 9) 5 120) (by simp))
  have installed' := get'.next (.act (.installed (getCas_ok.mpr ⟨rfl, rfl, rfl⟩)))
  have claim' := installed'.next (@Step.called _ _ 3 (.check peerClaim) (by simp))
  have read' := claim'.next (.act (.read (checkRead_ok.mpr ⟨rfl, rfl⟩)))
  have swapped' := read'.next (.act (.swapped (checkCas_ok.mpr ⟨rfl, rfl⟩)))
  have hashed' := swapped'.next (.act (.accepted (by decide)))
  have queued' := hashed'.next (.act (.queued rfl))
  exact ⟨_, _, queued', by simp [Did], by simp [Did]⟩

theorem accepted_solutions_consume_distinct_challenges_nonvacuous :
    ∃ ts s old old', ∃ source : CallId → CallId,
      PowRun sampleEnv ts s ∧ Did ts 1 (.swapped sampleClaim old) ∧
      Did ts 3 (.swapped peerClaim old') ∧ source 1 ≠ source 3 ∧
      old.difficulty.toNat ≤ leadingZeroBits
        (sampleEnv.sha256 (preimage old.nonce sampleClaim.solution)).toList ∧
      old'.difficulty.toNat ≤ leadingZeroBits
        (sampleEnv.sha256 (preimage old'.nonce peerClaim.solution)).toList := by
  obtain ⟨ts, s, run, hashed, hashed'⟩ := paid_run
  obtain ⟨source, _, distinct, solved, _⟩ :=
    accepted_solutions_consume_distinct_challenges run
  obtain ⟨old, swapped, enough⟩ := solved 1 sampleClaim hashed
  obtain ⟨old', swapped', enough'⟩ := solved 3 peerClaim hashed'
  have apart : source 1 ≠ source 3 := fun same =>
    absurd (distinct ⟨_, _, swapped⟩ ⟨_, _, swapped'⟩ same) (by decide)
  exact ⟨ts, s, old, old', source, run, swapped, swapped', apart, enough, enough'⟩

end FaucetApi.Pow.Consumption
