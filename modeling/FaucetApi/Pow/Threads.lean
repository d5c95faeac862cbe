/- module: FaucetApi/Pow/Threads
   layer: invariants
   digest: What the pool and the trace say about one handler call, in every reachable state. -/

import FaucetApi.Pow.Machine

set_option autoImplicit false
set_option relaxedAutoImplicit false

namespace FaucetApi.Pow.Threads

open FaucetApi.Lib.Runs
open FaucetApi.Pow.Challenges
open FaucetApi.Pow.Eviction
open FaucetApi.Pow.Claims
open FaucetApi.Pow.Machine

abbrev Trace := List (Transition State Label)

variable {env : Env} {ts : Trace} {s : State} {id : CallId}

theorem initial_pool {s : State} (init : Initial s) : s.pool = 0 := by
  obtain ⟨_, _, rfl⟩ := init
  rfl

theorem pool_ids_nodup (run : PowRun env ts s) : (s.pool.map Prod.fst).Nodup := by
  induction run with
  | start init => simp [initial_pool init]
  | next _ taken ih =>
      cases taken with
      | clock => exact ih
      | called fresh =>
          rw [Multiset.map_cons, Multiset.nodup_cons]
          exact ⟨fresh, ih⟩
      | thread pool _ => simpa [pool] using ih
      | task _ => exact ih

theorem pc_unique (run : PowRun env ts s) {pc pc' : Pc} (here : (id, pc) ∈ s.pool)
    (there : (id, pc') ∈ s.pool) : pc = pc' := by
  have nodup := pool_ids_nodup run
  obtain ⟨rest, pool⟩ := Multiset.exists_cons_of_mem here
  rw [pool, Multiset.map_cons, Multiset.nodup_cons] at nodup
  rw [pool, Multiset.mem_cons] at there
  rcases there with same | other
  · exact (Prod.mk.inj same).2.symm
  · exact (nodup.1 (Multiset.mem_map.mpr ⟨(id, pc'), other, rfl⟩)).elim

theorem rest_id_ne (run : PowRun env ts s) {pc pc' : Pc} {other : CallId}
    {rest : Multiset (CallId × Pc)} (pool : s.pool = (id, pc) ::ₘ rest)
    (member : (other, pc') ∈ rest) : other ≠ id := by
  have nodup := pool_ids_nodup run
  rw [pool, Multiset.map_cons, Multiset.nodup_cons] at nodup
  rintro rfl
  exact nodup.1 (Multiset.mem_map.mpr ⟨_, member, rfl⟩)

theorem thread_invariant {P : Trace → CallId → Pc → Prop} (run : PowRun env ts s)
    (grow : ∀ ts x id pc, P ts id pc → P (ts ++ [x]) id pc)
    (enter : ∀ ts x id call, x.label = .called id call →
      P (ts ++ [x]) id (call.entry x.source.shared.now))
    (move : ∀ ts x id pc event sh' pc', P ts id pc → x.label = .thread id event →
      ThreadStep env id x.source.shared pc event sh' pc' → P (ts ++ [x]) id pc') :
    ∀ id pc, (id, pc) ∈ s.pool → P ts id pc := by
  induction run with
  | start init => simp [initial_pool init]
  | next _ taken ih =>
      cases taken with
      | clock => exact fun id pc member => grow _ _ _ _ (ih id pc member)
      | task _ => exact fun id pc member => grow _ _ _ _ (ih id pc member)
      | called _ =>
          intro id pc member
          rcases Multiset.mem_cons.mp member with same | old
          · obtain ⟨rfl, rfl⟩ := Prod.mk.inj same
            exact enter _ ⟨_, _, _⟩ _ _ rfl
          · exact grow _ _ _ _ (ih id pc old)
      | thread pool action =>
          intro id pc member
          rcases Multiset.mem_cons.mp member with same | old
          · obtain ⟨rfl, rfl⟩ := Prod.mk.inj same
            have before := ih _ _ (pool ▸ Multiset.mem_cons_self _ _)
            exact move _ ⟨_, _, _⟩ _ _ _ _ _ before rfl action
          · exact grow _ _ _ _ (ih id pc (pool ▸ Multiset.mem_cons_of_mem old))

/-- What an action leaves behind in its call's position, and every later action of that call
keeps, is there in every state after the action. -/
theorem event_recorded {Q : ThreadEvent → Pc → Prop} (run : PowRun env ts s)
    (made : ∀ id sh pc event sh' pc', ThreadStep env id sh pc event sh' pc' → Q event pc')
    (kept : ∀ id sh pc event event' sh' pc', Q event pc →
      ThreadStep env id sh pc event' sh' pc' → Q event pc') :
    ∀ x ∈ ts, ∀ id event, x.label = .thread id event → ∃ pc, (id, pc) ∈ s.pool ∧ Q event pc := by
  induction run with
  | start _ => simp
  | @next ts s s' l prior taken ih =>
      intro x member id event label
      rcases List.mem_append.mp member with old | new
      · obtain ⟨pc, here, fact⟩ := ih x old id event label
        cases taken with
        | clock => exact ⟨pc, here, fact⟩
        | task _ => exact ⟨pc, here, fact⟩
        | called _ => exact ⟨pc, Multiset.mem_cons_of_mem here, fact⟩
        | @thread moving pcOld pcNew rest _ _ pool action =>
            rw [pool, Multiset.mem_cons] at here
            rcases here with same | other
            · obtain ⟨rfl, rfl⟩ := Prod.mk.inj same
              exact ⟨pcNew, Multiset.mem_cons_self _ _, kept _ _ _ _ _ _ _ fact action⟩
            · exact ⟨pc, Multiset.mem_cons_of_mem other, fact⟩
      · obtain rfl := List.mem_singleton.mp new
        cases taken with
        | thread pool action =>
            obtain ⟨rfl, rfl⟩ := Label.thread.inj label
            exact ⟨_, Multiset.mem_cons_self _ _, made _ _ _ _ _ _ action⟩
        | clock => cases label
        | task _ => cases label
        | called _ => cases label

/-- The call `id` performed `event` somewhere in the trace. -/
def Did (ts : Trace) (id : CallId) (event : ThreadEvent) : Prop :=
  ∃ x ∈ ts, x.label = .thread id event

theorem Did.grow {x : Transition State Label} {event : ThreadEvent} (did : Did ts id event) :
    Did (ts ++ [x]) id event := by
  obtain ⟨y, member, label⟩ := did
  exact ⟨y, List.mem_append_left _ member, label⟩

theorem did_snoc {x : Transition State Label} {event : ThreadEvent} :
    Did (ts ++ [x]) id event ↔ Did ts id event ∨ x.label = .thread id event := by
  simp [Did, or_and_right, exists_or]

/-! Every action moves its call to a later stage, so a kind of action that leaves one stage is
performed at most once by a call. -/

def stage : Pc → ℕ
  | .getCas _ _ _ => 0
  | .addPush _ _ _ => 1
  | .addLoad _ _ _ => 2
  | .addSend _ _ _ => 3
  | .got _ _ _ => 4
  | .checkRead _ => 0
  | .checkCas _ _ => 1
  | .checkHash _ _ => 2
  | .settle _ => 3
  | .answered _ _ => 4

theorem stage_lt {sh sh' : Shared} {pc pc' : Pc} {event : ThreadEvent}
    (action : ThreadStep env id sh pc event sh' pc') : stage pc < stage pc' := by
  cases action <;> simp [stage]

/-- The call that performs an action of the given kind in a step. -/
def doer (kind : ThreadEvent → Bool) : Label → Option CallId
  | .thread id event => if kind event then some id else none
  | _ => none

def doers (kind : ThreadEvent → Bool) (ts : Trace) : List CallId :=
  ts.filterMap (fun x => doer kind x.label)

theorem doer_eq_some {kind : ThreadEvent → Bool} {l : Label} :
    doer kind l = some id ↔ ∃ event, l = .thread id event ∧ kind event = true := by
  unfold doer
  split
  · rename_i id' event
    split_ifs with fit
    · constructor
      · intro same
        exact ⟨event, by rw [Option.some.inj same], fit⟩
      · rintro ⟨_, same, _⟩
        rw [(Label.thread.inj same).1]
    · simp only [Label.thread.injEq, false_iff, not_exists, not_and]
      rintro _ ⟨_, rfl⟩
      exact fit
  · rename_i other
    simp only [reduceCtorEq, false_iff, not_exists, not_and]
    intro event same
    exact (other _ _ same).elim

theorem mem_doers {kind : ThreadEvent → Bool} :
    id ∈ doers kind ts ↔ ∃ event, kind event = true ∧ Did ts id event := by
  simp only [doers, List.mem_filterMap, doer_eq_some, Did]
  constructor
  · rintro ⟨x, member, event, label, fit⟩
    exact ⟨event, fit, x, member, label⟩
  · rintro ⟨event, fit, x, member, label⟩
    exact ⟨x, member, event, label, fit⟩

theorem once_per_call {kind : ThreadEvent → Bool} {n : ℕ} (run : PowRun env ts s)
    (leaves : ∀ id sh pc event sh' pc', ThreadStep env id sh pc event sh' pc' →
      kind event = true → stage pc ≤ n ∧ n < stage pc') : (doers kind ts).Nodup := by
  induction run with
  | start _ => simp [doers]
  | @next ts s s' l prior taken ih =>
      rw [doers, List.filterMap_append, ← doers, List.nodup_append]
      refine ⟨ih, by rw [List.filterMap_cons]; split <;> simp, ?_⟩
      rintro id old _ new rfl
      obtain ⟨_, member, fires⟩ := List.mem_filterMap.mp new
      obtain rfl := List.mem_singleton.mp member
      obtain ⟨event, rfl, fit⟩ := doer_eq_some.mp fires
      obtain ⟨event', fit', x, member, label⟩ := mem_doers.mp old
      -- the earlier action has already moved this call beyond the stage it would act from
      obtain ⟨pc, here, far⟩ := event_recorded prior
        (fun _ _ _ _ _ _ action fit => (leaves _ _ _ _ _ _ action fit).2)
        (fun _ _ _ e _ _ _ (far : kind e = true → n < stage _) action fit =>
          (far fit).trans (stage_lt action))
        x member id event' label
      cases taken with
      | thread pool action =>
          obtain rfl := pc_unique prior here (pool ▸ Multiset.mem_cons_self _ _)
          have near := (leaves _ _ _ _ _ _ action fit).1
          exact absurd (far fit') (by omega)

/-- What the position of a call says about its own past. -/
def Explained (env : Env) (ts : Trace) (id : CallId) : Pc → Prop
  | .getCas _ _ c => c.claimed = false
  | .addPush ip chain c => Did ts id (.installed ip chain c)
  | .addLoad ip chain c => Did ts id (.installed ip chain c)
  | .addSend ip chain c => Did ts id (.installed ip chain c)
  | .got _ _ _ => True
  | .checkRead _ => True
  | .checkCas claim old => Did ts id (.read claim old) ∧ old.claimed = false
  | .checkHash claim old => Did ts id (.swapped claim old)
  | .settle claim => Did ts id (.hashed claim (.ok ())) ∧
      ∃ old, Did ts id (.swapped claim old) ∧ checkHash env.sha256 old claim.solution = .ok ()
  | .answered _ _ => True

theorem pool_explained (run : PowRun env ts s) :
    ∀ id pc, (id, pc) ∈ s.pool → Explained env ts id pc := by
  refine @thread_invariant env ts s (Explained env) run ?_ ?_ ?_
  · intro ts x id pc before
    cases pc with
    | addPush _ _ _ => exact before.grow
    | addLoad _ _ _ => exact before.grow
    | addSend _ _ _ => exact before.grow
    | checkCas _ _ => exact ⟨before.1.grow, before.2⟩
    | checkHash _ _ => exact before.grow
    | settle _ =>
        obtain ⟨hashed, old, swapped, solved⟩ := before
        exact ⟨hashed.grow, old, swapped.grow, solved⟩
    | _ => exact before
  · intro ts x id call _
    cases call <;> simp [Call.entry, Explained, candidate]
  · intro ts x id pc event sh' pc' before label action
    have did : Did (ts ++ [x]) id event := did_snoc.mpr (.inr label)
    cases action with
    | installed _ => exact did
    | pushed _ _ => exact before.grow
    | loaded _ => exact before.grow
    | read ok => exact ⟨did, (checkRead_ok.mp ok).2⟩
    | swapped _ => exact did
    | accepted solved => exact ⟨did, _, before.grow, solved⟩
    | _ => trivial

/-- An event of the trace, seen at its moment: the call's position and the action it took. -/
theorem Did.action (run : PowRun env ts s) {event : ThreadEvent} (did : Did ts id event) :
    ∃ a x b pc sh' pc', ts = a ++ x :: b ∧ x.label = .thread id event ∧
      PowRun env a x.source ∧ (id, pc) ∈ x.source.pool ∧
      ThreadStep env id x.source.shared pc event sh' pc' := by
  obtain ⟨⟨source, label, target⟩, member, rfl⟩ := did
  obtain ⟨a, b, split, before, taken⟩ := run.at_mem member
  change Step env source (.thread id event) target at taken
  cases taken with
  | thread pool action =>
      exact ⟨a, _, b, _, _, _, split, rfl, before, pool ▸ Multiset.mem_cons_self _ _, action⟩

theorem Did.of_prefix {a b : Trace} {event : ThreadEvent} (did : Did a id event) :
    Did (a ++ b) id event := by
  obtain ⟨y, member, label⟩ := did
  exact ⟨y, List.mem_append_left _ member, label⟩

theorem installed_unclaimed (run : PowRun env ts s) {ip : Ipv4Addr} {chain : Chain}
    {c : Challenge} (did : Did ts id (.installed ip chain c)) : c.claimed = false := by
  obtain ⟨a, x, b, pc, sh', pc', _, _, before, here, action⟩ := did.action run
  have past := pool_explained before _ _ here
  cases action with
  | installed _ => exact past

theorem swapped_unclaimed (run : PowRun env ts s) {claim : Claim} {old : Challenge}
    (did : Did ts id (.swapped claim old)) : old.claimed = false := by
  obtain ⟨a, x, b, pc, sh', pc', _, _, before, here, action⟩ := did.action run
  have past := pool_explained before _ _ here
  cases action with
  | swapped _ => exact past.2

theorem hashed_swapped (run : PowRun env ts s) {claim : Claim} {result : Except CheckError Unit}
    (did : Did ts id (.hashed claim result)) :
    ∃ old, Did ts id (.swapped claim old) ∧ checkHash env.sha256 old claim.solution = result := by
  obtain ⟨a, x, b, pc, sh', pc', rfl, _, before, here, action⟩ := did.action run
  have past := pool_explained before _ _ here
  cases action with
  | accepted solved => exact ⟨_, Did.of_prefix past, solved⟩
  | rejected failed => exact ⟨_, Did.of_prefix past, failed⟩

/-- The trace has the beginning of the `get` call that offered this challenge. -/
def OfferedIn (ts : Trace) (id : CallId) (ip : Ipv4Addr) (chain : Chain) (c : Challenge) : Prop :=
  ∃ x ∈ ts, ∃ nonce duration, x.label = .called id (.get ip chain nonce c.difficulty duration)

theorem OfferedIn.grow {x : Transition State Label} {ip : Ipv4Addr} {chain : Chain}
    {c : Challenge} (offered : OfferedIn ts id ip chain c) :
    OfferedIn (ts ++ [x]) id ip chain c := by
  obtain ⟨y, member, label⟩ := offered
  exact ⟨y, List.mem_append_left _ member, label⟩

private theorem candidate_offered (run : PowRun env ts s) : ∀ id pc, (id, pc) ∈ s.pool →
    ∀ ip chain c, pc = .getCas ip chain c → OfferedIn ts id ip chain c := by
  refine thread_invariant (P := fun ts id pc =>
    ∀ ip chain c, pc = .getCas ip chain c → OfferedIn ts id ip chain c) run ?_ ?_ ?_
  · intro ts x id pc before ip chain c here
    exact (before ip chain c here).grow
  · intro ts x id call label ip chain c here
    cases call with
    | get ip' chain' nonce difficulty duration =>
        obtain ⟨rfl, rfl, rfl⟩ := Pc.getCas.inj here
        exact ⟨x, List.mem_append_right _ (List.mem_singleton_self x), nonce, duration, label⟩
    | check claim => cases here
  · intro ts x id pc event sh' pc' _ _ action ip chain c here
    subst here
    cases action

theorem installed_offered (run : PowRun env ts s) {ip : Ipv4Addr} {chain : Chain} {c : Challenge}
    (did : Did ts id (.installed ip chain c)) : OfferedIn ts id ip chain c := by
  obtain ⟨a, x, b, pc, sh', pc', rfl, _, before, here, action⟩ := did.action run
  cases action with
  | installed _ =>
      obtain ⟨y, member, label⟩ := candidate_offered before _ _ here _ _ _ rfl
      exact ⟨y, List.mem_append_left _ member, label⟩

/-- The claim that an action pays out: `claim_l1` queues a request, `claim_l2` sends a
transaction. -/
def paidClaim : ThreadEvent → Option Claim
  | .queued claim _ => some claim
  | .transferred claim _ => some claim
  | _ => none

theorem paid_accepted (run : PowRun env ts s) {event : ThreadEvent} {claim : Claim}
    (paid : paidClaim event = some claim) (did : Did ts id event) :
    Did ts id (.hashed claim (.ok ())) := by
  obtain ⟨a, x, b, pc, sh', pc', rfl, _, before, here, action⟩ := did.action run
  have past := pool_explained before _ _ here
  cases action with
  | queued _ =>
      obtain rfl := Option.some.inj paid
      exact Did.of_prefix past.1
  | transferred =>
      obtain rfl := Option.some.inj paid
      exact Did.of_prefix past.1
  | _ => cases paid

/-- What a step does to the challenge set, with the label it carries. -/
inductive MapEffect (m : ChallengeSet) : Label → ChallengeSet → Prop
  | installed {id : CallId} {ip : Ipv4Addr} {chain : Chain} {c : Challenge} :
      m (keyOf ip chain) = none →
      MapEffect m (.thread id (.installed ip chain c))
        (Function.update m (keyOf ip chain) (some c))
  | swapped {id : CallId} {claim : Claim} {old : Challenge} :
      m claim.key = some old →
      MapEffect m (.thread id (.swapped claim old))
        (Function.update m claim.key (some old.markClaimed))
  | removed {entry : EvictionEntry} :
      MapEffect m (.task (.removed entry (m entry.key))) (Function.update m entry.key none)
  | same {l : Label} :
      (∀ id ip chain c, l ≠ .thread id (.installed ip chain c)) →
      (∀ id claim old, l ≠ .thread id (.swapped claim old)) →
      (∀ entry bound, l ≠ .task (.removed entry bound)) →
      MapEffect m l m

theorem map_effect {s s' : State} {l : Label} (taken : Step env s l s') :
    MapEffect s.shared.challengeSet l s'.shared.challengeSet := by
  cases taken with
  | clock => exact .same (by simp) (by simp) (by simp)
  | called _ => exact .same (by simp) (by simp) (by simp)
  | thread _ action =>
      cases action with
      | installed tried =>
          obtain ⟨absent, _, rfl⟩ := getCas_ok.mp tried
          exact .installed absent
      | found tried =>
          obtain ⟨_, rfl⟩ := getCas_error.mp tried
          exact .same (by simp) (by simp) (by simp)
      | swapped tried =>
          obtain ⟨present, rfl⟩ := checkCas_ok.mp tried
          exact .swapped present
      | swapRefused tried =>
          obtain ⟨_, _, rfl⟩ := checkCas_error.mp tried
          exact .same (by simp) (by simp) (by simp)
      | _ => exact .same (by simp) (by simp) (by simp)
  | task action =>
      cases action with
      | removed _ done =>
          obtain ⟨rfl, rfl⟩ := FaucetApi.Lib.ConcurrentMap.remove_eq.mp done
          exact .removed
      | _ => exact .same (by simp) (by simp) (by simp)

theorem installed_absent {s s' : State} {ip : Ipv4Addr} {chain : Chain} {c : Challenge}
    (taken : Step env s (.thread id (.installed ip chain c)) s') :
    s.shared.challengeSet (keyOf ip chain) = none := by
  cases taken with
  | thread _ action =>
      cases action with
      | installed tried => exact (getCas_ok.mp tried).1

theorem swapped_stored {s s' : State} {claim : Claim} {old : Challenge}
    (taken : Step env s (.thread id (.swapped claim old)) s') :
    s.shared.challengeSet claim.key = some old := by
  cases taken with
  | thread _ action =>
      cases action with
      | swapped tried => exact (checkCas_ok.mp tried).1

end FaucetApi.Pow.Threads
