/- module: FaucetApi/Pow/Tokens
   layer: results
   digest: One eviction token per stored challenge, and what follows for expiry. -/

import FaucetApi.Pow.Consumption
import Mathlib.Algebra.Order.Group.Multiset
import Mathlib.Data.Multiset.Filter
import Mathlib.Tactic.Abel

set_option autoImplicit false
set_option relaxedAutoImplicit false

namespace FaucetApi.Pow.Tokens

open FaucetApi.Lib.MaxHeap
open FaucetApi.Lib.Runs
open FaucetApi.Pow.Challenges
open FaucetApi.Pow.Eviction
open FaucetApi.Pow.Claims
open FaucetApi.Pow.Machine
open FaucetApi.Pow.Threads
open FaucetApi.Pow.Consumption

variable {env : Env} {ts : Trace} {s : State} {id : CallId} {key : Key}

/-- The entry that an `add_challenge` has still to push. -/
def pendingEntry : Pc → Option EvictionEntry
  | .addPush ip chain c => some (entryOf ip chain c)
  | _ => none

/-- The eviction tokens: entries of the heap, popped entries whose key is not yet removed, and
entries whose push is pending. -/
def tokens (s : State) : Multiset EvictionEntry :=
  s.shared.evictionQ.q + s.task.pc.toExpire + s.pool.filterMap (fun call => pendingEntry call.2)

def keyTokens (s : State) (key : Key) : Multiset EvictionEntry :=
  (tokens s).filter (fun entry => entry.key = key)

/-- What a step does to the tokens, with the label it carries. -/
inductive TokenEffect (before : Multiset EvictionEntry) : Label → Multiset EvictionEntry → Prop
  | installed {id : CallId} {ip : Ipv4Addr} {chain : Chain} {c : Challenge}
      {after : Multiset EvictionEntry} :
      after = entryOf ip chain c ::ₘ before →
      TokenEffect before (.thread id (.installed ip chain c)) after
  | removed {entry : EvictionEntry} {bound : Option Challenge} {after : Multiset EvictionEntry} :
      before = entry ::ₘ after → TokenEffect before (.task (.removed entry bound)) after
  | same {l : Label} :
      (∀ id ip chain c, l ≠ .thread id (.installed ip chain c)) →
      (∀ entry bound, l ≠ .task (.removed entry bound)) → TokenEffect before l before

private theorem TokenEffect.of_eq {before after : Multiset EvictionEntry} {l : Label}
    (eq : after = before) (noInstall : ∀ id ip chain c, l ≠ .thread id (.installed ip chain c))
    (noRemove : ∀ entry bound, l ≠ .task (.removed entry bound)) : TokenEffect before l after :=
  eq ▸ .same noInstall noRemove

theorem token_effect {s s' : State} {l : Label} (taken : Step env s l s') :
    TokenEffect (tokens s) l (tokens s') := by
  cases taken with
  | clock => exact .of_eq rfl (by simp) (by simp)
  | @called id call fresh =>
      refine .of_eq ?_ (by simp) (by simp)
      cases call <;> simp [tokens, Call.entry, pendingEntry]
  | @thread id pc pc' rest event shared' pool action =>
      cases action with
      | installed _ =>
          refine .installed ?_
          simp [tokens, pool, pendingEntry]
      | pushed _ _ =>
          refine .of_eq ?_ (by simp) (by simp)
          simp [tokens, pool, pendingEntry, Multiset.cons_add]
      | _ =>
          refine .of_eq ?_ (by simp) (by simp)
          simp [tokens, pool, pendingEntry, EvictionQueue.send]
  | task action =>
      cases action with
      | received waiting _ =>
          refine .of_eq ?_ (by simp) (by simp)
          unfold Task.receive
          split
          · simp [tokens, waiting, TaskPc.toExpire]
          · rfl
      | popped popping pop _ =>
          refine .of_eq ?_ (by simp) (by simp)
          simp only [tokens, popping, TaskPc.toExpire, pop.2, ← Multiset.coe_add,
            Multiset.coe_singleton, ← Multiset.singleton_add]
          abel
      | removed removing _ =>
          refine .removed ?_
          simp [tokens, removing, TaskPc.toExpire, ← Multiset.cons_coe]
      | stored at_pc => exact .of_eq (by simp [tokens, at_pc, TaskPc.toExpire]) (by simp) (by simp)
      | woke at_pc _ => exact .of_eq (by simp [tokens, at_pc, TaskPc.toExpire]) (by simp) (by simp)
      | locked at_pc _ =>
          exact .of_eq (by simp [tokens, at_pc, TaskPc.toExpire]) (by simp) (by simp)
      | stoppedAt at_pc _ _ =>
          exact .of_eq (by simp [tokens, at_pc, TaskPc.toExpire]) (by simp) (by simp)
      | stoppedEmpty at_pc _ =>
          exact .of_eq (by simp [tokens, at_pc, TaskPc.toExpire]) (by simp) (by simp)
      | released at_pc =>
          exact .of_eq (by simp [tokens, at_pc, TaskPc.toExpire]) (by simp) (by simp)

def boundExpiry : Option Challenge → Multiset Instant
  | none => 0
  | some c => {c.expiresAt}

private theorem boundExpiry_cons
    {bound : Option Challenge} {expiry : Instant} {rest : Multiset Instant}
    (eq : boundExpiry bound = expiry ::ₘ rest) :
    ∃ c, bound = some c ∧ c.expiresAt = expiry ∧ rest = 0 := by
  cases bound with
  | none => simp [boundExpiry] at eq
  | some c =>
      obtain ⟨same, nothing⟩ := (Multiset.singleton_eq_cons_iff rest).mp eq
      exact ⟨c, rfl, same, nothing⟩

def expiries (key : Key) (held : Multiset EvictionEntry) : Multiset Instant :=
  (held.filter (fun entry => entry.key = key)).map EvictionEntry.expiresAt

private theorem expiries_cons_self {entry : EvictionEntry} {held : Multiset EvictionEntry} :
    expiries entry.key (entry ::ₘ held) = entry.expiresAt ::ₘ expiries entry.key held := by
  simp [expiries]

private theorem expiries_cons_of_ne {entry : EvictionEntry} {held : Multiset EvictionEntry}
    (other : key ≠ entry.key) : expiries key (entry ::ₘ held) = expiries key held := by
  simp [expiries, Ne.symm other]

theorem entryOf_key (ip : Ipv4Addr) (chain : Chain) (c : Challenge) :
    (entryOf ip chain c).key = keyOf ip chain := rfl

/-- The tokens of a key are exactly one for a bound key and none for an unbound one, and they expire
with the challenge that is bound. -/
theorem tokens_match_set (run : PowRun env ts s) (key : Key) :
    expiries key (tokens s) = boundExpiry (s.shared.challengeSet key) := by
  induction run generalizing key with
  | start init =>
      obtain ⟨_, _, rfl⟩ := init
      rfl
  | @next ts s s' l prior taken ih =>
      have map := map_effect taken
      have token := token_effect taken
      generalize s'.shared.challengeSet = m' at map ⊢
      generalize tokens s' = held at token ⊢
      cases map with
      | @installed id ip chain c absent =>
          cases token with
          | same noInstall _ => exact (noInstall _ _ _ _ rfl).elim
          | installed grown =>
              rw [grown]
              by_cases here : key = keyOf ip chain
              · rw [here, Function.update_self, ← entryOf_key ip chain c, expiries_cons_self, ih,
                  entryOf_key, absent]
                rfl
              · rw [Function.update_of_ne here, expiries_cons_of_ne here, ih]
      | @swapped id claim old stored =>
          cases token with
          | same _ _ =>
              rw [ih]
              by_cases here : key = claim.key
              · rw [here, Function.update_self, stored]
                rfl
              · rw [Function.update_of_ne here]
      | @removed entry =>
          cases token with
          | same _ noRemove => exact (noRemove _ _ rfl).elim
          | removed shrunk =>
              have before := ih key
              rw [shrunk] at before
              by_cases here : key = entry.key
              · subst here
                rw [expiries_cons_self] at before
                rw [Function.update_self]
                -- the removed entry was the only token of its key
                obtain ⟨_, _, _, nothing⟩ := boundExpiry_cons before.symm
                exact nothing
              · rw [Function.update_of_ne here, ← before, expiries_cons_of_ne here]
      | same noInstall _ noRemove =>
          cases token with
          | installed _ => exact (noInstall _ _ _ _ rfl).elim
          | removed _ => exact (noRemove _ _ rfl).elim
          | same _ _ => exact ih key

private theorem popped_expired (run : PowRun env ts s) :
    (∀ now toExpire, s.task.pc = .popping now toExpire → now ≤ s.shared.now) ∧
      ∀ entry ∈ s.task.pc.toExpire, entry.expiresAt ≤ s.shared.now := by
  induction run with
  | start init =>
      obtain ⟨_, _, rfl⟩ := init
      simp [TaskPc.toExpire]
  | next prior taken ih =>
      obtain ⟨read, old⟩ := ih
      cases taken with
      | clock =>
          refine ⟨fun now toExpire popping => (read now toExpire popping).trans ?_, ?_⟩
          · exact Nat.le_add_right _ _
          · exact fun entry member => (old entry member).trans (Nat.le_add_right _ _)
      | called _ => exact ⟨read, old⟩
      | thread _ action => cases action <;> exact ⟨read, old⟩
      | task action =>
          cases action with
          | received waiting _ =>
              unfold Task.receive
              split
              · simp [TaskPc.toExpire]
              · exact ⟨read, old⟩
          | locked _ _ => simp [TaskPc.toExpire]
          | popped popping _ due =>
              have soon := read _ _ popping
              simp only [popping, TaskPc.toExpire] at old
              refine ⟨?_, ?_⟩
              · rintro now toExpire same
                obtain ⟨rfl, _⟩ := TaskPc.popping.inj same
                exact soon
              · intro entry member
                rcases List.mem_append.mp member with earlier | last
                · exact old entry earlier
                · rw [List.mem_singleton.mp last]
                  exact due.trans soon
          | stoppedAt popping _ _ => simpa [popping, TaskPc.toExpire] using old
          | stoppedEmpty popping _ => simpa [popping, TaskPc.toExpire] using old
          | removed removing _ =>
              simp only [removing, TaskPc.toExpire] at old
              exact ⟨by simp, fun entry member => old entry (List.mem_cons_of_mem _ member)⟩
          | _ => simp [TaskPc.toExpire]

theorem removed_token {s s' : State} {entry : EvictionEntry} {bound : Option Challenge}
    (taken : Step env s (.task (.removed entry bound)) s') :
    bound = s.shared.challengeSet entry.key ∧ entry ∈ s.task.pc.toExpire ∧
      tokens s = entry ::ₘ tokens s' := by
  have token := token_effect taken
  refine ⟨?_, ?_, ?_⟩
  · cases taken with
    | task action =>
        cases action with
        | removed _ done => exact (FaucetApi.Lib.ConcurrentMap.remove_eq.mp done).1
  · cases taken with
    | task action =>
        cases action with
        | removed removing _ => simp [removing, TaskPc.toExpire]
  · generalize tokens s' = after at token ⊢
    cases token with
    | same _ noRemove => exact (noRemove _ _ rfl).elim
    | removed shrunk => exact shrunk

theorem removed_expired {s' : State} {entry : EvictionEntry} {bound : Option Challenge}
    (run : PowRun env ts s) (taken : Step env s (.task (.removed entry bound)) s') :
    ∃ c, bound = some c ∧ c.expiresAt = entry.expiresAt ∧ c.expiresAt ≤ s.shared.now := by
  obtain ⟨rfl, popped, shrunk⟩ := removed_token taken
  have held := tokens_match_set run entry.key
  rw [shrunk, expiries_cons_self] at held
  obtain ⟨c, stored, same, _⟩ := boundExpiry_cons held.symm
  exact ⟨c, stored, same, same ▸ (popped_expired run).2 entry popped⟩

/-- The challenge that a step put under a key, as what it leaves there: `claimed` tells whether the
step claimed it. -/
def leaves : Label → Option (Key × Instant × Bool)
  | .thread _ (.installed ip chain c) => some (keyOf ip chain, c.expiresAt, false)
  | .thread _ (.swapped claim old) => some (claim.key, old.expiresAt, true)
  | _ => none

/-- What was put under a key has expired, or it is still there. -/
def ExpiredOrStored (s : State) (key : Key) (expiresAt : Instant) (claimed : Bool) : Prop :=
  expiresAt ≤ s.shared.now ∨ ∃ c, s.shared.challengeSet key = some c ∧ c.expiresAt = expiresAt ∧
    (claimed = true → c.claimed = true)

theorem clock_monotone {s s' : State} {l : Label} (taken : Step env s l s') :
    s.shared.now ≤ s'.shared.now := by
  cases taken with
  | clock => exact Nat.le_add_right _ _
  | called _ => exact le_rfl
  | thread _ action => cases action <;> exact le_rfl
  | task action => cases action <;> exact le_rfl

theorem expiredOrStored_step {s' : State} {l : Label} {expiresAt : Instant} {claimed : Bool}
    (run : PowRun env ts s) (taken : Step env s l s')
    (before : ExpiredOrStored s key expiresAt claimed) :
    ExpiredOrStored s' key expiresAt claimed := by
  rcases before with expired | ⟨c, stored, same, mark⟩
  · exact .inl (expired.trans (clock_monotone taken))
  have map := map_effect taken
  generalize after : s'.shared.challengeSet = m' at map
  cases map with
  | @installed id ip chain c' absent =>
      refine .inr ⟨c, ?_, same, mark⟩
      rw [after, Function.update_of_ne, stored]
      rintro rfl
      simp [absent] at stored
  | @swapped id claim old found =>
      by_cases here : key = claim.key
      · subst here
        obtain rfl := Option.some.inj (stored.symm.trans found)
        exact .inr ⟨c.markClaimed, by rw [after, Function.update_self], same, fun _ => rfl⟩
      · exact .inr ⟨c, by rw [after, Function.update_of_ne here, stored], same, mark⟩
  | @removed entry =>
      by_cases here : key = entry.key
      · subst here
        obtain ⟨c', found, _, due⟩ := removed_expired run taken
        obtain rfl := Option.some.inj (stored.symm.trans found)
        exact .inl ((same ▸ due).trans (clock_monotone taken))
      · exact .inr ⟨c, by rw [after, Function.update_of_ne here, stored], same, mark⟩
  | same _ _ _ => exact .inr ⟨c, by rw [after, stored], same, mark⟩

theorem expiredOrStored (run : PowRun env ts s) : ∀ x ∈ ts, ∀ key expiresAt claimed,
    leaves x.label = some (key, expiresAt, claimed) → ExpiredOrStored s key expiresAt claimed := by
  induction run with
  | start _ => simp
  | @next ts s s' l prior taken ih =>
      intro x member key expiresAt claimed put
      rcases List.mem_append.mp member with old | new
      · exact expiredOrStored_step prior taken (ih x old key expiresAt claimed put)
      · obtain rfl := List.mem_singleton.mp new
        have map := map_effect taken
        generalize after : s'.shared.challengeSet = m' at map
        cases map with
        | installed _ =>
            simp only [leaves, Option.some.injEq, Prod.mk.injEq] at put
            obtain ⟨rfl, rfl, rfl⟩ := put
            exact .inr ⟨_, by rw [after, Function.update_self], rfl, by simp⟩
        | @swapped _ _ old _ =>
            simp only [leaves, Option.some.injEq, Prod.mk.injEq] at put
            obtain ⟨rfl, rfl, rfl⟩ := put
            exact .inr ⟨old.markClaimed, by rw [after, Function.update_self], rfl, fun _ => rfl⟩
        | removed => simp [leaves] at put
        | same noInstall noSwap _ =>
            unfold leaves at put
            split at put
            · rename_i same
              exact (noInstall _ _ _ _ same).elim
            · rename_i same
              exact (noSwap _ _ _ same).elim
            · simp at put

private theorem pairwise_expiredOrStored (run : PowRun env ts s) :
    ts.Pairwise (fun x y => ∀ key expiresAt claimed,
      leaves x.label = some (key, expiresAt, claimed) →
        ExpiredOrStored y.source key expiresAt claimed) := by
  induction run with
  | start _ => exact List.Pairwise.nil
  | next prior taken ih =>
      rw [List.pairwise_append]
      refine ⟨ih, List.pairwise_singleton _ _, ?_⟩
      intro x old y new
      obtain rfl := List.mem_singleton.mp new
      exact expiredOrStored prior x old

private theorem expired_of_absent {expiresAt : Instant} {claimed : Bool}
    (past : ExpiredOrStored s key expiresAt claimed)
    (absent : s.shared.challengeSet key = none) : expiresAt ≤ s.shared.now := by
  rcases past with expired | ⟨c, stored, _⟩
  · exact expired
  · simp [absent] at stored

private theorem expired_of_unclaimed {expiresAt : Instant} {c : Challenge}
    (past : ExpiredOrStored s key expiresAt true) (stored : s.shared.challengeSet key = some c)
    (unclaimed : c.claimed = false) : expiresAt ≤ s.shared.now := by
  rcases past with expired | ⟨c', stored', _, mark⟩
  · exact expired
  · obtain rfl := Option.some.inj (stored.symm.trans stored')
    simp [mark rfl] at unclaimed

/-- Every reachable state has exactly one eviction token for a stored challenge, with its expiry,
and none for an unbound key. So no challenge is removed before it expires, its successor is
installed no sooner, and a later claim for the key comes no sooner. -/
theorem one_token_guards_each_challenge (run : PowRun env ts s) :
    (∀ key, ((s.shared.challengeSet key).isSome ↔ (keyTokens s key).card = 1) ∧
      ∀ c, s.shared.challengeSet key = some c →
        ∀ entry ∈ keyTokens s key, entry.expiresAt = c.expiresAt) ∧
    (∀ x ∈ ts, ∀ entry bound, x.label = .task (.removed entry bound) →
      ∃ c, bound = some c ∧ c.expiresAt ≤ x.source.shared.now) ∧
    ts.Pairwise (fun x y => ∀ id id' ip chain c c',
      x.label = .thread id (.installed ip chain c) →
      y.label = .thread id' (.installed ip chain c') → c.expiresAt ≤ y.source.shared.now) ∧
    ts.Pairwise (fun x y => ∀ id id' claim claim' old old',
      x.label = .thread id (.swapped claim old) → y.label = .thread id' (.swapped claim' old') →
      claim.key = claim'.key → old.expiresAt ≤ y.source.shared.now) ∧
    (∀ id claim, Did ts id (.hashed claim (.ok ())) → ∃ old, Did ts id (.swapped claim old)) := by
  refine ⟨fun key => ⟨?_, ?_⟩, ?_, ?_, ?_, ?_⟩
  · have count : (keyTokens s key).card = (boundExpiry (s.shared.challengeSet key)).card := by
      rw [← tokens_match_set run, expiries, Multiset.card_map, keyTokens]
    rw [count]
    cases s.shared.challengeSet key <;> simp [boundExpiry]
  · intro c stored entry member
    have expiry : entry.expiresAt ∈ expiries key (tokens s) := Multiset.mem_map_of_mem _ member
    rw [tokens_match_set run, stored] at expiry
    exact Multiset.mem_singleton.mp expiry
  · rintro ⟨source, label, target⟩ member entry bound rfl
    obtain ⟨a, b, _, before, taken⟩ := run.at_mem member
    obtain ⟨c, found, _, due⟩ := removed_expired before taken
    exact ⟨c, found, due⟩
  · apply (pairwise_expiredOrStored run).imp_of_mem
    rintro x ⟨source, label, target⟩ _ later past id id' ip chain c c' put rfl
    obtain ⟨_, _, _, _, taken⟩ := run.at_mem later
    exact expired_of_absent (past _ _ _ (by rw [put, leaves])) (installed_absent taken)
  · apply (pairwise_expiredOrStored run).imp_of_mem
    rintro x ⟨source, label, target⟩ _ later past id id' claim claim' old old' put rfl sameKey
    obtain ⟨_, _, _, before, taken⟩ := run.at_mem later
    have unclaimed : old'.claimed = false :=
      swapped_unclaimed (before.next taken) (did_snoc.mpr (.inr rfl))
    exact expired_of_unclaimed (past claim.key old.expiresAt true (by rw [put, leaves]))
      (sameKey ▸ swapped_stored taken) unclaimed
  · intro id claim did
    obtain ⟨old, swapped, _⟩ := hashed_swapped run did
    exact ⟨old, swapped⟩

/-- One client's challenge is removed and replaced while another client's is stored. -/
theorem one_token_guards_each_challenge_nonvacuous :
    ∃ ts s c c' c'', PowRun sampleEnv ts s ∧
      Did ts 0 (.installed localIp .l1 c) ∧
      (∃ x ∈ ts, ∃ entry, x.label = .task (.removed entry (some c))) ∧
      Did ts 2 (.installed localIp .l1 c'') ∧
      s.shared.challengeSet (keyOf localIp .l1) = some c'' ∧
      s.shared.challengeSet (keyOf peerIp .l1) = some c' ∧
      (keyTokens s (keyOf localIp .l1)).card = 1 ∧
      (keyTokens s (keyOf peerIp .l1)).card = 1 := by
  have begin : PowRun sampleEnv [] _ := .start ⟨0, 0, rfl⟩
  have get := begin.next
    (@Step.called _ _ 0 (.get localIp .l1 (Vector.replicate 16 7) 5 120) (by simp))
  have installed := get.next (.act (.installed (getCas_ok.mpr ⟨rfl, rfl, rfl⟩)))
  have pushed := installed.next (.act (.pushed rfl le_rfl))
  have loaded := pushed.next (.act (.loaded (by decide)))
  have sent := loaded.next (.act .sent)
  have get' := sent.next
    (@Step.called _ _ 1 (.get peerIp .l1 (Vector.replicate 16 9) 5 240) (by simp))
  have installed' := get'.next (.act (.installed (getCas_ok.mpr ⟨rfl, rfl, rfl⟩)))
  have pushed' := installed'.next (.act (.pushed rfl le_rfl))
  have received := pushed'.next (.evict (.received rfl rfl))
  have stored := received.next (.evict (.stored rfl))
  have later := stored.next (@Step.clock _ _ 120)
  have woke := later.next (.evict (.woke rfl (by decide)))
  have locked := woke.next (.evict (.locked rfl rfl))
  have popped := locked.next (.evict (.popped rfl (pop_first (by decide)) (by decide)))
  have stopped := popped.next (.evict (.stoppedAt rfl (pop_last _).1 (by decide)))
  have removed := stopped.next (.evict (.removed rfl rfl))
  have released := removed.next (.evict (.released rfl))
  have get'' := released.next
    (@Step.called _ _ 2 (.get localIp .l1 (Vector.replicate 16 8) 5 120) (by simp))
  have installed'' := get''.next (.act (.installed (getCas_ok.mpr ⟨rfl, rfl, rfl⟩)))
  obtain ⟨match_set, _⟩ := one_token_guards_each_challenge installed''
  refine ⟨_, _, candidate (Vector.replicate 16 7) 0 5 120,
    candidate (Vector.replicate 16 9) 0 5 240, candidate (Vector.replicate 16 8) 120 5 120,
    installed'', by simp [Did], ?_, by simp [Did], rfl, rfl, (match_set _).1.mp rfl,
    (match_set _).1.mp rfl⟩
  exact ⟨_, List.mem_append_left _ (List.mem_append_left _ (List.mem_append_left _
    (List.mem_append_right _ List.mem_cons_self))), _, rfl⟩

end FaucetApi.Pow.Tokens
