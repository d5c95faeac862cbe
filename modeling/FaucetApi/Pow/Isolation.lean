/- module: FaucetApi/Pow/Isolation
   layer: results
   digest: A client's calls without the other clients' calls: the same results. -/

import FaucetApi.Pow.Consumption
import FaucetApi.Pow.Sweeps

set_option autoImplicit false
set_option relaxedAutoImplicit false

namespace FaucetApi.Pow.Isolation

open FaucetApi.Lib.ConcurrentMap
open FaucetApi.Lib.MaxHeap
open FaucetApi.Lib.Runs
open FaucetApi.Pow.Challenges
open FaucetApi.Pow.Eviction
open FaucetApi.Pow.Claims
open FaucetApi.Pow.Machine
open FaucetApi.Pow.Consumption
open FaucetApi.Pow.Sweeps

def keyOfPc : Pc → Key
  | .getCas ip chain _ => keyOf ip chain
  | .addPush ip chain _ => keyOf ip chain
  | .addLoad ip chain _ => keyOf ip chain
  | .addSend ip chain _ => keyOf ip chain
  | .got ip chain _ => keyOf ip chain
  | .checkRead claim => claim.key
  | .checkCas claim _ => claim.key
  | .checkHash claim _ => claim.key
  | .settle claim => claim.key
  | .answered claim _ => claim.key

def keyOfCall : Call → Key
  | .get ip chain _ _ _ => keyOf ip chain
  | .check claim => claim.key

def keyOfEvent : ThreadEvent → Key
  | .installed ip chain _ => keyOf ip chain
  | .found ip chain _ => keyOf ip chain
  | .pushed entry => entry.key
  | .loaded ip chain _ _ => keyOf ip chain
  | .sent ip chain _ => keyOf ip chain
  | .readRefused claim _ => claim.key
  | .read claim _ => claim.key
  | .swapped claim _ => claim.key
  | .swapRefused claim _ => claim.key
  | .hashed claim _ => claim.key
  | .wrongNetwork claim => claim.key
  | .queued claim _ => claim.key
  | .transferred claim _ => claim.key
  | .sendFailed claim => claim.key

def keyOfLabel : StoreLabel → Option Key
  | .called _ call => some (keyOfCall call)
  | .thread _ event => some (keyOfEvent event)
  | .popped entry => some entry.key
  | .removed entry _ => some entry.key
  | _ => none

/-- What is left of a label when the steps on other keys are deleted. -/
def keep (k : Key) (l : StoreLabel) : Option StoreLabel :=
  if keyOfLabel l = none ∨ keyOfLabel l = some k then some l else none

def restrictSweep (k : Key) : Sweep → Sweep
  | .idle => .idle
  | .popping now toExpire => .popping now (toExpire.filter fun entry => entry.key = k)
  | .removing toExpire => .removing (toExpire.filter fun entry => entry.key = k)

/-- The part of the state that is about `k`. -/
def restrict (k : Key) (s : Store) : Store where
  now := s.now
  challengeSet := only k s.challengeSet
  q := s.q.filter fun entry => entry.key = k
  locked := s.locked
  start := s.start
  sweep := restrictSweep k s.sweep
  pool := s.pool.filter fun call => keyOfPc call.2 = k

def restrictShared (k : Key) (sh : Shared) : Shared :=
  { sh with
    challengeSet := only k sh.challengeSet
    evictionQ := { sh.evictionQ with q := sh.evictionQ.q.filter fun entry => entry.key = k } }

variable {env : Env} {id : CallId} {sh sh' : Shared} {pc pc' : Pc} {event : ThreadEvent}
variable {k : Key} {s s' : Store} {l : StoreLabel}

private theorem thread_key (action : ThreadStep env id sh pc event sh' pc') :
    keyOfEvent event = keyOfPc pc ∧ keyOfPc pc' = keyOfPc pc := by
  cases action <;> exact ⟨rfl, rfl⟩

private theorem entry_key (now : Instant) (call : Call) :
    keyOfPc (call.entry now) = keyOfCall call := by
  cases call <;> rfl

theorem thread_other (action : ThreadStep env id sh pc event sh' pc') (other : keyOfPc pc ≠ k) :
    only k sh'.challengeSet = only k sh.challengeSet ∧
      sh'.evictionQ.q.filter (fun entry => entry.key = k) =
        sh.evictionQ.q.filter (fun entry => entry.key = k) := by
  cases action with
  | installed tried =>
      obtain ⟨_, _, rfl⟩ := getCas_ok.mp tried
      exact ⟨only_update_of_ne other, rfl⟩
  | found tried =>
      obtain ⟨_, rfl⟩ := getCas_error.mp tried
      exact ⟨rfl, rfl⟩
  | pushed _ _ => exact ⟨rfl, Multiset.filter_cons_of_neg _ other⟩
  | swapped tried =>
      obtain ⟨_, rfl⟩ := checkCas_ok.mp tried
      exact ⟨only_update_of_ne other, rfl⟩
  | swapRefused tried =>
      obtain ⟨_, _, rfl⟩ := checkCas_error.mp tried
      exact ⟨rfl, rfl⟩
  | _ => exact ⟨rfl, rfl⟩

private theorem checkRead_only (k : Key) (challengeSet : ChallengeSet) :
    checkRead (only k challengeSet) k = checkRead challengeSet k := by
  unfold checkRead
  rw [only_self]

theorem thread_own (action : ThreadStep env id sh pc event sh' pc') (own : keyOfPc pc = k) :
    ThreadStep env id (restrictShared k sh) pc event (restrictShared k sh') pc' := by
  cases action with
  | installed tried =>
      obtain ⟨absent, _, rfl⟩ := getCas_ok.mp tried
      subst own
      refine .installed (getCas_ok.mpr ⟨?_, rfl, only_update_self⟩)
      exact only_self.trans absent
  | found tried =>
      obtain ⟨present, rfl⟩ := getCas_error.mp tried
      subst own
      refine .found (getCas_error.mpr ⟨?_, rfl⟩)
      exact only_self.trans present
  | @pushed ip chain c free started =>
      have pushed : (entryOf ip chain c ::ₘ sh.evictionQ.q).filter (fun entry => entry.key = k) =
          entryOf ip chain c ::ₘ sh.evictionQ.q.filter (fun entry => entry.key = k) :=
        Multiset.filter_cons_of_pos _ own
      have moved : ThreadStep env id (restrictShared k sh) (.addPush ip chain c) _ _ _ :=
        .pushed free started
      simpa only [restrictShared, EvictionQueue.push, pushed] using moved
  | loaded earlier => exact .loaded earlier
  | loadedLater later => exact .loadedLater later
  | sent => exact .sent
  | readRefused refused =>
      subst own
      exact .readRefused ((checkRead_only _ _).trans refused)
  | read ok =>
      subst own
      exact .read ((checkRead_only _ _).trans ok)
  | swapped tried =>
      obtain ⟨present, rfl⟩ := checkCas_ok.mp tried
      subst own
      refine .swapped (checkCas_ok.mpr ⟨?_, only_update_self⟩)
      exact only_self.trans present
  | swapRefused tried =>
      obtain ⟨differs, rfl, rfl⟩ := checkCas_error.mp tried
      subst own
      refine .swapRefused (checkCas_error.mpr ⟨?_, rfl, rfl⟩)
      exact fun same => differs (only_self.symm.trans same)
  | accepted solved => exact .accepted solved
  | rejected failed => exact .rejected failed
  | wrongNetwork wrong => exact .wrongNetwork wrong
  | queued right => exact .queued right
  | transferred => exact .transferred
  | sendFailed => exact .sendFailed

private theorem fresh_restrict (fresh : id ∉ s.pool.map Prod.fst) :
    id ∉ (restrict k s).pool.map Prod.fst := by
  intro member
  obtain ⟨call, here, same⟩ := Multiset.mem_map.mp member
  exact fresh (Multiset.mem_map.mpr ⟨call, Multiset.mem_of_mem_filter here, same⟩)

private theorem keep_own {key : Key} (about : keyOfLabel l = some key) (own : key = k) :
    keep k l = some l := if_pos (.inr (about.trans (congrArg some own)))

private theorem keep_shared (shared : keyOfLabel l = none) :
    keep k l = some l := if_pos (.inl shared)

private theorem keep_other {key : Key} (about : keyOfLabel l = some key) (other : key ≠ k) :
    keep k l = none := by
  unfold keep
  rw [about]
  simp [other]

private theorem calls_own (id : CallId) (own : keyOfPc pc = k) (pool : Multiset (CallId × Pc)) :
    ((id, pc) ::ₘ pool).filter (fun call => keyOfPc call.2 = k) =
      (id, pc) ::ₘ pool.filter (fun call => keyOfPc call.2 = k) :=
  Multiset.filter_cons_of_pos _ own

private theorem calls_other (id : CallId) (other : keyOfPc pc ≠ k) (pool : Multiset (CallId × Pc)) :
    ((id, pc) ::ₘ pool).filter (fun call => keyOfPc call.2 = k) =
      pool.filter (fun call => keyOfPc call.2 = k) :=
  Multiset.filter_cons_of_neg _ other

private theorem restrict_popping {now : Instant} {toExpire : List EvictionEntry}
    (here : s.sweep = .popping now toExpire) : (restrict k s).sweep =
      .popping now (toExpire.filter fun entry => entry.key = k) := by
  rw [restrict, here]
  rfl

/-- The steps on `k` and the shared steps are steps of the part about `k`, and the other steps
leave it alone. -/
theorem step_restrict (taken : StoreStep env s l s') :
    TakesPart (StoreStep env) (restrict k s) (keep k l) (restrict k s') := by
  cases taken with
  | clock =>
      rw [keep_shared rfl]
      exact .clock
  | @called id call fresh =>
      by_cases own : keyOfCall call = k
      · rw [keep_own rfl own]
        have entered : StoreStep env (restrict k s) (.called id call) _ :=
          .called (fresh_restrict fresh)
        have pool := calls_own id ((entry_key s.now call).trans own) s.pool
        change StoreStep env _ _ (restrict k _)
        simpa only [restrict, pool] using entered
      · rw [keep_other rfl own]
        have pool := calls_other id ((entry_key s.now call).trans_ne own) s.pool
        change restrict k _ = restrict k s
        simp only [restrict, pool]
  | @thread id pc pc' rest event sh' mirror channel pool action =>
      obtain ⟨event_key, pc_key⟩ := thread_key action
      by_cases own : keyOfPc pc = k
      · rw [keep_own rfl (event_key.trans own)]
        have before : (restrict k s).pool =
            (id, pc) ::ₘ rest.filter (fun c => keyOfPc c.2 = k) := by
          rw [restrict, pool, calls_own id own]
        have after := calls_own id (pc_key.trans own) rest
        have moved : StoreStep env (restrict k s) (.thread id event) _ :=
          .thread mirror channel before (thread_own action own)
        change StoreStep env _ _ (restrict k _)
        simpa only [restrict, restrictShared, after] using moved
      · rw [keep_other rfl (event_key.trans_ne own)]
        obtain ⟨set, heap⟩ := thread_other action own
        have before := calls_other id own rest
        have after := calls_other id (pc_key.trans_ne own) rest
        change restrict k _ = restrict k s
        simp only [restrict, set, heap, after, pool, before, Store.shared]
  | locked idle free =>
      rw [keep_shared rfl]
      exact .locked (by rw [restrict, idle]; rfl) free
  | @popped now toExpire entry rest here top due =>
      by_cases own : entry.key = k
      · rw [keep_own rfl own]
        have longer : (toExpire ++ [entry]).filter (fun entry => entry.key = k) =
            toExpire.filter (fun entry => entry.key = k) ++ [entry] := by
          simp [List.filter_append, own]
        have moved : StoreStep env (restrict k s) (.popped entry) _ :=
          .popped (restrict_popping here) (top.filter own) due
        change StoreStep env _ _ (restrict k _)
        simpa only [restrict, restrictSweep, longer] using moved
      · rw [keep_other rfl own]
        have longer : (toExpire ++ [entry]).filter (fun entry => entry.key = k) =
            toExpire.filter (fun entry => entry.key = k) := by
          simp [List.filter_append, own]
        have heap := top.filter_eq (p := fun entry => entry.key = k) own
        change restrict k _ = restrict k s
        simp only [restrict, restrictSweep, longer, here, heap]
  | @stopped now toExpire here done =>
      rw [keep_shared rfl]
      refine .stopped (restrict_popping here) ?_
      by_cases none : (restrict k s).q = 0
      · exact .inl none
      -- the first of the own entries expires no earlier than the first of all
      obtain ⟨first, peek⟩ := exists_peek none
      refine .inr ⟨first, peek, ?_⟩
      have member : first ∈ s.q := Multiset.mem_of_mem_filter peek.1
      rcases done with empty | ⟨top, peek', late⟩
      · rw [empty] at member
        exact absurd member (Multiset.notMem_zero first)
      · exact fun due => late ((peek_expires_first peek' member).trans due)
  | @removed entry toExpire bound _ here done =>
      obtain ⟨rfl, rfl⟩ := remove_eq.mp done
      by_cases own : entry.key = k
      · rw [keep_own rfl own]
        subst own
        have sweep : (restrict entry.key s).sweep =
            .removing (entry :: toExpire.filter fun e => e.key = entry.key) := by
          rw [restrict, here]
          simp [restrictSweep]
        have moved : StoreStep env (restrict entry.key s) (.removed entry _) _ :=
          .removed sweep (remove_eq.mpr ⟨only_self.symm, rfl⟩)
        change StoreStep env _ _ (restrict entry.key _)
        simpa only [restrict, restrictSweep, only_update_self] using moved
      · rw [keep_other rfl own]
        change restrict k _ = restrict k s
        simp [restrict, restrictSweep, here, only_update_of_ne own, own]
  | released here =>
      rw [keep_shared rfl]
      exact .released (by rw [restrict, here]; rfl)

/-! A run is determined by its operations: what is done when, and what the environment decides. -/

/-- What the environment decides in an action: what the mirror says, whether a send fails. -/
def inputOf : ThreadEvent → Bool
  | .loaded _ _ _ sends => sends
  | .sendFailed _ => true
  | _ => false

/-- A label without the results. The heap's layout decides which of several equal entries is on
top, so a pop names its entry. -/
inductive Operation where
  | clock (duration : Duration)
  | called (id : CallId) (call : Call)
  | thread (id : CallId) (input : Bool)
  | locked
  | popped (entry : EvictionEntry)
  | stopped
  | removed
  | released

def operationOf : StoreLabel → Operation
  | .clock duration => .clock duration
  | .called id call => .called id call
  | .thread id event => .thread id (inputOf event)
  | .locked => .locked
  | .popped entry => .popped entry
  | .stopped => .stopped
  | .removed _ _ => .removed
  | .released => .released

/-- A position without the text of an answer: the provider chooses the transaction's number. -/
def settled : Pc → Pc
  | .answered claim _ => .answered claim (.ok "")
  | pc => pc

def settledCall (call : CallId × Pc) : CallId × Pc := (call.1, settled call.2)

/-- Equal up to the texts of answers. -/
structure Alike (s s' : Store) : Prop where
  now : s.now = s'.now
  challengeSet : s.challengeSet = s'.challengeSet
  q : s.q = s'.q
  locked : s.locked = s'.locked
  start : s.start = s'.start
  sweep : s.sweep = s'.sweep
  pool : s.pool.map settledCall = s'.pool.map settledCall

variable {sh₁ sh₂ sh₁' sh₂' : Shared} {pc₁ pc₂ pc₁' pc₂' : Pc} {e₁ e₂ : ThreadEvent}

private theorem thread_determined (first : ThreadStep env id sh₁ pc e₁ sh₁' pc₁')
    (second : ThreadStep env id sh₂ pc e₂ sh₂' pc₂') (set : sh₁.challengeSet = sh₂.challengeSet)
    (heap : sh₁.evictionQ.q = sh₂.evictionQ.q) (input : inputOf e₁ = inputOf e₂) :
    e₁ = e₂ ∧ sh₁'.challengeSet = sh₂'.challengeSet ∧ sh₁'.evictionQ.q = sh₂'.evictionQ.q ∧
      settled pc₁' = settled pc₂' := by
  cases first with
  | installed tried =>
      rw [set] at tried
      cases second with
      | installed tried' =>
          cases tried.symm.trans tried'
          exact ⟨rfl, rfl, heap, rfl⟩
      | found tried' => cases tried.symm.trans tried'
  | found tried =>
      rw [set] at tried
      cases second with
      | installed tried' => cases tried.symm.trans tried'
      | found tried' =>
          cases tried.symm.trans tried'
          exact ⟨rfl, rfl, heap, rfl⟩
  | pushed _ _ =>
      cases second with
      | pushed _ _ => exact ⟨rfl, set, congrArg (Multiset.cons _) heap, rfl⟩
  | loaded _ =>
      cases second with
      | loaded _ => exact ⟨rfl, set, heap, rfl⟩
      | loadedLater _ => cases input
  | loadedLater _ =>
      cases second with
      | loaded _ => cases input
      | loadedLater _ => exact ⟨rfl, set, heap, rfl⟩
  | sent =>
      cases second with
      | sent => exact ⟨rfl, set, heap, rfl⟩
  | readRefused refused =>
      rw [set] at refused
      cases second with
      | readRefused refused' =>
          cases refused.symm.trans refused'
          exact ⟨rfl, set, heap, rfl⟩
      | read ok' => cases refused.symm.trans ok'
  | read ok =>
      rw [set] at ok
      cases second with
      | readRefused refused' => cases ok.symm.trans refused'
      | read ok' =>
          cases ok.symm.trans ok'
          exact ⟨rfl, set, heap, rfl⟩
  | swapped tried =>
      rw [set] at tried
      cases second with
      | swapped tried' =>
          cases tried.symm.trans tried'
          exact ⟨rfl, rfl, heap, rfl⟩
      | swapRefused tried' => cases tried.symm.trans tried'
  | swapRefused tried =>
      rw [set] at tried
      cases second with
      | swapped tried' => cases tried.symm.trans tried'
      | swapRefused tried' =>
          cases tried.symm.trans tried'
          exact ⟨rfl, rfl, heap, rfl⟩
  | accepted solved =>
      cases second with
      | accepted _ => exact ⟨rfl, set, heap, rfl⟩
      | rejected failed' => cases solved.symm.trans failed'
  | rejected failed =>
      cases second with
      | accepted solved' => cases failed.symm.trans solved'
      | rejected failed' =>
          cases failed.symm.trans failed'
          exact ⟨rfl, set, heap, rfl⟩
  | wrongNetwork wrong =>
      cases second with
      | wrongNetwork _ => exact ⟨rfl, set, heap, rfl⟩
      | queued right' => cases wrong.symm.trans right'
  | queued right =>
      cases second with
      | wrongNetwork wrong' => cases right.symm.trans wrong'
      | queued right' =>
          cases right.symm.trans right'
          exact ⟨rfl, set, heap, rfl⟩
  | transferred =>
      cases second with
      | transferred => exact ⟨rfl, set, heap, rfl⟩
      | sendFailed => cases input
  | sendFailed =>
      cases second with
      | transferred => cases input
      | sendFailed => exact ⟨rfl, set, heap, rfl⟩

variable {now start : Instant} {ts : List (Transition Store StoreLabel)}

private theorem store_ids_nodup (run : StoreRun env now start ts s) :
    (s.pool.map Prod.fst).Nodup := by
  refine run.invariant (P := fun s => (s.pool.map Prod.fst).Nodup) ?_ ?_
  · rintro _ rfl
    exact Multiset.nodup_zero
  · intro s l s' nodup taken
    cases taken with
    | called fresh =>
        rw [Multiset.map_cons]
        exact Multiset.nodup_cons.mpr ⟨fresh, nodup⟩
    | thread _ _ pool _ =>
        rw [pool, Multiset.map_cons] at nodup
        rw [Multiset.map_cons]
        exact nodup
    | _ => exact nodup

private theorem ids_settled (pool : Multiset (CallId × Pc)) :
    (pool.map settledCall).map Prod.fst = pool.map Prod.fst := by
  rw [Multiset.map_map]
  rfl

private theorem alike_call {rest₁ rest₂ : Multiset (CallId × Pc)}
    (alike : ((id, pc₁) ::ₘ rest₁).map settledCall = ((id, pc₂) ::ₘ rest₂).map settledCall)
    (nodup : (((id, pc₂) ::ₘ rest₂).map Prod.fst).Nodup) :
    settled pc₁ = settled pc₂ ∧ rest₁.map settledCall = rest₂.map settledCall := by
  rw [Multiset.map_cons, Multiset.nodup_cons, ← ids_settled] at nodup
  rw [Multiset.map_cons, Multiset.map_cons] at alike
  have member : settledCall (id, pc₁) ∈ settledCall (id, pc₂) ::ₘ rest₂.map settledCall :=
    alike ▸ Multiset.mem_cons_self _ _
  have here : settledCall (id, pc₁) = settledCall (id, pc₂) := by
    rcases Multiset.mem_cons.mp member with same | other
    · exact same
    · exact (nodup.1 (Multiset.mem_map.mpr ⟨_, other, rfl⟩)).elim
  refine ⟨(Prod.mk.inj here).2, ?_⟩
  rw [here] at alike
  exact (Multiset.cons_inj_right _).mp alike

private theorem acting_settled (first : ThreadStep env id sh₁ pc₁ e₁ sh₁' pc₁')
    (second : ThreadStep env id sh₂ pc₂ e₂ sh₂' pc₂') (same : settled pc₁ = settled pc₂) :
    pc₁ = pc₂ := by
  have still : ∀ {sh sh' : Shared} {pc pc' : Pc} {event : ThreadEvent},
      ThreadStep env id sh pc event sh' pc' → settled pc = pc := by
    intro sh sh' pc pc' event action
    cases action <;> rfl
  rw [← still first, same, still second]

variable {l' : StoreLabel} {t t' : Store}

private theorem step_determined (alike : Alike s s') (nodup : (s'.pool.map Prod.fst).Nodup)
    (first : StoreStep env s l t) (second : StoreStep env s' l' t')
    (operation : operationOf l = operationOf l') : l = l' ∧ Alike t t' := by
  cases first with
  | clock =>
      cases second with
      | clock =>
          cases operation
          exact ⟨rfl, { alike with now := congrArg (· + _) alike.now }⟩
      | _ => cases operation
  | called _ =>
      cases second with
      | called _ =>
          cases operation
          refine ⟨rfl, { alike with pool := ?_ }⟩
          rw [Multiset.map_cons, Multiset.map_cons, alike.pool, alike.now]
      | _ => cases operation
  | thread _ _ pool action =>
      cases second with
      | thread _ _ pool' action' =>
          obtain ⟨rfl, input⟩ := Operation.thread.inj operation
          have pools := alike.pool
          rw [pool, pool'] at pools
          rw [pool'] at nodup
          obtain ⟨place, others⟩ := alike_call pools nodup
          obtain rfl := acting_settled action action' place
          obtain ⟨rfl, set, heap, next⟩ :=
            thread_determined action action' alike.challengeSet alike.q input
          refine ⟨rfl, { alike with challengeSet := set, q := heap, pool := ?_ }⟩
          rw [Multiset.map_cons, Multiset.map_cons, others, settledCall, settledCall, next]
      | _ => cases operation
  | locked _ _ =>
      cases second with
      | locked _ _ =>
          exact ⟨rfl, { alike with locked := rfl, sweep := by rw [alike.now] }⟩
      | _ => cases operation
  | popped here top _ =>
      cases second with
      | popped here' top' _ =>
          cases operation
          have sweep := alike.sweep
          rw [here, here'] at sweep
          obtain ⟨rfl, rfl⟩ := Sweep.popping.inj sweep
          have heap := alike.q
          rw [top.2, top'.2] at heap
          exact ⟨rfl, { alike with q := (Multiset.cons_inj_right _).mp heap, sweep := rfl }⟩
      | _ => cases operation
  | stopped here _ =>
      cases second with
      | stopped here' _ =>
          have sweep := alike.sweep
          rw [here, here'] at sweep
          obtain ⟨rfl, rfl⟩ := Sweep.popping.inj sweep
          exact ⟨rfl, { alike with sweep := rfl }⟩
      | _ => cases operation
  | removed here done =>
      cases second with
      | removed here' done' =>
          have sweep := alike.sweep
          rw [here, here'] at sweep
          obtain ⟨rfl, rfl⟩ := List.cons.inj (Sweep.removing.inj sweep)
          rw [alike.challengeSet] at done
          cases done.symm.trans done'
          exact ⟨rfl, { alike with challengeSet := rfl, sweep := rfl }⟩
      | _ => cases operation
  | released here =>
      cases second with
      | released here' => exact ⟨rfl, { alike with locked := rfl, sweep := rfl }⟩
      | _ => cases operation

/-- Two runs of the same operations give the same results and end alike. -/
theorem runs_determined {ts' : List (Transition Store StoreLabel)}
    (run : StoreRun env now start ts s) (run' : StoreRun env now start ts' s')
    (operations : ts.map (fun x => operationOf x.label) = ts'.map (fun x => operationOf x.label)) :
    ts.map Transition.label = ts'.map Transition.label ∧ Alike s s' := by
  refine run.determined run' ?_ ?_ operations
  · rintro _ _ rfl rfl
    exact ⟨rfl, rfl, rfl, rfl, rfl, rfl, rfl⟩
  · intro _ _ _ _ _ run' alike _ _ _ _ first second operation
    exact step_determined alike (store_ids_nodup run') first second operation

theorem restrict_run (k : Key) (run : StoreRun env now start ts s) :
    StoreRun env now start (ts.filterMap (Transition.project (restrict k) (keep k)))
      (restrict k s) := by
  refine run.project ?_ (fun _ _ _ => step_restrict)
  rintro _ rfl
  simp [restrict, initialStore, restrictSweep]

private theorem labels_kept (k : Key) (ts : List (Transition Store StoreLabel)) :
    (ts.filterMap (Transition.project (restrict k) (keep k))).map Transition.label =
      (ts.map Transition.label).filterMap (keep k) := by
  rw [List.map_filterMap, List.filterMap_map]
  congr 1
  ext x
  cases kept : keep k x.label <;> simp [Transition.project, kept]

/-- Without the steps on other keys there is still a run, with the same results and the same
stored state for `k`; and no run of the remaining operations has other results. -/
theorem clients_do_not_interfere (k : Key) (run : StoreRun env now start ts s) :
    (∃ ts', StoreRun env now start ts' (restrict k s) ∧
      ts'.map Transition.label = (ts.map Transition.label).filterMap (keep k)) ∧
    ∀ ts' s', StoreRun env now start ts' s' →
      ts'.map (fun x => operationOf x.label) =
        ((ts.map Transition.label).filterMap (keep k)).map operationOf →
      ts'.map Transition.label = (ts.map Transition.label).filterMap (keep k) ∧
        s'.challengeSet k = s.challengeSet k ∧
        s'.q = s.q.filter (fun entry => entry.key = k) := by
  have own := restrict_run k run
  have labels := labels_kept k ts
  refine ⟨⟨_, own, labels⟩, ?_⟩
  intro ts' s' run' operations
  have same : ts'.map (fun x => operationOf x.label) =
      (ts.filterMap (Transition.project (restrict k) (keep k))).map
        (fun x => operationOf x.label) := by
    rw [operations, ← labels, List.map_map]
    rfl
  obtain ⟨labels', alike⟩ := runs_determined run' own same
  refine ⟨labels'.trans labels, ?_, alike.q⟩
  rw [alike.challengeSet]
  exact only_self

private theorem two_chains_run : ∃ ts s, StoreRun sampleEnv 0 0 ts s ∧
    ts.map (fun x => operationOf x.label) =
      [.called 0 (.get localIp .l1 (Vector.replicate 16 7) 5 120), .thread 0 false,
        .called 1 (.get localIp .l2 (Vector.replicate 16 8) 5 120), .thread 1 false,
        .called 2 (.check sampleClaim), .thread 2 false, .thread 2 false, .thread 2 false] := by
  have begin : StoreRun sampleEnv 0 0 [] ⟨0, fun _ => none, 0, false, 0, .idle, 0⟩ := .start rfl
  have get := begin.next
    (@StoreStep.called _ _ 0 (.get localIp .l1 (Vector.replicate 16 7) 5 120) (by simp))
  have installed := get.next (.act 0 [] (.installed (getCas_ok.mpr ⟨rfl, rfl, rfl⟩)))
  have get' := installed.next
    (@StoreStep.called _ _ 1 (.get localIp .l2 (Vector.replicate 16 8) 5 120) (by simp))
  have installed' := get'.next (.act 0 [] (.installed (getCas_ok.mpr ⟨rfl, rfl, rfl⟩)))
  have claim := installed'.next (@StoreStep.called _ _ 2 (.check sampleClaim) (by simp))
  have read := claim.next (.act 0 [] (.read (checkRead_ok.mpr ⟨rfl, rfl⟩)))
  have swapped := read.next (.act 0 [] (.swapped (checkCas_ok.mpr ⟨rfl, rfl⟩)))
  have hashed := swapped.next (.act 0 [] (.accepted (by decide)))
  exact ⟨_, _, hashed, rfl⟩

theorem clients_do_not_interfere_nonvacuous : ∃ ts s ts', StoreRun sampleEnv 0 0 ts s ∧
    ts.length = 8 ∧ StoreRun sampleEnv 0 0 ts' (restrict (keyOf localIp .l2) s) ∧
      ts'.map Transition.label =
        (ts.map Transition.label).filterMap (keep (keyOf localIp .l2)) := by
  obtain ⟨ts, s, run, operations⟩ := two_chains_run
  obtain ⟨ts', own, labels⟩ := (clients_do_not_interfere (keyOf localIp .l2) run).1
  have count := congrArg List.length operations
  rw [List.length_map] at count
  exact ⟨ts, s, ts', run, count, own, labels⟩

end FaucetApi.Pow.Isolation
