/- module: FaucetApi/Pow/Linearization
   layer: results
   digest: When get, check_solution and evictions of one key act as an atomic challenge slot. -/

import FaucetApi.Lib.AtomicObject
import FaucetApi.Pow.Tokens

set_option autoImplicit false
set_option relaxedAutoImplicit false

namespace FaucetApi.Pow.Linearization

open FaucetApi.Lib.AtomicObject
open FaucetApi.Lib.MaxHeap
open FaucetApi.Lib.Runs
open FaucetApi.Pow.Hash
open FaucetApi.Pow.Challenges
open FaucetApi.Pow.Eviction
open FaucetApi.Pow.Claims
open FaucetApi.Pow.Machine
open FaucetApi.Pow.Threads
open FaucetApi.Pow.Consumption
open FaucetApi.Pow.Tokens

/-- Who operates on the slot: a handler call, or the eviction task as `none`. -/
abbrev Caller := Option CallId

inductive Op where
  /-- `get`, with the challenge it would install. -/
  | get (offer : Challenge)
  | check (solution : Solution)
  | evict (now : Instant)

inductive Reply where
  | challenge (challenge : Challenge)
  | result (result : Except CheckError Unit)
  | evicted

/-- The sequential specification of what is stored under one key. -/
inductive Sequential (sha256 : Sha256) : Option Challenge → Op → Reply → Option Challenge → Prop
  | getStored {c offer : Challenge} :
      Sequential sha256 (some c) (.get offer) (.challenge c) (some c)
  | getNew {offer : Challenge} :
      Sequential sha256 none (.get offer) (.challenge offer) (some offer)
  | checkAbsent {solution : Solution} :
      Sequential sha256 none (.check solution) (.result (.error .nonceNotFound)) none
  | checkClaimed {c : Challenge} {solution : Solution} :
      c.claimed = true →
      Sequential sha256 (some c) (.check solution) (.result (.error .alreadyClaimed)) (some c)
  | checkOpen {c : Challenge} {solution : Solution} :
      c.claimed = false →
      Sequential sha256 (some c) (.check solution) (.result (checkHash sha256 c solution))
        (some c.markClaimed)
  | evict {c : Challenge} {now : Instant} :
      c.expiresAt ≤ now → Sequential sha256 (some c) (.evict now) .evicted none

private theorem sequential_deterministic (sha256 : Sha256) (stored : Option Challenge) (op : Op)
    (reply : Reply) (after after' : Option Challenge)
    (one : Sequential sha256 stored op reply after)
    (other : Sequential sha256 stored op reply after') : after = after' := by
  cases one with
  | checkClaimed claimed =>
      generalize same : Reply.result (.error .alreadyClaimed) = reply at other
      cases other with
      | checkClaimed _ => rfl
      | checkOpen unclaimed => simp [claimed] at unclaimed
  | checkOpen unclaimed =>
      generalize same : Reply.result (checkHash _ _ _) = reply at other
      cases other with
      | checkClaimed claimed => simp [unclaimed] at claimed
      | checkOpen _ => rfl
  | _ =>
      cases other
      rfl

/-- What a step shows of the operations on `key`: calls as they begin and answers as they return. A
removal by the eviction task is called and returns at once. -/
def events (key : Key) (x : Transition State Label) : List (Event Caller Op Reply) :=
  match x.label with
  | .called id (.get ip chain nonce difficulty duration) =>
      if keyOf ip chain = key then
        [.call (some id) (.get (candidate nonce x.source.shared.now difficulty duration))]
      else []
  | .called id (.check claim) =>
      if claim.key = key then [.call (some id) (.check claim.solution)] else []
  | .thread id (.found ip chain c) =>
      if keyOf ip chain = key then [.ret (some id) (.challenge c)] else []
  | .thread id (.loaded ip chain c false) =>
      if keyOf ip chain = key then [.ret (some id) (.challenge c)] else []
  | .thread id (.sent ip chain c) =>
      if keyOf ip chain = key then [.ret (some id) (.challenge c)] else []
  | .thread id (.readRefused claim e) =>
      if claim.key = key then [.ret (some id) (.result (.error e))] else []
  | .thread id (.swapRefused claim e) =>
      if claim.key = key then [.ret (some id) (.result (.error e))] else []
  | .thread id (.hashed claim result) =>
      if claim.key = key then [.ret (some id) (.result result)] else []
  | .task (.removed entry _) =>
      if entry.key = key then [.call none (.evict x.source.shared.now), .ret none .evicted] else []
  | _ => []

def historyOf (key : Key) (ts : Trace) : List (Event Caller Op Reply) := ts.flatMap (events key)

variable {env : Env} {ts : Trace} {s : State} {id : CallId} {key : Key}

def progress (sha256 : Sha256) (key : Key) : Pc → Status Op Reply
  | .getCas ip chain c => if keyOf ip chain = key then .pending (.get c) else .idle
  | .addPush ip chain c => if keyOf ip chain = key then .done (.challenge c) else .idle
  | .addLoad ip chain c => if keyOf ip chain = key then .done (.challenge c) else .idle
  | .addSend ip chain c => if keyOf ip chain = key then .done (.challenge c) else .idle
  | .got _ _ _ => .idle
  | .checkRead claim => if claim.key = key then .pending (.check claim.solution) else .idle
  | .checkCas claim _ => if claim.key = key then .pending (.check claim.solution) else .idle
  | .checkHash claim old =>
      if claim.key = key then .done (.result (checkHash sha256 old claim.solution)) else .idle
  | .settle _ => .idle
  | .answered _ _ => .idle

abbrev Slot := Atomic Caller Op Reply (Option Challenge)

def refused : Reply := .result (.error .alreadyClaimed)

/-- The atomic slot has gone through the schedule `l` to `a` and shows what the run shows. -/
structure Follows (env : Env) (key : Key) (ts : Trace) (s : State) (l : Schedule Caller Op Reply)
    (a : Slot) : Prop where
  exec : Exec (Sequential env.sha256) (Atomic.start none) l a
  shown : history l = historyOf key ts
  content : a.content = s.shared.challengeSet key
  task : a.status none = .idle
  absent : ∀ id, id ∉ s.pool.map Prod.fst → a.status (some id) = .idle
  present : ∀ id pc, (id, pc) ∈ s.pool → a.status (some id) = progress env.sha256 key pc
  /-- A swap that will fail could have been refused at some moment already. -/
  doomed : ∀ id claim old, (id, .checkCas claim old) ∈ s.pool → claim.key = key →
    s.shared.challengeSet key = some old ∨
      Observed (Sequential env.sha256) (Atomic.start none) l (some id) refused

variable {l l' : Schedule Caller Op Reply} {a a' : Slot} {x : Transition State Label}

@[simp] theorem historyOf_snoc : historyOf key (ts ++ [x]) = historyOf key ts ++ events key x := by
  simp [historyOf]

private theorem follows_initial (init : Initial s) :
    Follows env key [] s [] (Atomic.start none) := by
  obtain ⟨_, _, rfl⟩ := init
  exact ⟨.nil, rfl, rfl, rfl, fun _ _ => rfl, by simp, by simp⟩

theorem Follows.moved {s' : State} {pc pc' : Pc} {rest : Multiset (CallId × Pc)}
    (before : Follows env key ts s l a) (run : PowRun env ts s)
    (pool : s.pool = (id, pc) ::ₘ rest) (pool' : s'.pool = (id, pc') ::ₘ rest)
    (exec : Exec (Sequential env.sha256) (Atomic.start none) l' a')
    (shown : history l' = history l ++ events key x)
    (content : a'.content = s'.shared.challengeSet key)
    (status : a'.status = Function.update a.status (some id) (progress env.sha256 key pc'))
    (doomed : ∀ id claim old, (id, .checkCas claim old) ∈ s'.pool → claim.key = key →
      s'.shared.challengeSet key = some old ∨
        Observed (Sequential env.sha256) (Atomic.start none) l' (some id) refused) :
    Follows env key (ts ++ [x]) s' l' a' := by
  refine ⟨exec, ?_, content, ?_, ?_, ?_, doomed⟩
  · rw [shown, before.shown, historyOf_snoc]
  · rw [status, Function.update_of_ne (by simp), before.task]
  · intro other away
    rw [pool', Multiset.map_cons, Multiset.mem_cons, not_or] at away
    rw [status, Function.update_of_ne (by simpa using away.1)]
    refine before.absent other ?_
    rw [pool, Multiset.map_cons, Multiset.mem_cons, not_or]
    exact away
  · intro other pc'' member
    rw [pool'] at member
    rcases Multiset.mem_cons.mp member with same | old
    · obtain ⟨rfl, rfl⟩ := Prod.mk.inj same
      rw [status, Function.update_self]
    · have differ := rest_id_ne run pool old
      rw [status, Function.update_of_ne (by simpa using differ)]
      exact before.present other pc'' (pool ▸ Multiset.mem_cons_of_mem old)

/-- What is doomed stays so when another call acts, as long as the challenges that it leaves no
longer stored could be refused. -/
theorem Follows.doomed_rest {s' : State} {pc pc' : Pc} {rest : Multiset (CallId × Pc)}
    {m : Schedule Caller Op Reply}
    (before : Follows env key ts s l a) (run : PowRun env ts s)
    (pool : s.pool = (id, pc) ::ₘ rest) (pool' : s'.pool = (id, pc') ::ₘ rest)
    (own : ∀ act ∈ m, act.caller = some id)
    (kept : ∀ other claim old, other ≠ id → (other, .checkCas claim old) ∈ s.pool →
      claim.key = key → s.shared.challengeSet key = some old →
        s'.shared.challengeSet key = some old ∨
          Observed (Sequential env.sha256) (Atomic.start none) (l ++ m) (some other) refused)
    (elsewhere : ∀ claim old, pc' = .checkCas claim old → claim.key = key →
      s'.shared.challengeSet key = some old) :
    ∀ id claim old, (id, .checkCas claim old) ∈ s'.pool → claim.key = key →
      s'.shared.challengeSet key = some old ∨
        Observed (Sequential env.sha256) (Atomic.start none) (l ++ m) (some id) refused := by
  intro other claim old member here
  rw [pool'] at member
  rcases Multiset.mem_cons.mp member with moved | old'
  · obtain ⟨rfl, rfl⟩ := Prod.mk.inj moved
    exact .inl (elsewhere claim old rfl here)
  · have differ := rest_id_ne run pool old'
    have earlier : (other, .checkCas claim old) ∈ s.pool := pool ▸ Multiset.mem_cons_of_mem old'
    rcases before.doomed other claim old earlier here with stored | seen
    · exact kept other claim old differ earlier here stored
    · refine .inr (seen.later fun act member => ?_)
      rw [own act member]
      simpa using Ne.symm differ

theorem Follows.quiet {s' : State} {pc pc' : Pc} {rest : Multiset (CallId × Pc)}
    (before : Follows env key ts s l a) (run : PowRun env ts s)
    (pool : s.pool = (id, pc) ::ₘ rest) (pool' : s'.pool = (id, pc') ::ₘ rest)
    (silent : events key x = [])
    (same : s'.shared.challengeSet key = s.shared.challengeSet key)
    (still : progress env.sha256 key pc' = progress env.sha256 key pc)
    (elsewhere : ∀ claim old, pc' = .checkCas claim old → claim.key = key →
      s'.shared.challengeSet key = some old) :
    Follows env key (ts ++ [x]) s' l a := by
  have here := before.present id pc (pool ▸ Multiset.mem_cons_self _ _)
  refine before.moved run pool pool' before.exec (by simp [silent])
    (before.content.trans same.symm) ?_ ?_
  · rw [still, ← here, Function.update_eq_self]
  · have rest := before.doomed_rest run pool pool' (m := []) (by simp)
      (fun _ _ _ _ _ _ stored => .inl (same.trans stored)) elsewhere
    simpa using rest

theorem Follows.answered {s' : State} {pc pc' : Pc} {rest : Multiset (CallId × Pc)}
    {m : Schedule Caller Op Reply}
    (before : Follows env key ts s l a) (run : PowRun env ts s)
    (pool : s.pool = (id, pc) ::ₘ rest) (pool' : s'.pool = (id, pc') ::ₘ rest)
    (exec : Exec (Sequential env.sha256) (Atomic.start none) (l ++ m)
      ((Atomic.mk a.content a.status).set (some id) (progress env.sha256 key pc')))
    (own : ∀ act ∈ m, act.caller = some id)
    (shown : history m = events key x)
    (same : s'.shared.challengeSet key = s.shared.challengeSet key)
    (elsewhere : ∀ claim old, pc' ≠ .checkCas claim old) :
    ∃ l' a', Follows env key (ts ++ [x]) s' l' a' := by
  refine ⟨_, _, before.moved run pool pool' exec (by rw [history_append, shown])
    (before.content.trans same.symm) rfl ?_⟩
  exact before.doomed_rest run pool pool' own
    (fun _ _ _ _ _ _ stored => .inl (same.trans stored))
    (fun claim old at_pc => (elsewhere claim old at_pc).elim)

private theorem follows_installed {s' : State} {ip : Ipv4Addr} {chain : Chain} {c : Challenge}
    {rest : Multiset (CallId × Pc)} (before : Follows env key ts s l a) (run : PowRun env ts s)
    (pool : s.pool = (id, .getCas ip chain c) ::ₘ rest)
    (pool' : s'.pool = (id, .addPush ip chain c) ::ₘ rest) (here : keyOf ip chain = key)
    (absent : s.shared.challengeSet key = none) (stored : s'.shared.challengeSet key = some c) :
    ∃ l' a', Follows env key (ts ++ [⟨s, .thread id (.installed ip chain c), s'⟩]) s' l' a' := by
  have status := before.present id _ (pool ▸ Multiset.mem_cons_self _ _)
  rw [progress, if_pos here] at status
  have allowed : Sequential env.sha256 a.content (.get c) (.challenge c) (some c) := by
    rw [before.content, absent]
    exact .getNew
  refine ⟨_, _, before.moved run pool pool' (before.exec.commit status allowed) (by simp [events])
    (by simp [stored]) (by simp [Atomic.set, progress, here]) ?_⟩
  refine before.doomed_rest run pool pool' (by simp [Action.caller]) ?_ (by simp)
  intro _ _ _ _ _ _ present
  simp [absent] at present

private theorem follows_swapped {s' : State} {claim : Claim} {old : Challenge}
    {rest : Multiset (CallId × Pc)} (before : Follows env key ts s l a) (run : PowRun env ts s)
    (pool : s.pool = (id, .checkCas claim old) ::ₘ rest)
    (pool' : s'.pool = (id, .checkHash claim old) ::ₘ rest) (here : claim.key = key)
    (found : s.shared.challengeSet key = some old)
    (stored : s'.shared.challengeSet key = some old.markClaimed) :
    ∃ l' a', Follows env key (ts ++ [⟨s, .thread id (.swapped claim old), s'⟩]) s' l' a' := by
  have own := pool ▸ Multiset.mem_cons_self _ _
  have status := before.present id _ own
  rw [progress, if_pos here] at status
  have past : Explained env ts id (.checkCas claim old) := pool_explained run _ _ own
  have allowed : Sequential env.sha256 a.content (.check claim.solution)
      (.result (checkHash env.sha256 old claim.solution)) (some old.markClaimed) := by
    rw [before.content, found]
    exact .checkOpen past.2
  have committed := before.exec.commit status allowed
  refine ⟨_, _, before.moved run pool pool' committed (by simp [events]) (by simp [stored])
    (by simp [Atomic.set, progress, here]) ?_⟩
  refine before.doomed_rest run pool pool' (by simp [Action.caller]) ?_ (by simp)
  intro other claim' old' differ member sameKey _
  have pending := before.present _ _ member
  rw [progress, if_pos sameKey] at pending
  exact .inr (observed_now committed
    ((set_status_of_ne (by simpa using differ) _).trans pending)
    (.checkClaimed (markClaimed_claimed old)))

/-- The call's swap has failed under `key`: it commits in hindsight to the refusal that it could
have had before. -/
theorem follows_swapRefused {s' : State} {claim : Claim} {old : Challenge}
    {rest : Multiset (CallId × Pc)} (before : Follows env key ts s l a) (run : PowRun env ts s)
    (pool : s.pool = (id, .checkCas claim old) ::ₘ rest)
    (pool' : s'.pool = (id, .answered claim (refusal .alreadyClaimed)) ::ₘ rest)
    (here : claim.key = key) (moved : s.shared.challengeSet key ≠ some old)
    (same : s'.shared.challengeSet key = s.shared.challengeSet key) :
    ∃ l' a', Follows env key (ts ++ [⟨s, .thread id (.swapRefused claim .alreadyClaimed), s'⟩])
      s' l' a' := by
  have seen := (before.doomed id claim old (pool ▸ Multiset.mem_cons_self _ _) here).resolve_left
    moved
  obtain ⟨l', exec, shown, others⟩ :=
    commit_observed (sequential_deterministic env.sha256) before.exec seen
  have returned := exec.ret (set_status_self _ _ _)
  refine ⟨_, _, before.moved run pool pool' returned (by simp [shown, events, here, refused])
    (before.content.trans same.symm) (by simp [Atomic.set, progress]) ?_⟩
  intro other claim' old' member sameKey
  rw [pool'] at member
  rcases Multiset.mem_cons.mp member with self | rest
  · simp at self
  · have differ := rest_id_ne run pool rest
    have earlier := before.doomed other claim' old' (pool ▸ Multiset.mem_cons_of_mem rest) sameKey
    rcases earlier with stored | seen'
    · exact .inl (same.trans stored)
    · refine .inr ((others (some other) refused (by simpa using differ) seen').later ?_)
      simpa [Action.caller] using Ne.symm differ

theorem follows_thread {pc pc' : Pc} {rest : Multiset (CallId × Pc)} {event : ThreadEvent}
    {shared' : Shared} (before : Follows env key ts s l a) (run : PowRun env ts s)
    (pool : s.pool = (id, pc) ::ₘ rest)
    (action : ThreadStep env id s.shared pc event shared' pc') :
    ∃ l' a', Follows env key (ts ++ [⟨s, .thread id event, ⟨shared', s.task, (id, pc') ::ₘ rest⟩⟩])
      ⟨shared', s.task, (id, pc') ::ₘ rest⟩ l' a' := by
  have status := before.present id pc (pool ▸ Multiset.mem_cons_self _ _)
  cases action with
  | @installed ip chain c _ tried =>
      obtain ⟨absent, _, rfl⟩ := getCas_ok.mp tried
      by_cases here : keyOf ip chain = key
      · subst here
        exact follows_installed before run pool rfl rfl absent (Function.update_self ..)
      · exact ⟨l, a, before.quiet run pool rfl (by simp [events])
          (Function.update_of_ne (Ne.symm here) _ _) (by simp [progress, here]) (by simp)⟩
  | @found ip chain c old _ tried =>
      obtain ⟨stored, rfl⟩ := getCas_error.mp tried
      by_cases here : keyOf ip chain = key
      · subst here
        rw [progress, if_pos rfl] at status
        have allowed : Sequential env.sha256 a.content (.get c) (.challenge old) a.content := by
          rw [before.content, stored]
          exact .getStored
        exact before.answered run pool rfl (before.exec.reply status allowed)
          (by simp [Action.caller]) (by simp [events]) rfl (by simp)
      · exact ⟨l, a, before.quiet run pool rfl (by simp [events, here]) rfl
          (by simp [progress, here]) (by simp)⟩
  | @loadedLater ip chain c _ =>
      by_cases here : keyOf ip chain = key
      · rw [progress, if_pos here] at status
        exact before.answered run pool rfl (before.exec.ret status) (by simp [Action.caller])
          (by simp [events, here]) rfl (by simp)
      · exact ⟨l, a, before.quiet run pool rfl (by simp [events, here]) rfl
          (by simp [progress, here]) (by simp)⟩
  | @sent ip chain c =>
      by_cases here : keyOf ip chain = key
      · rw [progress, if_pos here] at status
        exact before.answered run pool rfl (before.exec.ret status) (by simp [Action.caller])
          (by simp [events, here]) rfl (by simp)
      · exact ⟨l, a, before.quiet run pool rfl (by simp [events, here]) rfl
          (by simp [progress, here]) (by simp)⟩
  | @readRefused claim e refusal =>
      by_cases here : claim.key = key
      · rw [progress, if_pos here] at status
        have allowed : Sequential env.sha256 a.content (.check claim.solution)
            (.result (.error e)) a.content := by
          rw [before.content, ← here]
          rcases checkRead_error.mp refusal with ⟨absent, rfl⟩ | ⟨c, stored, claimed, rfl⟩
          · rw [absent]
            exact .checkAbsent
          · rw [stored]
            exact .checkClaimed claimed
        exact before.answered run pool rfl (before.exec.reply status allowed)
          (by simp [Action.caller]) (by simp [events, here]) rfl (by simp)
      · exact ⟨l, a, before.quiet run pool rfl (by simp [events, here]) rfl
          (by simp [progress, here]) (by simp)⟩
  | @read claim old ok =>
      refine ⟨l, a, before.quiet run pool rfl (by simp [events]) rfl (by simp [progress]) ?_⟩
      intro claim' old' at_pc here
      obtain ⟨rfl, rfl⟩ := Pc.checkCas.inj at_pc
      exact here ▸ (checkRead_ok.mp ok).1
  | @swapped claim old _ tried =>
      obtain ⟨stored, rfl⟩ := checkCas_ok.mp tried
      by_cases here : claim.key = key
      · subst here
        exact follows_swapped before run pool rfl rfl stored (Function.update_self ..)
      · exact ⟨l, a, before.quiet run pool rfl (by simp [events])
          (Function.update_of_ne (Ne.symm here) _ _) (by simp [progress, here]) (by simp)⟩
  | @swapRefused claim old e _ tried =>
      obtain ⟨moved, rfl, rfl⟩ := checkCas_error.mp tried
      by_cases here : claim.key = key
      · exact follows_swapRefused before run pool rfl here (here ▸ moved) rfl
      · exact ⟨l, a, before.quiet run pool rfl (by simp [events, here]) rfl
          (by simp [progress, here]) (by simp)⟩
  | @accepted claim old solved =>
      by_cases here : claim.key = key
      · rw [progress, if_pos here, solved] at status
        exact before.answered run pool rfl (before.exec.ret status) (by simp [Action.caller])
          (by simp [events, here]) rfl (by simp)
      · exact ⟨l, a, before.quiet run pool rfl (by simp [events, here]) rfl
          (by simp [progress, here]) (by simp)⟩
  | @rejected claim old e failed =>
      by_cases here : claim.key = key
      · rw [progress, if_pos here, failed] at status
        exact before.answered run pool rfl (before.exec.ret status) (by simp [Action.caller])
          (by simp [events, here]) rfl (by simp)
      · exact ⟨l, a, before.quiet run pool rfl (by simp [events, here]) rfl
          (by simp [progress, here]) (by simp)⟩
  | _ => exact ⟨l, a, before.quiet run pool rfl (by simp [events]) rfl rfl (by simp)⟩

theorem Follows.entered (before : Follows env key ts s l a) (call : Call)
    (idle : a.status (some id) = .idle) :
    ∃ m, (∀ act ∈ m, act.caller = some id) ∧
      Exec (Sequential env.sha256) (Atomic.start none) (l ++ m)
        (a.set (some id) (progress env.sha256 key (call.entry s.shared.now))) ∧
      history m = events key ⟨s, .called id call, s⟩ := by
  have ignored : a.set (some id) .idle = a := by
    rw [Atomic.set, ← idle, Function.update_eq_self]
  cases call with
  | get ip chain nonce difficulty duration =>
      by_cases here : keyOf ip chain = key
      · refine ⟨[.call (some id) (.get (candidate nonce s.shared.now difficulty duration))],
          by simp [Action.caller], ?_, by simp [events, here]⟩
        simp only [Call.entry, progress, if_pos here]
        exact before.exec.call _ idle
      · refine ⟨[], by simp, ?_, by simp [events, here]⟩
        simp only [Call.entry, progress, if_neg here, ignored, List.append_nil]
        exact before.exec
  | check claim =>
      by_cases here : claim.key = key
      · refine ⟨[.call (some id) (.check claim.solution)], by simp [Action.caller], ?_,
          by simp [events, here]⟩
        simp only [Call.entry, progress, if_pos here]
        exact before.exec.call _ idle
      · refine ⟨[], by simp, ?_, by simp [events, here]⟩
        simp only [Call.entry, progress, if_neg here, ignored, List.append_nil]
        exact before.exec

private theorem follows_called {call : Call} (before : Follows env key ts s l a)
    (fresh : id ∉ s.pool.map Prod.fst) :
    ∃ l' a', Follows env key
      (ts ++ [⟨s, .called id call, { s with pool := (id, call.entry s.shared.now) ::ₘ s.pool }⟩])
      { s with pool := (id, call.entry s.shared.now) ::ₘ s.pool } l' a' := by
  obtain ⟨m, own, exec, shown⟩ := before.entered call (before.absent id fresh)
  have differ {other : CallId} {pc : Pc} (member : (other, pc) ∈ s.pool) : other ≠ id := by
    rintro rfl
    exact fresh (Multiset.mem_map.mpr ⟨_, member, rfl⟩)
  refine ⟨_, _, exec, ?_, before.content, ?_, ?_, ?_, ?_⟩
  · rw [history_append, before.shown, historyOf_snoc, shown]
    rfl
  · rw [set_status_of_ne (by simp), before.task]
  · intro other away
    rw [Multiset.map_cons, Multiset.mem_cons, not_or] at away
    rw [set_status_of_ne (by simpa using away.1)]
    exact before.absent other away.2
  · intro other pc member
    rcases Multiset.mem_cons.mp member with same | old
    · obtain ⟨rfl, rfl⟩ := Prod.mk.inj same
      exact set_status_self _ _ _
    · rw [set_status_of_ne (by simpa using differ old)]
      exact before.present other pc old
  · intro other claim old member here
    rcases Multiset.mem_cons.mp member with same | earlier
    · cases call <;> simp [Call.entry] at same
    · refine (before.doomed other claim old earlier here).imp_right fun seen => seen.later ?_
      intro act member
      rw [own act member]
      simpa using Ne.symm (differ earlier)

/-- A removal takes no challenge that a `check_solution` of the key has read and not yet tried to
claim. -/
def Undisturbed (key : Key) (x : Transition State Label) : Prop :=
  ∀ entry bound, x.label = .task (.removed entry bound) → entry.key = key →
    ∀ id claim old, (id, .checkCas claim old) ∈ x.source.pool → claim.key = key →
      bound ≠ some old

private theorem Follows.aside {event : TaskEvent} {shared' : Shared} {task' : Task}
    (before : Follows env key ts s l a)
    (silent : events key ⟨s, .task event, ⟨shared', task', s.pool⟩⟩ = [])
    (same : shared'.challengeSet key = s.shared.challengeSet key) :
    Follows env key (ts ++ [⟨s, .task event, ⟨shared', task', s.pool⟩⟩])
      ⟨shared', task', s.pool⟩ l a := by
  refine ⟨before.exec, ?_, before.content.trans same.symm, before.task, before.absent,
    before.present, ?_⟩
  · rw [historyOf_snoc, silent, List.append_nil, before.shown]
  · intro id claim old member here
    exact (before.doomed id claim old member here).imp_left same.trans

theorem follows_task {event : TaskEvent} {shared' : Shared} {task' : Task}
    (before : Follows env key ts s l a) (run : PowRun env ts s)
    (action : TaskStep s.shared s.task event shared' task')
    (calm : Undisturbed key ⟨s, .task event, ⟨shared', task', s.pool⟩⟩) :
    ∃ l' a', Follows env key (ts ++ [⟨s, .task event, ⟨shared', task', s.pool⟩⟩])
      ⟨shared', task', s.pool⟩ l' a' := by
  have taken : Step env s (.task event) ⟨shared', task', s.pool⟩ := .task action
  cases action with
  | @removed entry _ _ bound _ removing done =>
      obtain ⟨found, rfl⟩ := FaucetApi.Lib.ConcurrentMap.remove_eq.mp done
      by_cases here : entry.key = key
      · subst here
        obtain ⟨c, rfl, _, due⟩ := removed_expired run taken
        have allowed : Sequential env.sha256 a.content (.evict s.shared.now) .evicted none := by
          rw [before.content, ← found]
          exact .evict due
        refine ⟨_, _, before.exec.instant before.task allowed, ?_, by simp, before.task,
          before.absent, before.present, ?_⟩
        · simp [before.shown, events]
        · intro id claim old member sameKey
          have seen := (before.doomed id claim old member sameKey).resolve_left fun stored =>
            calm entry _ rfl rfl id claim old member sameKey (found.trans stored)
          exact .inr (seen.later (by simp [Action.caller]))
      · exact ⟨l, a, before.aside (by simp [events, here])
          (Function.update_of_ne (Ne.symm here) _ _)⟩
  | _ => exact ⟨l, a, before.aside (by simp [events]) rfl⟩

theorem follows_run (run : PowRun env ts s) (calm : ∀ x ∈ ts, Undisturbed key x) :
    ∃ l a, Follows env key ts s l a := by
  induction run with
  | start init => exact ⟨_, _, follows_initial init⟩
  | @next ts s s' label prior taken ih =>
      obtain ⟨l, a, before⟩ := ih fun x member => calm x (List.mem_append_left _ member)
      have undisturbed := calm ⟨s, label, s'⟩ (List.mem_append_right _ List.mem_cons_self)
      cases taken with
      | clock =>
          refine ⟨l, a, before.exec, ?_, before.content, before.task, before.absent,
            before.present, before.doomed⟩
          simp [before.shown, events]
      | called fresh => exact follows_called before fresh
      | thread pool action => exact follows_thread before prior pool action
      | task action => exact follows_task before prior action undisturbed

/-- After the call `id` began there was a moment at which a claimed challenge was stored. -/
def ClaimedDuring (key : Key) (ts : Trace) (id : CallId) : Prop :=
  ∃ a y b c, ts = a ++ y :: b ∧ (∃ x ∈ a, ∃ call, x.label = .called id call) ∧
    y.source.shared.challengeSet key = some c ∧ c.claimed = true

theorem ClaimedDuring.grow (during : ClaimedDuring key ts id) :
    ClaimedDuring key (ts ++ [x]) id := by
  obtain ⟨a, y, b, c, rfl, began, stored⟩ := during
  exact ⟨a, y, b ++ [x], c, by simp, began, stored⟩

private theorem pool_called (run : PowRun env ts s) :
    ∀ id pc, (id, pc) ∈ s.pool → ∃ x ∈ ts, ∃ call, x.label = .called id call := by
  refine @thread_invariant env ts s
    (fun ts id _ => ∃ x ∈ ts, ∃ call, x.label = .called id call) run ?_ ?_ ?_
  · rintro ts x id pc ⟨y, member, began⟩
    exact ⟨y, List.mem_append_left _ member, began⟩
  · intro ts x id call label
    exact ⟨x, List.mem_append_right _ List.mem_cons_self, call, label⟩
  · rintro ts x id pc event sh' pc' ⟨y, member, began⟩ _ _
    exact ⟨y, List.mem_append_left _ member, began⟩

private theorem claimed_now {pc : Pc} {c : Challenge} (run : PowRun env ts s)
    (member : (id, pc) ∈ s.pool) (stored : s.shared.challengeSet key = some c)
    (claimed : c.claimed = true) (source : x.source = s) : ClaimedDuring key (ts ++ [x]) id :=
  ⟨ts, x, [], c, by simp, pool_called run id pc member, source ▸ stored, claimed⟩

private theorem about_to_swap {s' : State} {label : Label} {claim : Claim} {old : Challenge}
    (taken : Step env s label s') (member : (id, .checkCas claim old) ∈ s'.pool) :
    (id, .checkCas claim old) ∈ s.pool ∨ s'.shared.challengeSet claim.key = some old := by
  cases taken with
  | clock => exact .inl member
  | task _ => exact .inl member
  | @called _ call _ =>
      rcases Multiset.mem_cons.mp member with same | earlier
      · cases call <;> simp [Call.entry] at same
      · exact .inl earlier
  | thread pool action =>
      rcases Multiset.mem_cons.mp member with same | rest
      · cases action with
        | read ok =>
            obtain ⟨_, moved⟩ := Prod.mk.inj same
            obtain ⟨rfl, rfl⟩ := Pc.checkCas.inj moved
            exact .inr (checkRead_ok.mp ok).1
        | _ => simp at same
      · exact .inl (pool ▸ Multiset.mem_cons_of_mem rest)

private theorem claimed_during (run : PowRun env ts s) (calm : ∀ x ∈ ts, Undisturbed key x) :
    ∀ id claim old, (id, .checkCas claim old) ∈ s.pool → claim.key = key →
      s.shared.challengeSet key = some old ∨ ClaimedDuring key ts id ∨
        ∃ c, s.shared.challengeSet key = some c ∧ c.claimed = true := by
  induction run with
  | start init =>
      intro id claim old member
      simp [initial_pool init] at member
  | @next ts s s' label prior taken ih =>
      have before := ih fun x member => calm x (List.mem_append_left _ member)
      have undisturbed := calm ⟨s, label, s'⟩ (List.mem_append_right _ List.mem_cons_self)
      intro id claim old member here
      rcases about_to_swap taken member with earlier | stored
      swap
      · exact .inl (here ▸ stored)
      rcases before id claim old earlier here with stored | during | ⟨c, stored, claimed⟩
      · have effect := map_effect taken
        generalize after : s'.shared.challengeSet = m' at effect
        cases effect with
        | @installed _ ip chain _ absent =>
            refine .inl ?_
            rw [Function.update_of_ne, stored]
            rintro rfl
            simp [absent] at stored
        | @swapped _ claim' old' found =>
            by_cases same : key = claim'.key
            · subst same
              exact .inr (.inr ⟨old'.markClaimed, Function.update_self .., rfl⟩)
            · exact .inl (by rw [Function.update_of_ne same, stored])
        | @removed entry =>
            by_cases same : key = entry.key
            · subst same
              exact (undisturbed entry _ rfl rfl id claim old earlier here stored).elim
            · exact .inl (by rw [Function.update_of_ne same, stored])
        | same _ _ _ => exact .inl stored
      · exact .inr (.inl during.grow)
      · exact .inr (.inl (claimed_now prior earlier stored claimed rfl))

/-- In a run whose evictions disturb no `check_solution`, the operations on a key are linearizable,
and one that answers `AlreadyClaimed` has overlapped with a claimed challenge. -/
theorem slot_linearizable (key : Key) (run : PowRun env ts s)
    (calm : ∀ x ∈ ts, Undisturbed key x) :
    Linearizable (Sequential env.sha256) none (historyOf key ts) ∧
      ∀ a x b id claim, ts = a ++ x :: b → claim.key = key →
        (x.label = .thread id (.readRefused claim .alreadyClaimed) ∨
          x.label = .thread id (.swapRefused claim .alreadyClaimed)) →
        ClaimedDuring key (a ++ [x]) id := by
  refine ⟨?_, ?_⟩
  · obtain ⟨l, a, follows⟩ := follows_run run calm
    exact ⟨l, a, follows.exec, follows.shown⟩
  · rintro a ⟨source, label, target⟩ b id claim rfl here refusal
    have before := run.cut rfl
    have taken := run.step_at rfl
    rcases refusal with rfl | rfl
    · change Step env source _ target at taken
      cases taken with
      | thread pool action =>
          cases action with
          | readRefused failed =>
              have member := pool ▸ Multiset.mem_cons_self _ _
              rcases checkRead_error.mp failed with ⟨_, absent⟩ | ⟨c, stored, claimed, _⟩
              · simp at absent
              · exact claimed_now before member (here ▸ stored) claimed rfl
    · change Step env source _ target at taken
      cases taken with
      | thread pool action =>
          cases action with
          | swapRefused failed =>
              obtain ⟨moved, _, _⟩ := checkCas_error.mp failed
              have earlier := claimed_during before fun y member =>
                calm y (List.mem_append_left _ member)
              have member := pool ▸ Multiset.mem_cons_self _ _
              rcases earlier id claim _ member here with stored | during | ⟨c, stored, claimed⟩
              · exact (moved (here ▸ stored)).elim
              · exact during.grow
              · exact claimed_now before member stored claimed rfl

/-- The challenge is claimed, and evicted once no check of it is pending. -/
theorem slot_linearizable_nonvacuous : ∃ ts s, PowRun sampleEnv ts s ∧
    Did ts 1 (.hashed sampleClaim (.ok ())) ∧
    (∃ x ∈ ts, ∃ entry bound, x.label = .task (.removed entry bound) ∧
      entry.key = keyOf localIp .l1) ∧
    Linearizable (Sequential sampleEnv.sha256) none (historyOf (keyOf localIp .l1) ts) := by
  have begin : PowRun sampleEnv [] _ := .start ⟨0, 0, rfl⟩
  have get := begin.next
    (@Step.called _ _ 0 (.get localIp .l1 (Vector.replicate 16 7) 5 120) (by simp))
  have installed := get.next (.act (.installed (getCas_ok.mpr ⟨rfl, rfl, rfl⟩)))
  have pushed := installed.next (.act (.pushed rfl le_rfl))
  have loaded := pushed.next (.act (.loaded (by decide)))
  have sent := loaded.next (.act .sent)
  have claim := sent.next (@Step.called _ _ 1 (.check sampleClaim) (by simp))
  have read := claim.next (.act (.read (checkRead_ok.mpr ⟨rfl, rfl⟩)))
  have swapped := read.next (.act (.swapped (checkCas_ok.mpr ⟨rfl, rfl⟩)))
  have hashed := swapped.next (.act (.accepted (by decide)))
  have received := hashed.next (.evict (.received rfl rfl))
  have stored := received.next (.evict (.stored rfl))
  have later := stored.next (@Step.clock _ _ 120)
  have woke := later.next (.evict (.woke rfl (by decide)))
  have locked := woke.next (.evict (.locked rfl rfl))
  have popped := locked.next (.evict (.popped rfl (pop_last _) (by decide)))
  have stopped := popped.next (.evict (.stoppedEmpty rfl rfl))
  have removed := stopped.next (.evict (.removed rfl rfl))
  have linearizable := slot_linearizable (keyOf localIp .l1) removed (by
    refine snoc_forall (by simp [Undisturbed]) ?_
    rintro _ _ ⟨⟩ _ id claim old pending
    simp at pending)
  refine ⟨_, _, removed, ?_, ?_, linearizable.1⟩
  · simp [Did]
  · exact ⟨_, List.mem_append_right _ List.mem_cons_self, _, _, rfl, rfl⟩

def callers (shown : List (Event Caller Op Reply)) : List Caller :=
  shown.filterMap fun
    | .call id _ => some id
    | .ret _ _ => none

private theorem mem_callers {shown : List (Event Caller Op Reply)} {caller : Caller} {op : Op}
    (member : .call caller op ∈ shown) : caller ∈ callers shown :=
  List.mem_filterMap.mpr ⟨_, member, rfl⟩

private theorem checkHash_ne_alreadyClaimed
    {sha256 : Sha256} {old : Challenge} {solution : Solution} :
    checkHash sha256 old solution ≠ .error .alreadyClaimed := by
  unfold checkHash
  split <;> simp

private theorem refused_claimed {sha256 : Sha256} {stored after : Option Challenge} {op : Op}
    (allowed : Sequential sha256 stored op refused after) :
    ∃ c, stored = some c ∧ c.claimed = true := by
  generalize same : refused = reply at allowed
  cases allowed with
  | checkClaimed claimed => exact ⟨_, rfl, claimed⟩
  | checkOpen _ => exact (checkHash_ne_alreadyClaimed (Reply.result.inj same).symm).elim
  | checkAbsent => simp [refused] at same
  | _ => cases same

/-- The slot while `one` makes the only `check_solution`: nothing is claimed before it commits, so
it is not refused. -/
structure Unrivalled (one : Caller) (l : Schedule Caller Op Reply) (a : Slot) : Prop where
  called : ∀ caller op, a.status caller = .pending op → .call caller op ∈ history l
  accepted : a.status one ≠ .done refused
  unanswered : .ret one refused ∉ history l
  unclaimed : (one ∉ callers (history l) ∨ ∃ op, a.status one = .pending op) →
    ∀ c, a.content = some c → c.claimed = false

private theorem callers_append (shown shown' : List (Event Caller Op Reply)) :
    callers (shown ++ shown') = callers shown ++ callers shown' := List.filterMap_append

theorem Unrivalled.call {one caller : Caller} {op : Op} (before : Unrivalled one l a)
    (fresh : caller ∉ callers (history l)) :
    Unrivalled one (l ++ [.call caller op]) (a.set caller (.pending op)) := by
  refine ⟨fun other op' pending => ?_, ?_, by simpa using before.unanswered, fun free => ?_⟩
  · by_cases here : other = caller
    · subst here
      rw [set_status_self] at pending
      obtain rfl := Status.pending.inj pending
      simp
    · rw [set_status_of_ne here] at pending
      rw [history_append]
      exact List.mem_append_left _ (before.called other op' pending)
  · by_cases here : one = caller
    · rw [here, set_status_self]
      simp
    · rw [set_status_of_ne here]
      exact before.accepted
  · refine before.unclaimed ?_
    by_cases here : one = caller
    · exact .inl (here ▸ fresh)
    · rw [set_status_of_ne here, history_append, callers_append, List.mem_append, not_or] at free
      exact free.imp_left And.left

theorem Unrivalled.commit {one caller : Caller} {op : Op} {reply : Reply}
    {content' : Option Challenge} {sha256 : Sha256} (before : Unrivalled one l a)
    (pending : a.status caller = .pending op)
    (allowed : Sequential sha256 a.content op reply content')
    (offers : ∀ caller c, .call caller (.get c) ∈ history l → c.claimed = false)
    (alone : ∀ caller solution, .call caller (.check solution) ∈ history l → caller = one) :
    Unrivalled one (l ++ [.commit caller reply])
      ((Atomic.mk content' a.status).set caller (.done reply)) := by
  have asked := before.called caller op pending
  refine ⟨fun other op' pending' => ?_, ?_, by simpa using before.unanswered,
    fun free c stored => ?_⟩
  · by_cases here : other = caller
    · rw [here, set_status_self] at pending'
      simp at pending'
    · rw [set_status_of_ne here] at pending'
      simpa using before.called other op' pending'
  · by_cases here : one = caller
    · subst here
      rw [set_status_self]
      rintro same
      obtain rfl := Status.done.inj same
      obtain ⟨c, stored, claimed⟩ := refused_claimed allowed
      simp [before.unclaimed (.inr ⟨op, pending⟩) c stored] at claimed
    · rw [set_status_of_ne here]
      exact before.accepted
  · have other : one ≠ caller := by
      rintro rfl
      rcases free with away | ⟨op', pending'⟩
      · exact away (mem_callers (by simpa using asked))
      · rw [set_status_self] at pending'
        simp at pending'
    rw [set_status_of_ne other] at free
    have earlier := before.unclaimed (by simpa using free)
    generalize a.content = held at allowed earlier
    cases allowed with
    | getStored => exact earlier c stored
    | getNew =>
        obtain rfl := Option.some.inj stored
        exact offers caller _ asked
    | evict _ => simp at stored
    | _ => exact (other (alone caller _ asked).symm).elim

theorem Unrivalled.ret {one caller : Caller} {reply : Reply} (before : Unrivalled one l a)
    (done : a.status caller = .done reply) :
    Unrivalled one (l ++ [.ret caller reply]) (a.set caller .idle) := by
  refine ⟨fun other op' pending' => ?_, ?_, ?_, fun free => ?_⟩
  · by_cases here : other = caller
    · rw [here, set_status_self] at pending'
      simp at pending'
    · rw [set_status_of_ne here] at pending'
      rw [history_append]
      exact List.mem_append_left _ (before.called other op' pending')
  · by_cases here : one = caller
    · rw [here, set_status_self]
      simp
    · rw [set_status_of_ne here]
      exact before.accepted
  · rw [history_append, List.mem_append, not_or]
    refine ⟨before.unanswered, ?_⟩
    simp only [history_ret, history_nil, List.mem_singleton, Event.ret.injEq, not_and]
    rintro rfl rfl
    exact before.accepted done
  · refine before.unclaimed (free.imp ?_ ?_)
    · intro away
      simpa [callers] using away
    · rintro ⟨op', pending'⟩
      by_cases here : one = caller
      · rw [here, set_status_self] at pending'
        simp at pending'
      · exact ⟨op', by rwa [set_status_of_ne here] at pending'⟩

private theorem unrivalled (one : Caller) {sha256 : Sha256}
    (exec : Exec (Sequential sha256) (Atomic.start none) l a)
    (offers : ∀ caller c, .call caller (.get c) ∈ history l → c.claimed = false)
    (alone : ∀ caller solution, .call caller (.check solution) ∈ history l → caller = one)
    (once : (callers (history l)).Nodup) : Unrivalled one l a := by
  induction exec with
  | nil => exact ⟨by simp [Atomic.start], by simp [Atomic.start], by simp, by simp [Atomic.start]⟩
  | @snoc l a b act prior taken ih =>
      rw [history_append] at offers alone once
      rw [callers_append, List.nodup_append] at once
      have offers' := fun caller c member => offers caller c (List.mem_append_left _ member)
      have alone' := fun caller solution member =>
        alone caller solution (List.mem_append_left _ member)
      have before := ih offers' alone' once.1
      cases taken with
      | @call caller op _ =>
          have now : caller ∈ callers (history [Action.call caller op]) := by
            simp [callers]
          exact before.call fun known => once.2.2 caller known caller now rfl
      | commit pending allowed => exact before.commit pending allowed offers' alone'
      | ret done => exact before.ret done

private theorem unclaimed_without_swap (run : PowRun env ts s)
    (calm : ∀ id claim old, ¬ Did ts id (.swapped claim old)) :
    ∀ c, s.shared.challengeSet key = some c → c.claimed = false := by
  induction run with
  | start init =>
      obtain ⟨_, _, rfl⟩ := init
      simp
  | @next ts s s' label prior taken ih =>
      intro c stored
      have before := ih fun id claim old did => calm id claim old did.grow
      have effect := map_effect taken
      generalize s'.shared.challengeSet = m' at effect stored
      cases effect with
      | @installed id ip chain c' _ =>
          by_cases here : key = keyOf ip chain
          · rw [here, Function.update_self] at stored
            obtain rfl := Option.some.inj stored
            exact installed_unclaimed (prior.next taken) (did_snoc.mpr (.inr rfl))
          · rw [Function.update_of_ne here] at stored
            exact before c stored
      | swapped _ => exact (calm _ _ _ (did_snoc.mpr (.inr rfl))).elim
      | @removed entry =>
          by_cases here : key = entry.key
          · simp [here] at stored
          · rw [Function.update_of_ne here] at stored
            exact before c stored
      | same _ _ _ => exact before c stored

private theorem checkCas_absent {challengeSet : ChallengeSet} {old : Challenge}
    (absent : challengeSet key = none) :
    checkCas challengeSet key old = (.error .alreadyClaimed, challengeSet) :=
  checkCas_error.mpr ⟨by simp [absent], rfl, rfl⟩

private theorem raced_not_linearizable {sha256 : Sha256} {c : Challenge} {solution : Solution}
    {now : Instant} (unclaimed : c.claimed = false) :
    ¬ Linearizable (Sequential sha256) none [.call (some 0) (.get c),
      .ret (some 0) (.challenge c), .call (some 1) (.check solution), .call none (.evict now),
      .ret none .evicted, .ret (some 1) refused] := by
  rintro ⟨l, a, exec, shown⟩
  have lone := unrivalled (some 1) exec (by simp [shown, unclaimed]) (by simp [shown])
    (by simp [shown, callers])
  exact lone.unanswered (by simp [shown])

/-- The challenge expires and is removed between the read and the compare-and-swap of the only
`check_solution`, which then answers `AlreadyClaimed`. -/
theorem refused_unclaimed : ∃ ts s, PowRun sampleEnv ts s ∧
    ¬ Linearizable (Sequential sampleEnv.sha256) none (historyOf (keyOf localIp .l1) ts) ∧
    Did ts 1 (.swapRefused sampleClaim .alreadyClaimed) ∧
    ¬ ClaimedDuring (keyOf localIp .l1) ts 1 := by
  have begin : PowRun sampleEnv [] _ := .start ⟨0, 0, rfl⟩
  have get := begin.next
    (@Step.called _ _ 0 (.get localIp .l1 (Vector.replicate 16 7) 5 120) (by simp))
  have installed := get.next (.act (.installed (getCas_ok.mpr ⟨rfl, rfl, rfl⟩)))
  have pushed := installed.next (.act (.pushed rfl le_rfl))
  have loaded := pushed.next (.act (.loaded (by decide)))
  have sent := loaded.next (.act .sent)
  have received := sent.next (.evict (.received rfl rfl))
  have stored := received.next (.evict (.stored rfl))
  have claim := stored.next (@Step.called _ _ 1 (.check sampleClaim) (by simp))
  have read := claim.next (.act (.read (checkRead_ok.mpr ⟨rfl, rfl⟩)))
  have later := read.next (@Step.clock _ _ 120)
  dsimp only at later
  have woke := later.next (.evict (.woke rfl (by decide)))
  have locked := woke.next (.evict (.locked rfl rfl))
  have popped := locked.next (.evict (.popped rfl (pop_last _) (by decide)))
  have stopped := popped.next (.evict (.stoppedEmpty rfl rfl))
  have removed := stopped.next (.evict (.removed rfl rfl))
  have refusedSwap := removed.next (.act (.swapRefused (checkCas_absent rfl)))
  refine ⟨_, _, refusedSwap, raced_not_linearizable rfl, did_snoc.mpr (.inr rfl), ?_⟩
  rintro ⟨a, y, b, c, split, _, held, claimed⟩
  have unclaimed := unclaimed_without_swap (refusedSwap.cut split) (fun id claim old did => by
    have swapper : id ∈ doers swaps _ := mem_doers.mpr ⟨_, rfl, split ▸ did.of_prefix⟩
    exact List.not_mem_nil swapper) c held
  simp [unclaimed] at claimed

end FaucetApi.Pow.Linearization
