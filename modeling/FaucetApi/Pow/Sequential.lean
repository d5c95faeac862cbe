/- module: FaucetApi/Pow/Sequential
   layer: results
   digest: Handler calls without interference are the functions that their code reads as. -/

import FaucetApi.Lib.Simulation
import FaucetApi.Pow.Threads

set_option autoImplicit false
set_option relaxedAutoImplicit false

namespace FaucetApi.Pow.Sequential

open FaucetApi.Lib.Runs
open FaucetApi.Lib.Simulation
open FaucetApi.Lib.ConcurrentMap
open FaucetApi.Pow.Hash
open FaucetApi.Pow.Challenges
open FaucetApi.Pow.Eviction
open FaucetApi.Pow.Claims
open FaucetApi.Pow.Machine
open FaucetApi.Pow.Threads

/-- What a call gives back, and what it does to the shared state and to the payouts. -/
structure Outcome (α : Type) where
  result : α
  shared : Shared
  queued : List L1PayoutRequest
  sent : List TransactionRequest

def Outcome.unpaid {α : Type} (result : α) (sh : Shared) : Outcome α := ⟨result, sh, [], []⟩

def Outcome.map {α β : Type} (f : α → β) (outcome : Outcome α) : Outcome β :=
  { outcome with result := f outcome.result }

def addChallenge (sh : Shared) (ip : Ipv4Addr) (chain : Chain) (challenge : Challenge) : Shared :=
  let pushed := { sh with evictionQ := sh.evictionQ.push (entryOf ip chain challenge) }
  if pushed.evictionQ.mustWakeEarlier challenge then
    { pushed with evictionQ := pushed.evictionQ.send challenge.expiresAt }
  else pushed

/-- `Challenge::get` from its candidate on; `none` is one of its two `unreachable!`. -/
def offerChallenge (sh : Shared) (ip : Ipv4Addr) (chain : Chain) (challenge : Challenge) :
    Option (Challenge × Shared) :=
  match getCas sh.challengeSet (keyOf ip chain) challenge with
  | (.ok none, challengeSet') =>
      some (challenge, addChallenge { sh with challengeSet := challengeSet' } ip chain challenge)
  | (.error ⟨some found⟩, challengeSet') => some (found, { sh with challengeSet := challengeSet' })
  | _ => none

/-- `Challenge::get` on a clock with this last instant. Where `Instant::now() + challenge_duration`
is later than that, the addition panics. -/
def challengeGet (lastInstant : Instant) (sh : Shared) (ip : Ipv4Addr) (chain : Chain)
    (nonce : Nonce) (difficultyIfNotPresent : UInt8) (challengeDuration : Duration) :
    Option (Challenge × Shared) :=
  if lastInstant < sh.now + challengeDuration then none
  else offerChallenge sh ip chain (candidate nonce sh.now difficultyIfNotPresent challengeDuration)

section

variable (env : Env) (id : CallId)

/-- Either claim handler after `check_solution` has returned `Ok`; `sendTransaction` is the hash of
the L2 transaction, if it could be sent. -/
def settle (sendTransaction : Option String) (sh : Shared) : Claim → Outcome Answer
  | .l1 _ _ address =>
      match env.requireNetwork address with
      | none => .unpaid wrongNetwork sh
      | some checked => ⟨.ok "", sh, [⟨id, checked, env.l1AmountPerClaim⟩], []⟩
  | .l2 _ _ address =>
      match sendTransaction with
      | none => .unpaid sendError sh
      | some txid => ⟨.ok txid, sh, [], [l2Transaction env address]⟩

/-- Either claim handler once `check_solution` has returned. -/
def finish (sendTransaction : Option String) (sh : Shared) (claim : Claim) :
    Except CheckError Unit → Outcome Answer
  | .error e => .unpaid (refusal e) sh
  | .ok _ => settle env id sendTransaction sh claim

/-- Either claim handler, for an IPv4 client. -/
def claimFrom (sendTransaction : Option String) (sh : Shared) (claim : Claim) : Outcome Answer :=
  let (verdict, challengeSet') := checkSolution env.sha256 sh.challengeSet claim.key claim.solution
  finish env id sendTransaction { sh with challengeSet := challengeSet' } claim verdict

/-- The actions that a call takes one after the other, with nothing in between. -/
inductive Alone : Shared → Pc → List ThreadEvent → Shared → Pc → Prop
  | done {sh : Shared} {pc : Pc} : Alone sh pc [] sh pc
  | act {sh sh' sh'' : Shared} {pc pc' pc'' : Pc} {event : ThreadEvent}
      {events : List ThreadEvent} :
      ThreadStep env id sh pc event sh' pc' → Alone sh' pc' events sh'' pc'' →
      Alone sh pc (event :: events) sh'' pc''

end

def queuedBy : ThreadEvent → Option L1PayoutRequest
  | .queued _ request => some request
  | _ => none

def sentBy : ThreadEvent → Option TransactionRequest
  | .transferred _ transaction => some transaction
  | _ => none

def Outcome.after {α : Type} (event : ThreadEvent) (outcome : Outcome α) : Outcome α :=
  { outcome with
    queued := (queuedBy event).toList ++ outcome.queued
    sent := (sentBy event).toList ++ outcome.sent }

/-- A call that goes on alone from here can return in this way. -/
def Ends (env : Env) (id : CallId) (sh : Shared) (pc : Pc) (outcome : Outcome Pc) : Prop :=
  ∃ events, Alone env id sh pc events outcome.shared outcome.result ∧ stage outcome.result = 4 ∧
    events.filterMap queuedBy = outcome.queued ∧ events.filterMap sentBy = outcome.sent

/-- The eviction task does not hold the lock, and the queue has been created. -/
structure Free (sh : Shared) : Prop where
  unlocked : sh.evictionQ.locked = false
  started : sh.evictionQ.start ≤ sh.now

variable {env : Env} {id : CallId} {sh sh' : Shared} {pc pc' : Pc} {outcome : Outcome Pc}
variable {ip : Ipv4Addr} {chain : Chain} {c old : Challenge} {claim : Claim}

private theorem ends_returned (ended : stage pc = 4) :
    Ends env id sh pc outcome ↔ outcome = .unpaid pc sh := by
  constructor
  · rintro ⟨events, alone, _, queued, sent⟩
    cases alone with
    | done =>
        obtain ⟨result, shared, _, _⟩ := outcome
        subst queued sent
        rfl
    | act action _ => cases action <;> simp [stage] at ended
  · rintro rfl
    exact ⟨[], .done, ended, rfl, rfl⟩

private theorem filterMap_cons_toList {α β : Type} (f : α → Option β) (x : α) (l : List α) :
    (x :: l).filterMap f = (f x).toList ++ l.filterMap f := by
  cases kept : f x <;> simp [kept]

/-- A call that has not returned ends as one of its actions and the rest of the call make it end. -/
theorem ends_iff (before : stage pc < 4) : Ends env id sh pc outcome ↔
    ∃ event sh' pc' rest, ThreadStep env id sh pc event sh' pc' ∧ Ends env id sh' pc' rest ∧
      outcome = rest.after event := by
  constructor
  · rintro ⟨events, alone, ended, queued, sent⟩
    obtain ⟨result, shared, _, _⟩ := outcome
    cases alone with
    | done => exact absurd ended (Nat.ne_of_lt before)
    | act action later =>
        rw [filterMap_cons_toList] at queued sent
        subst queued sent
        exact ⟨_, _, _, ⟨result, shared, List.filterMap queuedBy _, List.filterMap sentBy _⟩,
          action, ⟨_, later, ended, rfl, rfl⟩, rfl⟩
  · rintro ⟨event, sh', pc', rest, action, ⟨events, later, ended, queued, sent⟩, rfl⟩
    refine ⟨event :: events, .act action later, ended, ?_, ?_⟩
    · rw [filterMap_cons_toList, queued]
      rfl
    · rw [filterMap_cons_toList, sent]
      rfl

private theorem ends_silent (before : stage pc < 4) (event : ThreadEvent)
    (action : ThreadStep env id sh pc event sh' pc') (unpaid : queuedBy event = none)
    (unsent : sentBy event = none)
    (only : ∀ event₁ sh₁ pc₁, ThreadStep env id sh pc event₁ sh₁ pc₁ →
      event₁ = event ∧ sh₁ = sh' ∧ pc₁ = pc') :
    Ends env id sh pc outcome ↔ Ends env id sh' pc' outcome := by
  have silent (rest : Outcome Pc) : rest.after event = rest := by
    simp [Outcome.after, unpaid, unsent]
  rw [ends_iff before]
  constructor
  · rintro ⟨event₁, sh₁, pc₁, rest, taken, later, rfl⟩
    obtain ⟨rfl, rfl, rfl⟩ := only _ _ _ taken
    rwa [silent]
  · intro later
    exact ⟨event, sh', pc', outcome, action, later, (silent outcome).symm⟩

/-! `Challenge::get`, position by position. -/

private theorem ends_addSend : Ends env id sh (.addSend ip chain c) outcome ↔
    outcome = .unpaid (.got ip chain c)
      { sh with evictionQ := sh.evictionQ.send c.expiresAt } := by
  rw [ends_silent (by simp [stage]) _ .sent rfl rfl, ends_returned rfl]
  intro event₁ sh₁ pc₁ action
  cases action
  exact ⟨rfl, rfl, rfl⟩

private theorem ends_addLoad : Ends env id sh (.addLoad ip chain c) outcome ↔
    outcome = .unpaid (.got ip chain c)
      (if sh.evictionQ.mustWakeEarlier c then
        { sh with evictionQ := sh.evictionQ.send c.expiresAt } else sh) := by
  split_ifs with earlier
  · rw [ends_silent (by simp [stage]) _ (.loaded earlier) rfl rfl, ends_addSend]
    intro event₁ sh₁ pc₁ action
    cases action with
    | loaded _ => exact ⟨rfl, rfl, rfl⟩
    | loadedLater later => simp [earlier] at later
  · rw [ends_silent (by simp [stage]) _ (.loadedLater (by simpa using earlier)) rfl rfl,
      ends_returned rfl]
    intro event₁ sh₁ pc₁ action
    cases action with
    | loaded now => exact absurd now earlier
    | loadedLater _ => exact ⟨rfl, rfl, rfl⟩

private theorem ends_addPush (free : Free sh) : Ends env id sh (.addPush ip chain c) outcome ↔
    outcome = .unpaid (.got ip chain c) (addChallenge sh ip chain c) := by
  rw [ends_silent (by simp [stage]) _ (.pushed free.unlocked free.started) rfl rfl, ends_addLoad]
  · rfl
  · intro event₁ sh₁ pc₁ action
    cases action
    exact ⟨rfl, rfl, rfl⟩

/-- The two ways of `Challenge::get`: neither is `unreachable!`. -/
theorem offerChallenge_cases (sh : Shared) (ip : Ipv4Addr) (chain : Chain) (c : Challenge) :
    (∃ challengeSet', getCas sh.challengeSet (keyOf ip chain) c = (.ok none, challengeSet') ∧
        offerChallenge sh ip chain c =
          some (c, addChallenge { sh with challengeSet := challengeSet' } ip chain c)) ∨
      ∃ found, getCas sh.challengeSet (keyOf ip chain) c =
          (.error ⟨some found⟩, sh.challengeSet) ∧
        offerChallenge sh ip chain c = some (found, sh) := by
  cases stored : sh.challengeSet (keyOf ip chain) with
  | none =>
      have swapped := getCas_ok (c := c).mpr ⟨stored, rfl, rfl⟩
      exact .inl ⟨_, swapped, by simp only [offerChallenge, swapped]⟩
  | some found =>
      have failed := getCas_error (c := c).mpr ⟨stored, rfl⟩
      exact .inr ⟨found, failed, by simp only [offerChallenge, failed]⟩

theorem challengeGet_eq_some {lastInstant : Instant} {nonce : Nonce} {difficulty : UInt8}
    {duration : Duration} {got : Challenge × Shared} :
    challengeGet lastInstant sh ip chain nonce difficulty duration = some got ↔
      sh.now + duration ≤ lastInstant ∧
        offerChallenge sh ip chain (candidate nonce sh.now difficulty duration) = some got := by
  unfold challengeGet
  split_ifs with late
  · simp [not_le.mpr late]
  · simp [not_lt.mp late]

theorem challengeGet_eq_none {lastInstant : Instant} {nonce : Nonce} {difficulty : UInt8}
    {duration : Duration} :
    challengeGet lastInstant sh ip chain nonce difficulty duration = none ↔
      lastInstant < sh.now + duration := by
  unfold challengeGet
  split_ifs with late
  · simp [late]
  · rcases offerChallenge_cases sh ip chain (candidate nonce sh.now difficulty duration) with
      ⟨_, _, offered⟩ | ⟨_, _, offered⟩ <;> simp [offered, late]

theorem ends_getCas (free : Free sh) : Ends env id sh (.getCas ip chain c) outcome ↔
    ∃ given sh', offerChallenge sh ip chain c = some (given, sh') ∧
      outcome = .unpaid (.got ip chain given) sh' := by
  rcases offerChallenge_cases sh ip chain c with
    ⟨challengeSet', swapped, offered⟩ | ⟨found, failed, offered⟩
  · rw [ends_silent (by simp [stage]) _ (.installed swapped) rfl rfl,
      ends_addPush (show Free { sh with challengeSet := challengeSet' } from
        ⟨free.unlocked, free.started⟩), offered]
    · simp
    · intro event₁ sh₁ pc₁ action
      cases action with
      | installed swapped' =>
          obtain ⟨_, rfl⟩ := Prod.mk.inj (swapped.symm.trans swapped')
          exact ⟨rfl, rfl, rfl⟩
      | found failed => simp [swapped] at failed
  · rw [ends_silent (by simp [stage]) _ (.found failed) rfl rfl, ends_returned rfl, offered]
    · simp
    · intro event₁ sh₁ pc₁ action
      cases action with
      | installed swapped => simp [failed] at swapped
      | found failed' =>
          obtain ⟨same, rfl⟩ := Prod.mk.inj (failed.symm.trans failed')
          cases same
          exact ⟨rfl, rfl, rfl⟩

/-! `check_solution` and the end of either claim handler, position by position. -/

private theorem ends_settle : Ends env id sh (.settle claim) outcome ↔
    ∃ sendTransaction,
      outcome = (settle env id sendTransaction sh claim).map (.answered claim) := by
  rw [ends_iff (by simp [stage])]
  constructor
  · rintro ⟨event, sh', pc', rest, action, later, rfl⟩
    cases action with
    | wrongNetwork refused =>
        obtain rfl := (ends_returned rfl).mp later
        exact ⟨none, by simp [settle, refused, Outcome.after, Outcome.map, Outcome.unpaid,
          queuedBy, sentBy]⟩
    | queued checked =>
        obtain rfl := (ends_returned rfl).mp later
        exact ⟨none, by simp [settle, checked, Outcome.after, Outcome.map, Outcome.unpaid,
          queuedBy, sentBy]⟩
    | @transferred _ _ _ txid =>
        obtain rfl := (ends_returned rfl).mp later
        exact ⟨some txid, rfl⟩
    | sendFailed =>
        obtain rfl := (ends_returned rfl).mp later
        exact ⟨none, rfl⟩
  · rintro ⟨sendTransaction, rfl⟩
    cases claim with
    | l1 ip solution address =>
        cases checked : env.requireNetwork address with
        | none =>
            refine ⟨_, _, _, _, .wrongNetwork checked, (ends_returned rfl).mpr rfl, ?_⟩
            simp [settle, checked, Outcome.after, Outcome.map, Outcome.unpaid, queuedBy, sentBy]
        | some address' =>
            refine ⟨_, _, _, _, .queued checked, (ends_returned rfl).mpr rfl, ?_⟩
            simp [settle, checked, Outcome.after, Outcome.map, Outcome.unpaid, queuedBy, sentBy]
    | l2 ip solution address =>
        cases sendTransaction with
        | none => exact ⟨_, _, _, _, .sendFailed, (ends_returned rfl).mpr rfl, rfl⟩
        | some txid =>
            exact ⟨_, _, _, _, @ThreadStep.transferred _ _ _ _ _ _ txid,
              (ends_returned rfl).mpr rfl, rfl⟩

private theorem ends_checkHash : Ends env id sh (.checkHash claim old) outcome ↔
    ∃ sendTransaction, outcome = (finish env id sendTransaction sh claim
      (checkHash env.sha256 old claim.solution)).map (.answered claim) := by
  cases verdict : checkHash env.sha256 old claim.solution with
  | error e =>
      rw [ends_silent (by simp [stage]) _ (.rejected verdict) rfl rfl, ends_returned rfl]
      · exact (exists_const _).symm
      · intro event₁ sh₁ pc₁ action
        cases action with
        | accepted solved => simp [verdict] at solved
        | rejected failed =>
            obtain rfl := Except.error.inj (verdict.symm.trans failed)
            exact ⟨rfl, rfl, rfl⟩
  | ok u =>
      rw [ends_silent (by simp [stage]) _ (.accepted verdict) rfl rfl, ends_settle]
      · rfl
      · intro event₁ sh₁ pc₁ action
        cases action with
        | accepted _ => exact ⟨rfl, rfl, rfl⟩
        | rejected failed => simp [verdict] at failed

theorem ends_checkRead : Ends env id sh (.checkRead claim) outcome ↔
    ∃ sendTransaction,
      outcome = (claimFrom env id sendTransaction sh claim).map (.answered claim) := by
  cases read : checkRead sh.challengeSet claim.key with
  | error e =>
      rw [ends_silent (by simp [stage]) _ (.readRefused read) rfl rfl, ends_returned rfl]
      · simp only [claimFrom, checkSolution, read]
        exact (exists_const _).symm
      · intro event₁ sh₁ pc₁ action
        cases action with
        | readRefused refused =>
            obtain rfl := Except.error.inj (read.symm.trans refused)
            exact ⟨rfl, rfl, rfl⟩
        | read found => simp [read] at found
  | ok old =>
      have swapped := checkCas_ok.mpr ⟨(checkRead_ok.mp read).1, rfl⟩
      rw [ends_silent (by simp [stage]) _ (.read read) rfl rfl,
        ends_silent (by simp [stage]) _ (.swapped swapped) rfl rfl, ends_checkHash]
      · apply exists_congr
        intro sendTransaction
        simp only [claimFrom, checkSolution, read, swapped]
      · intro event₁ sh₁ pc₁ action
        cases action with
        | swapped swapped' =>
            obtain ⟨_, rfl⟩ := Prod.mk.inj (swapped.symm.trans swapped')
            exact ⟨rfl, rfl, rfl⟩
        | swapRefused refused => simp [swapped] at refused
      · intro event₁ sh₁ pc₁ action
        cases action with
        | readRefused refused => simp [read] at refused
        | read found =>
            obtain rfl := Except.ok.inj (read.symm.trans found)
            exact ⟨rfl, rfl, rfl⟩

/-! A call that is alone, as a stretch of the machine, in which nothing but its steps occur. -/

theorem Alone.snoc {sh'' : Shared} {pc'' : Pc} {event : ThreadEvent} {events : List ThreadEvent}
    (alone : Alone env id sh pc events sh' pc')
    (action : ThreadStep env id sh' pc' event sh'' pc'') :
    Alone env id sh pc (events ++ [event]) sh'' pc'' := by
  induction alone with
  | done => exact .act action .done
  | act first _ ih => exact .act first (ih action)

theorem Alone.stretch {events : List ThreadEvent} (alone : Alone env id sh pc events sh' pc')
    (task : Task) (rest : Multiset (CallId × Pc)) :
    ∃ b, Stretch (Step env) ⟨sh, task, (id, pc) ::ₘ rest⟩ b ⟨sh', task, (id, pc') ::ₘ rest⟩ ∧
      b.map Transition.label = events.map (Label.thread id) := by
  induction alone with
  | done => exact ⟨[], .start rfl, rfl⟩
  | act action _ ih =>
      obtain ⟨b, later, own⟩ := ih
      exact ⟨_, continued (.next (.start rfl) (.act action)) later, by simp [own]⟩

theorem cons_inj_of_fresh {rest rest' : Multiset (CallId × Pc)}
    (fresh : id ∉ rest.map Prod.fst) (same : (id, pc) ::ₘ rest = (id, pc') ::ₘ rest') :
    pc' = pc ∧ rest' = rest := by
  have member : (id, pc') ∈ (id, pc) ::ₘ rest := same ▸ Multiset.mem_cons_self _ _
  rcases Multiset.mem_cons.mp member with here | there
  · obtain rfl := (Prod.mk.inj here).2
    exact ⟨rfl, (Multiset.cons_inj_right _).mp same.symm⟩
  · exact (fresh (Multiset.mem_map_of_mem Prod.fst there)).elim

theorem alone_of_stretch {task : Task} {rest : Multiset (CallId × Pc)} {b : Trace} {s : State}
    {events : List ThreadEvent} (fresh : id ∉ rest.map Prod.fst)
    (later : Stretch (Step env) ⟨sh, task, (id, pc) ::ₘ rest⟩ b s)
    (own : b.map Transition.label = events.map (Label.thread id)) :
    ∃ sh' pc', s = ⟨sh', task, (id, pc') ::ₘ rest⟩ ∧ Alone env id sh pc events sh' pc' := by
  induction later generalizing events with
  | start same =>
      obtain rfl := List.map_eq_nil_iff.mp own.symm
      exact ⟨sh, pc, same, .done⟩
  | next prior taken ih =>
      rw [List.map_append, eq_comm, List.map_eq_append_iff] at own
      obtain ⟨earlier, last, rfl, own, here⟩ := own
      obtain ⟨event, rfl, label⟩ := List.map_eq_singleton_iff.mp here
      obtain ⟨sh₁, pc₁, rfl, alone⟩ := ih own.symm
      subst label
      cases taken with
      | thread pool action =>
          obtain ⟨rfl, rfl⟩ := cons_inj_of_fresh fresh pool
          exact ⟨_, _, rfl, alone.snoc action⟩

end FaucetApi.Pow.Sequential
