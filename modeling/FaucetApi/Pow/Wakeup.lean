/- module: FaucetApi/Pow/Wakeup
   layer: results
   digest: When the eviction task notices the entries of its heap, and a run in which it fails. -/

import FaucetApi.Pow.Rest
import FaucetApi.Pow.Tokens

set_option autoImplicit false
set_option relaxedAutoImplicit false

namespace FaucetApi.Pow.Wakeup

open FaucetApi.Lib.MaxHeap
open FaucetApi.Lib.Runs
open FaucetApi.Pow.Challenges
open FaucetApi.Pow.Eviction
open FaucetApi.Pow.Claims
open FaucetApi.Pow.Machine
open FaucetApi.Pow.Threads
open FaucetApi.Pow.Consumption
open FaucetApi.Pow.Rest
open FaucetApi.Pow.Tokens

variable {env : Env} {ts : Trace} {s : State} {id : CallId}

def millisecond : Duration := 1000000

def adding : Pc → Bool
  | .addPush _ _ _ => true
  | .addLoad _ _ _ => true
  | .addSend _ _ _ => true
  | _ => false

/-- The entry that an `add_challenge` has pushed and not yet dealt with. -/
def announcing : Pc → Option EvictionEntry
  | .addLoad ip chain c => some (entryOf ip chain c)
  | .addSend ip chain c => some (entryOf ip chain c)
  | _ => none

/-- The sleep or a message brings the task to an entry no later than a millisecond after it
expires. -/
def InTime (s : State) (entry : EvictionEntry) : Prop :=
  s.task.nextWakeup ≤ entry.expiresAt + millisecond ∨
    ∃ instant ∈ s.shared.evictionQ.iChangedTheWakeup, instant ≤ entry.expiresAt + millisecond

/-- Once every `add_challenge` is idle and the task is back in `select!`, it is in time for the
earliest entry of the heap. -/
def NoLostWakeup (s : State) : Prop :=
  s.task.pc = .waiting → (∀ call ∈ s.pool, adding call.2 = false) →
    ∀ entry, Peek s.shared.evictionQ.q entry → InTime s entry

/-- Once every `add_challenge` is idle and the task can take no step of its own, no challenge that
expired a millisecond ago is still stored. -/
def NothingLeftBehind (s : State) : Prop :=
  (∀ call ∈ s.pool, adding call.2 = false) → Stuck s.shared s.task →
    ∀ key c, s.shared.challengeSet key = some c → s.shared.now < c.expiresAt + millisecond

/-- The mirror is out of date for this entry: it is in the heap, the task sleeps or has just chosen
its deadline, and in whole milliseconds that deadline lies beyond the entry. -/
def HiddenBy (s : State) (entry : EvictionEntry) : Prop :=
  entry ∈ s.shared.evictionQ.q ∧ (s.task.pc = .waiting ∨ s.task.pc = .storing) ∧
    (entry.expiresAt < s.shared.evictionQ.start ∨
      s.shared.evictionQ.millis entry.expiresAt <
        (s.task.nextWakeup - s.shared.evictionQ.start) / millisecond)

/-- No `add_challenge` keeps silent on an out-of-date mirror. -/
def FreshLoad (x : Transition State Label) : Prop :=
  ∀ id ip chain c, x.label = .thread id (.loaded ip chain c false) →
    ¬ HiddenBy x.source (entryOf ip chain c)

/-- The task itself will come to the entry: its sleep ends in time, or it is about to look at the
heap, or it has looked and will wake for an entry that is not later. -/
def Attends (task : Task) (entry : EvictionEntry) : Prop :=
  match task.pc with
  | .waiting => task.nextWakeup ≤ entry.expiresAt + millisecond
  | .storing => task.nextWakeup ≤ entry.expiresAt + millisecond
  | .awake => True
  | .popping _ _ => True
  | .removing _ nextWakeup => ∃ instant, nextWakeup = some instant ∧ instant ≤ entry.expiresAt

def Noticed (s : State) (entry : EvictionEntry) : Prop :=
  (∃ call ∈ s.pool, announcing call.2 = some entry) ∨
    (∃ instant ∈ s.shared.evictionQ.iChangedTheWakeup,
      instant ≤ entry.expiresAt + millisecond) ∨ Attends s.task entry

structure Watch (s : State) : Prop where
  lock : s.shared.evictionQ.locked = s.task.pc.evicting
  /-- The lock keeps new entries out until the deadline found is the task's. -/
  looked : ∀ toExpire nextWakeup, s.task.pc = .removing toExpire nextWakeup →
    ∀ entry ∈ s.shared.evictionQ.q, Attends s.task entry
  noticed : ∀ entry ∈ s.shared.evictionQ.q, Noticed s entry

private theorem watch_initial (init : Initial s) : Watch s := by
  obtain ⟨_, _, rfl⟩ := init
  exact ⟨rfl, by simp, by simp [EvictionQueue.new]⟩

private theorem le_add_of_millis_le {start deadline expiresAt : ℕ} (after : start ≤ expiresAt)
    (whole : (deadline - start) / 1000000 ≤ (expiresAt - start) / 1000000) :
    deadline ≤ expiresAt + 1000000 := by
  omega

/-- A skipped message is not needed when the mirror is not out of date. -/
theorem attends_of_silent {entry : EvictionEntry} (watch : Watch s)
    (member : entry ∈ s.shared.evictionQ.q) (fresh : ¬ HiddenBy s entry) :
    Attends s.task entry := by
  have close : (s.task.pc = .waiting ∨ s.task.pc = .storing) →
      s.task.nextWakeup ≤ entry.expiresAt + millisecond := by
    intro pc
    simp only [HiddenBy, member, pc, true_and, not_or, not_lt] at fresh
    exact le_add_of_millis_le fresh.1 (fresh.2.trans (Nat.mod_le _ _))
  unfold Attends
  cases pc : s.task.pc with
  | waiting => exact close (.inl pc)
  | storing => exact close (.inr pc)
  | awake => trivial
  | popping _ _ => trivial
  | removing toExpire nextWakeup =>
      have looked := watch.looked _ _ pc entry member
      simpa [Attends, pc] using looked

private theorem noticed_of_pool {s' : State} {entry : EvictionEntry} (before : Noticed s entry)
    (channel : s.shared.evictionQ.iChangedTheWakeup ⊆ s'.shared.evictionQ.iChangedTheWakeup)
    (task : s'.task = s.task)
    (pool : ∀ call ∈ s.pool, announcing call.2 = some entry →
      ∃ call ∈ s'.pool, announcing call.2 = some entry) : Noticed s' entry := by
  rcases before with ⟨call, member, here⟩ | ⟨instant, sent, soon⟩ | attended
  · exact .inl (pool call member here)
  · exact .inr (.inl ⟨instant, channel sent, soon⟩)
  · exact .inr (.inr (task ▸ attended))

private theorem pool_moved {pc pc' : Pc} {rest : Multiset (CallId × Pc)} {entry : EvictionEntry}
    (own : announcing pc = some entry → announcing pc' = some entry) :
    ∀ call ∈ (id, pc) ::ₘ rest, announcing call.2 = some entry →
      ∃ call ∈ (id, pc') ::ₘ rest, announcing call.2 = some entry := by
  intro call member here
  rcases Multiset.mem_cons.mp member with rfl | other
  · exact ⟨(id, pc'), Multiset.mem_cons_self _ _, own here⟩
  · exact ⟨call, Multiset.mem_cons_of_mem other, here⟩

private theorem watch_thread {pc pc' : Pc} {rest : Multiset (CallId × Pc)} {event : ThreadEvent}
    {shared' : Shared} (watch : Watch s) (pool : s.pool = (id, pc) ::ₘ rest)
    (action : ThreadStep env id s.shared pc event shared' pc')
    (fresh : FreshLoad ⟨s, .thread id event, ⟨shared', s.task, (id, pc') ::ₘ rest⟩⟩) :
    Watch ⟨shared', s.task, (id, pc') ::ₘ rest⟩ := by
  cases action with
  | @pushed ip chain c unlocked _ =>
      have idle : s.task.pc.evicting = false := watch.lock ▸ unlocked
      refine ⟨watch.lock, ?_, fun entry member => ?_⟩
      · intro toExpire nextWakeup removing
        change s.task.pc = _ at removing
        simp [removing, TaskPc.evicting] at idle
      · rcases Multiset.mem_cons.mp member with rfl | old
        · exact .inl ⟨(id, .addLoad ip chain c), Multiset.mem_cons_self _ _, rfl⟩
        · exact noticed_of_pool (watch.noticed entry old) (fun _ sent => sent) rfl
            (by rw [pool]; exact pool_moved (by simp [announcing]))
  | @loadedLater ip chain c _ =>
      refine ⟨watch.lock, watch.looked, fun entry member => ?_⟩
      by_cases here : entryOf ip chain c = entry
      · subst here
        have attended := attends_of_silent watch member (fresh id ip chain c rfl)
        exact .inr (.inr attended)
      · exact noticed_of_pool (watch.noticed entry member) (fun _ sent => sent) rfl
          (by rw [pool]; exact pool_moved (by simp [announcing, here]))
  | @sent ip chain c =>
      refine ⟨watch.lock, watch.looked, fun entry member => ?_⟩
      by_cases here : entryOf ip chain c = entry
      · subst here
        exact .inr (.inl ⟨c.expiresAt, by simp [EvictionQueue.send], Nat.le_add_right _ _⟩)
      · exact noticed_of_pool (watch.noticed entry member) (List.subset_append_left _ _) rfl
          (by rw [pool]; exact pool_moved (by simp [announcing, here]))
  | _ =>
      refine ⟨watch.lock, watch.looked, fun entry member => ?_⟩
      exact noticed_of_pool (watch.noticed entry member) (fun _ sent => sent) rfl
        (by rw [pool]; exact pool_moved (fun own => own))

private theorem noticed_of_task {s' : State} {entry : EvictionEntry} (before : Noticed s entry)
    (pool : s'.pool = s.pool)
    (channel : s.shared.evictionQ.iChangedTheWakeup ⊆ s'.shared.evictionQ.iChangedTheWakeup)
    (task : Attends s.task entry → Attends s'.task entry) : Noticed s' entry := by
  rcases before with announced | ⟨instant, sent, soon⟩ | attended
  · exact .inl (pool ▸ announced)
  · exact .inr (.inl ⟨instant, channel sent, soon⟩)
  · exact .inr (.inr (task attended))

private theorem receive_spec (task : Task) (newWakeup : Instant) (waiting : task.pc = .waiting) :
    ((task.receive newWakeup).pc = .waiting ∨ (task.receive newWakeup).pc = .storing) ∧
      (task.receive newWakeup).nextWakeup ≤ newWakeup ∧
      (task.receive newWakeup).nextWakeup ≤ task.nextWakeup := by
  unfold Task.receive
  split
  · rename_i earlier
    exact ⟨.inr rfl, le_rfl, earlier.le⟩
  · rename_i later
    exact ⟨.inl waiting, not_lt.mp later, le_rfl⟩

private theorem attends_of_le {task : Task} {entry : EvictionEntry}
    (idle : task.pc = .waiting ∨ task.pc = .storing)
    (soon : task.nextWakeup ≤ entry.expiresAt + millisecond) : Attends task entry := by
  unfold Attends
  rcases idle with pc | pc <;> rw [pc] <;> exact soon

private theorem watch_task {event : TaskEvent} {shared' : Shared} {task' : Task} (watch : Watch s)
    (action : TaskStep s.shared s.task event shared' task') : Watch ⟨shared', task', s.pool⟩ := by
  cases action with
  | @received newWakeup later waiting nonempty =>
      obtain ⟨idle, arrival, lower⟩ := receive_spec s.task newWakeup waiting
      refine ⟨?_, ?_, fun entry member => ?_⟩
      · rcases idle with pc | pc <;> simp [watch.lock, waiting, pc, TaskPc.evicting]
      · rcases idle with pc | pc <;> simp [pc]
      · rcases watch.noticed entry member with announced | ⟨instant, sent, soon⟩ | attended
        · exact .inl announced
        · rw [nonempty] at sent
          rcases List.mem_cons.mp sent with rfl | still
          · exact .inr (.inr (attends_of_le idle (arrival.trans soon)))
          · exact .inr (.inl ⟨instant, still, soon⟩)
        · simp only [Attends, waiting] at attended
          exact .inr (.inr (attends_of_le idle (lower.trans attended)))
  | stored storing =>
      refine ⟨?_, by simp, fun entry member => ?_⟩
      · simp [watch.lock, storing, TaskPc.evicting]
      · exact noticed_of_task (watch.noticed entry member) rfl (fun _ sent => sent)
          (by simp [Attends, storing])
  | woke waiting _ =>
      refine ⟨?_, by simp, fun entry member => ?_⟩
      · simp [watch.lock, waiting, TaskPc.evicting]
      · exact noticed_of_task (watch.noticed entry member) rfl (fun _ sent => sent)
          (by simp [Attends])
  | locked _ _ =>
      refine ⟨rfl, by simp, fun entry member => ?_⟩
      exact noticed_of_task (watch.noticed entry member) rfl (fun _ sent => sent)
        (by simp [Attends])
  | popped popping pop _ =>
      refine ⟨?_, by simp, fun entry member => ?_⟩
      · simp [watch.lock, popping, TaskPc.evicting]
      · have old : entry ∈ s.shared.evictionQ.q := pop.2 ▸ Multiset.mem_cons_of_mem member
        exact noticed_of_task (watch.noticed entry old) rfl (fun _ sent => sent)
          (by simp [Attends])
  | @stoppedAt now toExpire first popping peek _ =>
      have ahead (entry : EvictionEntry) (member : entry ∈ s.shared.evictionQ.q) :
          Attends ⟨.removing toExpire (some first.expiresAt), s.task.nextWakeup⟩ entry :=
        ⟨_, rfl, peek_expires_first peek member⟩
      refine ⟨?_, fun _ _ _ => ahead, fun entry member => .inr (.inr (ahead entry member))⟩
      simp [watch.lock, popping, TaskPc.evicting]
  | @stoppedEmpty now toExpire popping empty =>
      refine ⟨?_, ?_, ?_⟩
      · simp [watch.lock, popping, TaskPc.evicting]
      · simp [empty]
      · simp [empty]
  | @removed entry toExpire wakeupTime bound challengeSet' removing done =>
      have ahead (entry : EvictionEntry) (member : entry ∈ s.shared.evictionQ.q) :
          Attends ⟨.removing toExpire wakeupTime, s.task.nextWakeup⟩ entry := by
        have before := watch.looked _ _ removing entry member
        simpa [Attends, removing] using before
      refine ⟨?_, fun _ _ _ => ahead, fun entry member => .inr (.inr (ahead entry member))⟩
      simp [watch.lock, removing, TaskPc.evicting]
  | @released wakeupTime removing =>
      refine ⟨rfl, by simp, fun entry member => .inr (.inr ?_)⟩
      have before := watch.looked _ _ removing entry member
      simp only [Attends, removing] at before
      obtain ⟨instant, rfl, soon⟩ := before
      exact soon.trans (Nat.le_add_right _ _)

theorem watch_step {s' : State} {l : Label} (watch : Watch s) (taken : Step env s l s')
    (fresh : FreshLoad ⟨s, l, s'⟩) : Watch s' := by
  cases taken with
  | clock => exact ⟨watch.lock, watch.looked, watch.noticed⟩
  | called _ =>
      refine ⟨watch.lock, watch.looked, fun entry member => ?_⟩
      exact noticed_of_pool (watch.noticed entry member) (fun _ sent => sent) rfl
        (fun call old here => ⟨call, Multiset.mem_cons_of_mem old, here⟩)
  | thread pool action => exact watch_thread watch pool action fresh
  | task action => exact watch_task watch action

theorem watch_run (run : PowRun env ts s) (fresh : ∀ x ∈ ts, FreshLoad x) : Watch s := by
  induction run with
  | start init => exact watch_initial init
  | next _ taken ih =>
      refine watch_step (ih fun x member => fresh x ?_) taken (fresh _ ?_)
      · exact List.mem_append_left _ member
      · exact List.mem_append_right _ List.mem_cons_self

private theorem adding_of_announcing {pc : Pc} {entry : EvictionEntry}
    (here : announcing pc = some entry) : adding pc = true := by
  cases pc with
  | addLoad _ _ _ => rfl
  | addSend _ _ _ => rfl
  | _ => cases here

private theorem adding_of_pendingEntry {pc : Pc} {entry : EvictionEntry}
    (pending : pendingEntry pc = some entry) : adding pc = true := by
  cases pc with
  | addPush _ _ _ => rfl
  | _ => cases pending

private theorem no_lost_wakeup_of_watch (watch : Watch s) : NoLostWakeup s := by
  intro waiting quiet entry peek
  rcases watch.noticed entry peek.1 with ⟨call, member, here⟩ | sent | attended
  · have idle := (quiet call member).symm.trans (adding_of_announcing here)
    exact absurd idle Bool.false_ne_true
  · exact .inr sent
  · simp only [Attends, waiting] at attended
    exact .inl attended

/-- With every `add_challenge` idle and the task in `select!`, a stored challenge has its token in
the heap. -/
theorem heap_token (run : PowRun env ts s) (quiet : ∀ call ∈ s.pool, adding call.2 = false)
    (waiting : s.task.pc = .waiting) {key : Key} {c : Challenge}
    (stored : s.shared.challengeSet key = some c) :
    ∃ entry ∈ s.shared.evictionQ.q, entry.expiresAt = c.expiresAt := by
  have none : s.pool.filterMap (fun call => pendingEntry call.2) = 0 := by
    refine Multiset.eq_zero_of_forall_notMem fun entry pending => ?_
    obtain ⟨call, member, here⟩ := (Multiset.mem_filterMap _ _).mp pending
    have idle := (quiet call member).symm.trans (adding_of_pendingEntry here)
    exact absurd idle Bool.false_ne_true
  have expiry : c.expiresAt ∈ expiries key (tokens s) := by
    rw [tokens_match_set run, stored]
    exact Multiset.mem_singleton_self _
  obtain ⟨entry, token, expires⟩ := Multiset.mem_map.mp expiry
  have held := (Multiset.mem_filter.mp token).1
  have inside : entry ∈ s.shared.evictionQ.q := by
    simpa [tokens, none, waiting, TaskPc.toExpire] using held
  exact ⟨entry, inside, expires⟩

private theorem nothing_left_behind_of_watch (run : PowRun env ts s) (watch : Watch s) :
    NothingLeftBehind s := by
  intro quiet stuck key c stored
  have rest := atRest_of_stuck watch.lock stuck
  obtain ⟨entry, inside, expires⟩ := heap_token run quiet rest.waiting stored
  have nonempty : s.shared.evictionQ.q ≠ 0 := by
    intro empty
    rw [empty] at inside
    exact Multiset.notMem_zero _ inside
  obtain ⟨top, peek⟩ := exists_peek nonempty
  rcases no_lost_wakeup_of_watch watch rest.waiting quiet top peek with soon | ⟨_, sent, _⟩
  · calc s.shared.now
      _ < s.task.nextWakeup := rest.asleep
      _ ≤ top.expiresAt + millisecond := soon
      _ ≤ entry.expiresAt + millisecond :=
          Nat.add_le_add_right (peek_expires_first peek inside) _
      _ = c.expiresAt + millisecond := by rw [expires]
  · simp [rest.silent] at sent

/-- In a run in which no `add_challenge` keeps silent on an out-of-date mirror, no wakeup is lost in
any state reached, and the task removes every expired challenge before it comes to rest. -/
theorem no_lost_wakeup (run : PowRun env ts s) (fresh : ∀ x ∈ ts, FreshLoad x) :
    NoLostWakeup s ∧ NothingLeftBehind s :=
  have watch := watch_run run fresh
  ⟨no_lost_wakeup_of_watch watch, nothing_left_behind_of_watch run watch⟩

def twoMinutes : Duration := 120 * 1000000000

private theorem quiet_pair {first second : CallId × Pc} (idle : adding first.2 = false)
    (idle' : adding second.2 = false) :
    ∀ call ∈ first ::ₘ second ::ₘ 0, adding call.2 = false := by
  simp [idle, idle']

private theorem exists_in_time (noLost : NoLostWakeup s) (waiting : s.task.pc = .waiting)
    (quiet : ∀ call ∈ s.pool, adding call.2 = false) (some : s.shared.evictionQ.q ≠ 0) :
    ∃ entry, Peek s.shared.evictionQ.q entry ∧ InTime s entry := by
  obtain ⟨entry, peek⟩ := exists_peek some
  exact ⟨entry, peek, noLost waiting quiet entry peek⟩

/-- A second client's entry is not announced, since the task wakes in time for it. -/
theorem no_lost_wakeup_nonvacuous : ∃ ts s entry, PowRun sampleEnv ts s ∧
    (∃ x ∈ ts, ∃ id ip chain c, x.label = .thread id (.loaded ip chain c false)) ∧
    Peek s.shared.evictionQ.q entry ∧ InTime s entry := by
  have begin : PowRun sampleEnv [] _ := .start ⟨0, 0, rfl⟩
  have get := begin.next
    (@Step.called _ _ 0 (.get localIp .l1 (Vector.replicate 16 7) 5 twoMinutes) (by simp))
  have installed := get.next (.act (.installed (getCas_ok.mpr ⟨rfl, rfl, rfl⟩)))
  have pushed := installed.next (.act (.pushed rfl le_rfl))
  have loaded := pushed.next (.act (.loaded (by decide)))
  have sent := loaded.next (.act .sent)
  have received := sent.next (.evict (.received rfl rfl))
  have stored := received.next (.evict (.stored rfl))
  have get' := stored.next
    (@Step.called _ _ 1 (.get peerIp .l1 (Vector.replicate 16 9) 5 twoMinutes) (by simp))
  have installed' := get'.next (.act (.installed (getCas_ok.mpr ⟨rfl, rfl, rfl⟩)))
  have pushed' := installed'.next (.act (.pushed rfl le_rfl))
  have silent := pushed'.next (.act (.loadedLater (by decide)))
  have fresh := no_lost_wakeup silent (by
    refine snoc_forall (by simp [FreshLoad]) ?_
    rintro _ _ _ _ ⟨⟩ ⟨_, _, late | late⟩
    · exact absurd late (by decide)
    · exact absurd late (by decide))
  obtain ⟨entry, peek, soon⟩ := exists_in_time fresh.1 rfl (quiet_pair rfl rfl) (by simp)
  refine ⟨_, _, entry, silent, ?_, peek, soon⟩
  exact ⟨_, List.mem_append_right _ List.mem_cons_self, 1, _, _, _, rfl⟩

/-- The last entry expires and the heap empties. The task chooses its far deadline, and before it
stores it another client's entry is pushed and compared with the old one. -/
theorem wakeup_lost : ∃ ts s, PowRun sampleEnv ts s ∧ ¬ NoLostWakeup s := by
  have begin : PowRun sampleEnv [] _ := .start ⟨0, 0, rfl⟩
  have get := begin.next
    (@Step.called _ _ 0 (.get localIp .l1 (Vector.replicate 16 7) 5 twoMinutes) (by simp))
  have installed := get.next (.act (.installed (getCas_ok.mpr ⟨rfl, rfl, rfl⟩)))
  have pushed := installed.next (.act (.pushed rfl le_rfl))
  have loaded := pushed.next (.act (.loaded (by decide)))
  have sent := loaded.next (.act .sent)
  have received := sent.next (.evict (.received rfl rfl))
  have stored := received.next (.evict (.stored rfl))
  have later := stored.next (@Step.clock _ _ twoMinutes)
  have woke := later.next (.evict (.woke rfl (by decide)))
  have locked := woke.next (.evict (.locked rfl rfl))
  have popped := locked.next (.evict (.popped rfl (pop_last _) (by decide)))
  have stopped := popped.next (.evict (.stoppedEmpty rfl rfl))
  have removed := stopped.next (.evict (.removed rfl rfl))
  have released := removed.next (.evict (.released rfl))
  have get' := released.next
    (@Step.called _ _ 1 (.get peerIp .l1 (Vector.replicate 16 9) 5 twoMinutes) (by simp))
  have installed' := get'.next (.act (.installed (getCas_ok.mpr ⟨rfl, rfl, rfl⟩)))
  have pushed' := installed'.next (.act (.pushed rfl (by decide)))
  have silent := pushed'.next (.act (.loadedLater (by decide)))
  have stored' := silent.next (.evict (.stored rfl))
  refine ⟨_, _, stored', fun noLost => ?_⟩
  rcases noLost rfl (quiet_pair rfl rfl) _ (pop_last _).1 with late | ⟨instant, sent, _⟩
  · exact absurd late (by decide)
  · exact (List.not_mem_nil sent).elim

end FaucetApi.Pow.Wakeup
