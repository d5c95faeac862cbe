/- module: FaucetApi/Pow/Windows
   layer: results
   digest: Between two removals of a key all calls agree on one challenge, installed once. -/

import FaucetApi.Pow.Tokens
import Mathlib.Data.List.Induction

set_option autoImplicit false
set_option relaxedAutoImplicit false

namespace FaucetApi.Pow.Windows

open FaucetApi.Lib.Runs
open FaucetApi.Pow.Challenges
open FaucetApi.Pow.Eviction
open FaucetApi.Pow.Claims
open FaucetApi.Pow.Machine
open FaucetApi.Pow.Threads
open FaucetApi.Pow.Consumption
open FaucetApi.Pow.Tokens

variable {env : Env} {ts a w b : Trace} {s s' : State} {l : Label} {id : CallId} {key : Key}

def Removes (key : Key) (l : Label) : Prop :=
  ∃ entry bound, l = .task (.removed entry bound) ∧ entry.key = key

/-- `w` lies between two consecutive removals of the key, before its first or after its last one. -/
structure Window (key : Key) (a w b : Trace) : Prop where
  opened : a = [] ∨ ∃ a' y, a = a' ++ [y] ∧ Removes key y.label
  inside : ∀ x ∈ w, ¬ Removes key x.label
  closed : b = [] ∨ ∃ y b', b = y :: b' ∧ Removes key y.label

def SameChallenge (c c' : Challenge) : Prop :=
  c.nonce = c'.nonce ∧ c.difficulty = c'.difficulty ∧ c.expiresAt = c'.expiresAt

/-- The challenge that a compare-and-swap installed, found or marked, and its key. -/
def casAt : Label → Option (Key × Challenge)
  | .thread _ (.installed ip chain c) => some (keyOf ip chain, c)
  | .thread _ (.found ip chain c) => some (keyOf ip chain, c)
  | .thread _ (.swapped claim old) => some (claim.key, old)
  | _ => none

def installerOf (key : Key) : Label → Option CallId
  | .thread id (.installed ip chain _) => if keyOf ip chain = key then some id else none
  | _ => none

def pusherOf (key : Key) : Label → Option CallId
  | .thread id (.pushed entry) => if entry.key = key then some id else none
  | _ => none

def installersIn (key : Key) (w : Trace) : List CallId :=
  w.filterMap (fun x => installerOf key x.label)

def pushersIn (key : Key) (w : Trace) : List CallId := w.filterMap (fun x => pusherOf key x.label)

private theorem installersIn_snoc (x : Transition State Label) :
    installersIn key (w ++ [x]) = installersIn key w ++ (installerOf key x.label).toList :=
  filterMap_snoc _ w x

private theorem pushersIn_snoc (x : Transition State Label) :
    pushersIn key (w ++ [x]) = pushersIn key w ++ (pusherOf key x.label).toList :=
  filterMap_snoc _ w x

private theorem installerOf_eq_some : installerOf key l = some id ↔
    ∃ ip chain c, l = .thread id (.installed ip chain c) ∧ keyOf ip chain = key := by
  unfold installerOf
  split
  · split_ifs with here
    · constructor
      · intro same
        exact ⟨_, _, _, by rw [Option.some.inj same], here⟩
      · rintro ⟨_, _, _, same, _⟩
        rw [(Label.thread.inj same).1]
    · simp only [false_iff, not_exists, not_and]
      rintro ip chain c same
      obtain ⟨_, event⟩ := Label.thread.inj same
      obtain ⟨rfl, rfl, _⟩ := ThreadEvent.installed.inj event
      exact here
  · rename_i other
    simp only [reduceCtorEq, false_iff, not_exists, not_and]
    intro ip chain c same
    exact (other _ _ _ _ same).elim

private theorem pusherOf_eq_some : pusherOf key l = some id ↔
    ∃ entry, l = .thread id (.pushed entry) ∧ entry.key = key := by
  unfold pusherOf
  split
  · split_ifs with here
    · constructor
      · intro same
        exact ⟨_, by rw [Option.some.inj same], here⟩
      · rintro ⟨_, same, _⟩
        rw [(Label.thread.inj same).1]
    · simp only [false_iff, not_exists, not_and]
      rintro entry same
      obtain ⟨_, event⟩ := Label.thread.inj same
      obtain rfl := ThreadEvent.pushed.inj event
      exact here
  · rename_i other
    simp only [reduceCtorEq, false_iff, not_exists, not_and]
    intro entry same
    exact (other _ _ same).elim

/-! Which calls have installed a challenge under the key and not yet pushed its entry. -/

def Pending (s : State) (key : Key) (id : CallId) : Prop :=
  ∃ ip chain c, (id, Pc.addPush ip chain c) ∈ s.pool ∧ keyOf ip chain = key

theorem Pending.token (pending : Pending s key id) :
    ∃ entry ∈ tokens s, entry.key = key := by
  obtain ⟨ip, chain, c, here, rfl⟩ := pending
  refine ⟨entryOf ip chain c, Multiset.mem_add.mpr (.inr ?_), rfl⟩
  exact (Multiset.mem_filterMap _ _).mpr ⟨_, here, rfl⟩

private theorem not_pending_of_unbound (run : PowRun env ts s)
    (unbound : s.shared.challengeSet key = none) : ¬ Pending s key id := by
  intro pending
  obtain ⟨entry, token, same⟩ := pending.token
  have held := tokens_match_set run key
  rw [unbound, boundExpiry, expiries, Multiset.map_eq_zero] at held
  have listed : entry ∈ (tokens s).filter (fun entry => entry.key = key) :=
    Multiset.mem_filter.mpr ⟨token, same⟩
  rw [held] at listed
  exact Multiset.notMem_zero _ listed

theorem token_expiry (run : PowRun env ts s) {c : Challenge} {entry : EvictionEntry}
    (stored : s.shared.challengeSet key = some c) (token : entry ∈ tokens s)
    (same : entry.key = key) : entry.expiresAt = c.expiresAt := by
  have listed : entry.expiresAt ∈ expiries key (tokens s) :=
    Multiset.mem_map_of_mem _ (Multiset.mem_filter.mpr ⟨token, same⟩)
  rw [tokens_match_set run, stored] at listed
  exact Multiset.mem_singleton.mp listed

theorem pending_step (run : PowRun env ts s) (taken : Step env s l s') :
    Pending s' key id ↔
      installerOf key l = some id ∨ (Pending s key id ∧ pusherOf key l ≠ some id) := by
  cases taken with
  | clock => simp [Pending, installerOf, pusherOf]
  | task _ => simp [Pending, installerOf, pusherOf]
  | @called caller call _ =>
      have not_push : ∀ ip chain c, call.entry s.shared.now ≠ Pc.addPush ip chain c := by
        intro ip chain c
        cases call <;> simp [Call.entry]
      simp [Pending, installerOf, pusherOf, (not_push _ _ _).symm]
  | @thread caller pc pc' rest event shared' pool action =>
      have apart : ∀ ip chain c, (caller, Pc.addPush ip chain c) ∉ rest := by
        intro ip chain c member
        exact rest_id_ne run pool member rfl
      cases action with
      | @installed ip chain c challengeSet' _ =>
          simp only [Pending, pool, Multiset.mem_cons, installerOf, pusherOf, Prod.mk.injEq,
            reduceCtorEq, and_false, false_or, ne_eq, not_false_eq_true, and_true]
          constructor
          · rintro ⟨ip', chain', c', ⟨rfl, same⟩ | other, here⟩
            · obtain ⟨rfl, rfl, rfl⟩ := Pc.addPush.inj same
              exact .inl (by rw [if_pos here])
            · exact .inr ⟨ip', chain', c', other, here⟩
          · rintro (installed | ⟨ip', chain', c', other, here⟩)
            · split_ifs at installed with here
              exact ⟨ip, chain, c, .inl ⟨(Option.some.inj installed).symm, rfl⟩, here⟩
            · exact ⟨ip', chain', c', .inr other, here⟩
      | @pushed ip chain c _ _ =>
          simp only [Pending, pool, Multiset.mem_cons, installerOf, pusherOf, Prod.mk.injEq,
            reduceCtorEq, and_false, false_or, ne_eq, entryOf_key]
          constructor
          · rintro ⟨ip', chain', c', other, here⟩
            refine ⟨⟨ip', chain', c', .inr other, here⟩, ?_⟩
            intro pushed
            by_cases same : keyOf ip chain = key
            · obtain rfl := Option.some.inj ((if_pos same).symm.trans pushed)
              exact apart _ _ _ other
            · cases (if_neg same).symm.trans pushed
          · rintro ⟨⟨ip', chain', c', ⟨rfl, same⟩ | other, here⟩, unpushed⟩
            · obtain ⟨rfl, rfl, rfl⟩ := Pc.addPush.inj same
              exact (unpushed (if_pos here)).elim
            · exact ⟨ip', chain', c', other, here⟩
      | _ => simp [Pending, pool, installerOf, pusherOf]

/-- What has happened in a window so far. -/
inductive InWindow (key : Key) (w : Trace) (s : State) : Prop
  | unused :
      s.shared.challengeSet key = none → (∀ x ∈ w, ∀ c, casAt x.label ≠ some (key, c)) →
      installersIn key w = [] → pushersIn key w = [] → InWindow key w s
  | held {c : Challenge} {g : CallId} :
      s.shared.challengeSet key = some c →
      (∀ x ∈ w, ∀ c', casAt x.label = some (key, c') → SameChallenge c' c) →
      installersIn key w = [g] → (pushersIn key w = [] ∨ pushersIn key w = [g]) →
      (∀ id, Pending s key id ↔ id = g ∧ pushersIn key w = []) →
      (∀ x ∈ w, ∀ id entry, x.label = .thread id (.pushed entry) → entry.key = key →
        entry.expiresAt = c.expiresAt) → InWindow key w s

private theorem casAt_stored
    {c : Challenge} (taken : Step env s l s') (seen : casAt l = some (key, c)) :
    s.shared.challengeSet key = some c ∨
      (s.shared.challengeSet key = none ∧ s'.shared.challengeSet key = some c ∧
        ∃ id, installerOf key l = some id) := by
  cases taken with
  | clock => cases seen
  | called _ => cases seen
  | task _ => cases seen
  | thread _ action =>
      cases action with
      | installed tried =>
          obtain ⟨rfl, rfl⟩ := Prod.mk.inj (Option.some.inj seen)
          obtain ⟨absent, _, rfl⟩ := getCas_ok.mp tried
          exact .inr ⟨absent, Function.update_self _ _ _, _, if_pos rfl⟩
      | found tried =>
          obtain ⟨rfl, rfl⟩ := Prod.mk.inj (Option.some.inj seen)
          exact .inl (getCas_error.mp tried).1
      | swapped tried =>
          obtain ⟨rfl, rfl⟩ := Prod.mk.inj (Option.some.inj seen)
          exact .inl (checkCas_ok.mp tried).1
      | _ => cases seen

theorem stored_step {c : Challenge} (taken : Step env s l s') (quiet : ¬ Removes key l)
    (stored : s.shared.challengeSet key = some c) :
    ∃ c', s'.shared.challengeSet key = some c' ∧ SameChallenge c c' := by
  have map := map_effect taken
  generalize s'.shared.challengeSet = m' at map
  cases map with
  | @installed id ip chain c' absent =>
      refine ⟨c, ?_, rfl, rfl, rfl⟩
      rw [Function.update_of_ne, stored]
      rintro rfl
      simp [absent] at stored
  | @swapped id claim old found =>
      by_cases here : key = claim.key
      · subst here
        obtain rfl := Option.some.inj (stored.symm.trans found)
        exact ⟨c.markClaimed, Function.update_self _ _ _, rfl, rfl, rfl⟩
      · exact ⟨c, by rw [Function.update_of_ne here, stored], rfl, rfl, rfl⟩
  | @removed entry =>
      have elsewhere : key ≠ entry.key := fun same => quiet ⟨entry, _, rfl, same.symm⟩
      exact ⟨c, by rw [Function.update_of_ne elsewhere, stored], rfl, rfl, rfl⟩
  | same _ _ _ => exact ⟨c, stored, rfl, rfl, rfl⟩

private theorem unbound_step (taken : Step env s l s') (nothing : installerOf key l = none)
    (unbound : s.shared.challengeSet key = none) : s'.shared.challengeSet key = none := by
  have map := map_effect taken
  generalize s'.shared.challengeSet = m' at map
  cases map with
  | @installed id ip chain c' _ =>
      rw [Function.update_of_ne, unbound]
      rintro rfl
      simp [installerOf] at nothing
  | @swapped id claim old found =>
      rw [Function.update_of_ne, unbound]
      rintro rfl
      simp [unbound] at found
  | @removed entry =>
      by_cases here : key = entry.key
      · rw [here, Function.update_self]
      · rw [Function.update_of_ne here, unbound]
  | same _ _ _ => exact unbound

private theorem removed_unbound (taken : Step env s l s') (removes : Removes key l) :
    s'.shared.challengeSet key = none := by
  obtain ⟨entry, bound, rfl, rfl⟩ := removes
  have map := map_effect taken
  generalize s'.shared.challengeSet = m' at map
  cases map with
  | removed => exact Function.update_self _ _ _
  | same _ _ noRemove => exact (noRemove _ _ rfl).elim

private theorem pushed_pending (taken : Step env s l s') (pushed : pusherOf key l = some id) :
    Pending s key id := by
  obtain ⟨entry, rfl, rfl⟩ := pusherOf_eq_some.mp pushed
  cases taken with
  | thread pool action =>
      cases action with
      | pushed _ _ => exact ⟨_, _, _, pool ▸ Multiset.mem_cons_self _ _, rfl⟩

theorem SameChallenge.trans {c c' c'' : Challenge} (first : SameChallenge c c')
    (second : SameChallenge c' c'') : SameChallenge c c'' :=
  ⟨first.1.trans second.1, first.2.1.trans second.2.1, first.2.2.trans second.2.2⟩

private theorem installerOf_absent (taken : Step env s l s')
    (installs : installerOf key l = some id) :
    s.shared.challengeSet key = none := by
  obtain ⟨ip, chain, c, rfl, rfl⟩ := installerOf_eq_some.mp installs
  exact installed_absent taken

private theorem no_push_of_pushersIn (nobody : pushersIn key w = []) :
    ∀ x ∈ w, ∀ id entry, x.label = .thread id (.pushed entry) → entry.key ≠ key := by
  intro x member id entry pushed here
  have listed : id ∈ pushersIn key w :=
    List.mem_filterMap.mpr ⟨x, member, pusherOf_eq_some.mpr ⟨entry, pushed, here⟩⟩
  simp [nobody] at listed

private theorem in_window_installed (run : PowRun env ts s) (taken : Step env s l s')
    (installs : installerOf key l = some id) (unbound : s.shared.challengeSet key = none)
    (unseen : ∀ x ∈ w, ∀ c, casAt x.label ≠ some (key, c)) (nobody : installersIn key w = [])
    (unpushed : pushersIn key w = []) :
    InWindow key (w ++ [⟨s, l, s'⟩]) s' := by
  obtain ⟨ip, chain, c, rfl, here⟩ := installerOf_eq_some.mp installs
  have pushers : pushersIn key (w ++ [⟨s, .thread id (.installed ip chain c), s'⟩]) = [] := by
    rw [pushersIn_snoc, unpushed]
    rfl
  have stored : s'.shared.challengeSet key = some c := by
    rcases casAt_stored taken (show casAt _ = some (key, c) by rw [← here]; rfl) with old | new
    · simp [unbound] at old
    · exact new.2.1
  refine .held stored ?_ ?_ (g := id) (.inl pushers) ?_ ?_
  · refine snoc_forall (fun x member c' seen => (unseen x member c' seen).elim) ?_
    intro c' seen
    obtain rfl := (Prod.mk.inj (Option.some.inj seen)).2
    exact ⟨rfl, rfl, rfl⟩
  · rw [installersIn_snoc, nobody, installs]
    rfl
  · intro id'
    rw [pending_step run taken, installs, pushers]
    simp [not_pending_of_unbound run unbound, eq_comm]
  · refine snoc_forall (fun x member id entry pushed same => ?_) (by simp)
    exact (no_push_of_pushersIn unpushed x member id entry pushed same).elim

private theorem in_window_kept (run : PowRun env ts s) (taken : Step env s l s')
    (quiet : ¬ Removes key l) {c : Challenge} {g : CallId}
    (stored : s.shared.challengeSet key = some c)
    (agree : ∀ x ∈ w, ∀ c', casAt x.label = some (key, c') → SameChallenge c' c)
    (installer : installersIn key w = [g])
    (pushers : pushersIn key w = [] ∨ pushersIn key w = [g])
    (pending : ∀ id, Pending s key id ↔ id = g ∧ pushersIn key w = [])
    (entries : ∀ x ∈ w, ∀ id entry, x.label = .thread id (.pushed entry) → entry.key = key →
      entry.expiresAt = c.expiresAt) : InWindow key (w ++ [⟨s, l, s'⟩]) s' := by
  obtain ⟨c', stored', same⟩ := stored_step taken quiet stored
  have nobody : installerOf key l = none := by
    cases installs : installerOf key l with
    | none => rfl
    | some id => simp [installerOf_absent taken installs] at stored
  refine .held stored' ?_ (g := g) ?_ ?_ ?_ ?_
  · refine snoc_forall (fun x member c'' seen => (agree x member c'' seen).trans same) ?_
    intro c'' seen
    rcases casAt_stored taken seen with old | ⟨absent, _⟩
    · obtain rfl := Option.some.inj (stored.symm.trans old)
      exact same
    · simp [absent] at stored
  · rw [installersIn_snoc, installer, nobody]
    rfl
  · rw [pushersIn_snoc]
    cases pushes : pusherOf key l with
    | none => simpa using pushers
    | some id =>
        obtain ⟨rfl, unpushed⟩ := (pending id).mp (pushed_pending taken pushes)
        exact .inr (by simp [unpushed])
  · intro id
    rw [pending_step run taken, nobody, pending, pushersIn_snoc]
    cases pushes : pusherOf key l with
    | none => simp
    | some id' =>
        obtain ⟨rfl, _⟩ := (pending id').mp (pushed_pending taken pushes)
        simp only [reduceCtorEq, false_or, Option.some.injEq, ne_eq, Option.toList_some,
          List.append_eq_nil_iff, List.cons_ne_self, and_false, iff_false, not_and, not_not]
        exact fun here => here.1.symm
  · refine snoc_forall ?_ ?_
    · intro x member id entry pushed here
      rw [entries x member id entry pushed here, same.2.2]
    · intro id entry pushed here
      obtain rfl : l = .thread id (.pushed entry) := pushed
      rw [← same.2.2]
      cases taken with
      | thread pool action =>
          cases action with
          | @pushed ip chain c _ _ =>
              refine token_expiry run stored ?_ here
              refine Multiset.mem_add.mpr (.inr ((Multiset.mem_filterMap _ _).mpr ?_))
              exact ⟨_, pool ▸ Multiset.mem_cons_self _ _, rfl⟩

theorem in_window_step (run : PowRun env ts s) (taken : Step env s l s')
    (quiet : ¬ Removes key l) (before : InWindow key w s) :
    InWindow key (w ++ [⟨s, l, s'⟩]) s' := by
  cases before with
  | held stored agree installer pushers pending entries =>
      exact in_window_kept run taken quiet stored agree installer pushers pending entries
  | unused unbound unseen nobody unpushed =>
      cases installs : installerOf key l with
      | some id =>
          exact in_window_installed run taken installs unbound unseen nobody unpushed
      | none =>
          refine .unused (unbound_step taken installs unbound) ?_ ?_ ?_
          · refine snoc_forall unseen ?_
            intro c seen
            rcases casAt_stored taken seen with old | ⟨_, _, id, some⟩
            · simp [unbound] at old
            · simp [installs] at some
          · rw [installersIn_snoc, nobody, installs]
            rfl
          · rw [pushersIn_snoc, unpushed]
            cases pushes : pusherOf key l with
            | none => rfl
            | some id =>
                exact (not_pending_of_unbound run unbound (pushed_pending taken pushes)).elim

/-- In every window, by induction on its length. -/
theorem in_window (run : PowRun env (a ++ w) s)
    (opened : a = [] ∨ ∃ a' y, a = a' ++ [y] ∧ Removes key y.label)
    (inside : ∀ x ∈ w, ¬ Removes key x.label) : InWindow key w s := by
  induction w using List.reverseRecOn generalizing s with
  | nil =>
      rw [List.append_nil] at run
      refine .unused ?_ (by simp) rfl rfl
      rcases opened with rfl | ⟨a', y, rfl, removes⟩
      · obtain ⟨_, _, rfl⟩ := run.initial_of_nil
        rfl
      · obtain ⟨_, taken, rfl⟩ := run.last
        exact removed_unbound taken removes
  | append_singleton w x ih =>
      rw [← List.append_assoc] at run
      obtain ⟨before, taken, rfl⟩ := run.last
      have earlier := ih before fun y member => inside y (List.mem_append_left _ member)
      have quiet := inside x (List.mem_append_right _ (List.mem_singleton_self x))
      exact in_window_step before taken quiet earlier

private theorem window_closed (run : PowRun env ts s) (taken : Step env s l s')
    (removes : Removes key l) (before : InWindow key w s) :
    ∃ c g, s.shared.challengeSet key = some c ∧ installersIn key w = [g] ∧
      pushersIn key w = [g] := by
  have gone := removed_unbound taken removes
  have noPending (id : CallId) : ¬ Pending s key id := by
    intro pending
    have still : Pending s' key id := by
      refine (pending_step run taken).mpr (.inr ?_)
      obtain ⟨entry, bound, rfl, _⟩ := removes
      exact ⟨pending, by simp [pusherOf]⟩
    exact not_pending_of_unbound (run.next taken) gone still
  obtain ⟨entry, bound, rfl, rfl⟩ := removes
  obtain ⟨c, found, _⟩ := removed_expired run taken
  obtain ⟨stored, _⟩ := removed_token taken
  rw [found] at stored
  cases before with
  | unused unbound _ _ _ => simp [unbound] at stored
  | @held _ g _ _ installer pushers pending _ =>
      refine ⟨c, g, stored.symm, installer, pushers.resolve_left fun unpushed => ?_⟩
      exact noPending g ((pending g).mpr ⟨rfl, unpushed⟩)

private def remembersCas : ThreadEvent → Pc → Prop
  | .installed ip chain c, pc => pc = .addPush ip chain c ∨ pc = .addLoad ip chain c ∨
      pc = .addSend ip chain c ∨ pc = .got ip chain c
  | .found ip chain c, pc => pc = .got ip chain c
  | _, _ => True

private theorem got_cas (run : PowRun env ts s) {event : ThreadEvent} {ip ip' : Ipv4Addr}
    {chain chain' : Chain} {c c' : Challenge}
    (shape : event = .installed ip chain c ∨ event = .found ip chain c) (did : Did ts id event)
    (got : (id, Pc.got ip' chain' c') ∈ s.pool) : ip' = ip ∧ chain' = chain ∧ c' = c := by
  have recorded := event_recorded (Q := remembersCas) run
    (fun id sh pc event sh' pc' action => by cases action <;> simp [remembersCas])
    (fun id sh pc event event' sh' pc' held action => by
      cases event with
      | installed ip chain c => cases action <;> simp_all [remembersCas]
      | found ip chain c =>
          obtain rfl : _ = Pc.got ip chain c := held
          cases action
      | _ => trivial)
  obtain ⟨x, member, label⟩ := did
  obtain ⟨pc, here, held⟩ := recorded x member id event label
  obtain rfl := pc_unique run here got
  rcases shape with rfl | rfl <;> simpa [remembersCas] using held

private theorem swapped_once (run : PowRun env ts s) {claim claim' : Claim} {old old' : Challenge}
    (did : Did ts id (.swapped claim old)) (did' : Did ts id (.swapped claim' old')) :
    claim = claim' ∧ old = old' := by
  induction run with
  | start _ => simp [Did] at did
  | @next ts s s' l prior taken ih =>
      have fresh {claim claim' : Claim} {old old' : Challenge}
          (now : l = .thread id (.swapped claim old))
          (before : Did ts id (.swapped claim' old')) : False :=
        fresh_of_nodup (swaps_nodup (prior.next taken)) now rfl rfl before
      rcases did_snoc.mp did with before | now
      · rcases did_snoc.mp did' with before' | now'
        · exact ih before before'
        · exact (fresh now' before).elim
      · rcases did_snoc.mp did' with before' | now'
        · exact (fresh now before').elim
        · have same := (Label.thread.inj (now.symm.trans now')).2
          exact ThreadEvent.swapped.inj same

private theorem checkHash_congr {sha256 : Hash.Sha256} {c c' : Challenge} {solution : Hash.Solution}
    (same : SameChallenge c c') : checkHash sha256 c solution = checkHash sha256 c' solution := by
  rw [checkHash, checkHash, same.1, same.2.1]

private theorem in_window_end (run : PowRun env ts s) (split : ts = a ++ w ++ b)
    (window : Window key a w b) : ∃ s', InWindow key w s' ∧
      (b ≠ [] → ∃ g, installersIn key w = [g] ∧ pushersIn key w = [g]) := by
  rcases window.closed with rfl | ⟨y, b', rfl, removes⟩
  · rw [List.append_nil] at split
    exact ⟨s, in_window (split ▸ run) window.opened window.inside, fun some => (some rfl).elim⟩
  · have before := run.cut split
    have taken := run.step_at split
    have inWindow := in_window before window.opened window.inside
    obtain ⟨_, g, _, installer, pusher⟩ := window_closed before taken removes inWindow
    exact ⟨_, inWindow, fun _ => ⟨g, installer, pusher⟩⟩

/-- Between two consecutive removals of a key all `get` calls whose compare-and-swap falls there
return one and the same challenge, whatever difficulty and duration they offer; one of them
installs it and pushes its one eviction entry; and every `check_solution` whose compare-and-swap
succeeds there verifies against it. -/
theorem one_challenge_between_removals (run : PowRun env ts s) (split : ts = a ++ w ++ b)
    (window : Window key a w b) :
    ∃ c : Challenge,
      (∀ x ∈ w, ∀ id ip chain c', (x.label = .thread id (.installed ip chain c') ∨
          x.label = .thread id (.found ip chain c')) → keyOf ip chain = key →
        SameChallenge c' c ∧
        ∀ ip' chain' c'', (id, Pc.got ip' chain' c'') ∈ s.pool → SameChallenge c'' c) ∧
      ((∃ x ∈ w, ∃ c', casAt x.label = some (key, c')) ∨ b ≠ [] → ∃ g,
        installersIn key w = [g] ∧ (pushersIn key w = [] ∨ pushersIn key w = [g]) ∧
        (b ≠ [] → pushersIn key w = [g])) ∧
      (∀ x ∈ w, ∀ id entry, x.label = .thread id (.pushed entry) → entry.key = key →
        entry.expiresAt = c.expiresAt) ∧
      (∀ x ∈ w, ∀ id claim old, x.label = .thread id (.swapped claim old) → claim.key = key →
        SameChallenge old c ∧ ∀ result, Did ts id (.hashed claim result) →
          result = checkHash env.sha256 c claim.solution) := by
  have part {x : Transition State Label} (member : x ∈ w) : x ∈ ts :=
    split ▸ List.mem_append_left b (List.mem_append_right a member)
  obtain ⟨s', inWindow, closing⟩ := in_window_end run split window
  cases inWindow with
  | unused _ unseen nobody unpushed =>
      refine ⟨candidate (Vector.replicate 16 0) 0 0 0, ?_, ?_, ?_, ?_⟩
      · rintro x member id ip chain c' (label | label) rfl <;>
          exact (unseen x member c' (by rw [label]; rfl)).elim
      · rintro (⟨x, member, c', seen⟩ | closed)
        · exact (unseen x member c' seen).elim
        · obtain ⟨g, installer, _⟩ := closing closed
          simp [nobody] at installer
      · intro x member id entry pushed here
        exact (no_push_of_pushersIn unpushed x member id entry pushed here).elim
      · rintro x member id claim old label rfl
        exact (unseen x member old (by rw [label]; rfl)).elim
  | @held c g _ agree installer pushers _ entries =>
      refine ⟨c, ?_, ?_, entries, ?_⟩
      · rintro x member id ip chain c' shape rfl
        have same : SameChallenge c' c :=
          agree x member c' (by rcases shape with label | label <;> rw [label] <;> rfl)
        refine ⟨same, fun ip' chain' c'' got => ?_⟩
        rcases shape with label | label
        · obtain ⟨_, _, rfl⟩ := got_cas run (.inl rfl) ⟨x, part member, label⟩ got
          exact same
        · obtain ⟨_, _, rfl⟩ := got_cas run (.inr rfl) ⟨x, part member, label⟩ got
          exact same
      · intro _
        refine ⟨g, installer, pushers, fun closed => ?_⟩
        obtain ⟨g', installer', pusher⟩ := closing closed
        rw [pusher, ← installer', installer]
      · rintro x member id claim old label rfl
        have same : SameChallenge old c := agree x member old (by rw [label]; rfl)
        refine ⟨same, fun result hashed => ?_⟩
        obtain ⟨old', swapped, checked⟩ := hashed_swapped run hashed
        obtain ⟨_, rfl⟩ := swapped_once run swapped ⟨x, part member, label⟩
        rw [← checked, checkHash_congr same]

private theorem shared_run : ∃ ts s c, PowRun sampleEnv ts s ∧
    Did ts 1 (.found localIp .l1 c) ∧ c.difficulty = 5 ∧
      ∀ x ∈ ts, ¬ Removes (keyOf localIp .l1) x.label := by
  have begin : PowRun sampleEnv [] _ := .start ⟨0, 0, rfl⟩
  have get := begin.next
    (@Step.called _ _ 0 (.get localIp .l1 (Vector.replicate 16 7) 5 120) (by simp))
  have installed := get.next (.act (.installed (getCas_ok.mpr ⟨rfl, rfl, rfl⟩)))
  have again := installed.next
    (@Step.called _ _ 1 (.get localIp .l1 (Vector.replicate 16 8) 1 600) (by simp))
  have found := again.next (.act (.found (getCas_error.mpr ⟨rfl, rfl⟩)))
  exact ⟨_, _, _, found, did_snoc.mpr (.inr rfl), rfl, by simp [Removes]⟩

theorem one_challenge_between_removals_nonvacuous : ∃ ts s c g, PowRun sampleEnv ts s ∧
    Did ts 1 (.found localIp .l1 c) ∧ c.difficulty = 5 ∧
      installersIn (keyOf localIp .l1) ts = [g] := by
  obtain ⟨ts, s, c, run, ⟨x, member, label⟩, difficulty, kept⟩ := shared_run
  obtain ⟨_, _, one, _⟩ := one_challenge_between_removals (a := []) (b := []) run
    (List.append_nil _).symm ⟨.inl rfl, kept, .inl rfl⟩
  obtain ⟨g, installer, _⟩ := one (.inl ⟨x, member, c, by rw [label]; rfl⟩)
  exact ⟨ts, s, c, g, run, ⟨x, member, label⟩, difficulty, installer⟩

end FaucetApi.Pow.Windows
