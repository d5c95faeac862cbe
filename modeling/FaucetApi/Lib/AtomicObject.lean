/- module: FaucetApi/Lib/AtomicObject
   layer: library
   digest: Linearizable histories as those of an atomic object, and commits found in hindsight. -/

import Mathlib.Data.List.Basic
import Mathlib.Data.List.Induction
import Mathlib.Logic.Function.Basic

/-!
A history is linearizable when an atomic object has it: between its call and its return every
operation commits, at one instant, to an answer that the sequential specification allows there. An
operation that leaves the object as it is may commit in hindsight: it is enough that its answer was
allowed at some moment since its call.
-/

set_option autoImplicit false
set_option relaxedAutoImplicit false

namespace FaucetApi.Lib.AtomicObject

universe u v w x

/-- What the current operation of a caller has come to. -/
inductive Status (Op : Type v) (Answer : Type w) where
  | idle
  | pending (op : Op)
  | done (answer : Answer)

inductive Event (Id : Type u) (Op : Type v) (Answer : Type w) where
  | call (id : Id) (op : Op)
  | ret (id : Id) (answer : Answer)

inductive Action (Id : Type u) (Op : Type v) (Answer : Type w) where
  | call (id : Id) (op : Op)
  | commit (id : Id) (answer : Answer)
  | ret (id : Id) (answer : Answer)

structure Atomic (Id : Type u) (Op : Type v) (Answer : Type w) (St : Type x) where
  content : St
  status : Id → Status Op Answer

variable {Id : Type u} {Op : Type v} {Answer : Type w} {St : Type x}

def Action.caller : Action Id Op Answer → Id
  | .call id _ => id
  | .commit id _ => id
  | .ret id _ => id

def Action.event : Action Id Op Answer → Option (Event Id Op Answer)
  | .call id op => some (.call id op)
  | .commit _ _ => none
  | .ret id answer => some (.ret id answer)

abbrev Schedule (Id : Type u) (Op : Type v) (Answer : Type w) := List (Action Id Op Answer)

def history (l : Schedule Id Op Answer) : List (Event Id Op Answer) := l.filterMap Action.event

@[simp] theorem history_nil : history ([] : Schedule Id Op Answer) = [] := rfl

@[simp] theorem history_call (id : Id) (op : Op) (l : Schedule Id Op Answer) :
    history (.call id op :: l) = .call id op :: history l := rfl

@[simp] theorem history_commit (id : Id) (answer : Answer) (l : Schedule Id Op Answer) :
    history (.commit id answer :: l) = history l := rfl

@[simp] theorem history_ret (id : Id) (answer : Answer) (l : Schedule Id Op Answer) :
    history (.ret id answer :: l) = .ret id answer :: history l := rfl

@[simp] theorem history_append (l m : Schedule Id Op Answer) :
    history (l ++ m) = history l ++ history m := List.filterMap_append

variable [DecidableEq Id]

def Atomic.set (a : Atomic Id Op Answer St) (id : Id) (status : Status Op Answer) :
    Atomic Id Op Answer St := { a with status := Function.update a.status id status }

section

variable (spec : St → Op → Answer → St → Prop)

/-- One action of the atomic object. -/
inductive Act : Atomic Id Op Answer St → Action Id Op Answer → Atomic Id Op Answer St → Prop
  | call {a : Atomic Id Op Answer St} {id : Id} {op : Op} :
      a.status id = .idle → Act a (.call id op) (a.set id (.pending op))
  | commit {a : Atomic Id Op Answer St} {id : Id} {op : Op} {answer : Answer} {content' : St} :
      a.status id = .pending op → spec a.content op answer content' →
      Act a (.commit id answer) ((Atomic.mk content' a.status).set id (.done answer))
  | ret {a : Atomic Id Op Answer St} {id : Id} {answer : Answer} :
      a.status id = .done answer → Act a (.ret id answer) (a.set id .idle)

inductive Exec (a : Atomic Id Op Answer St) :
    Schedule Id Op Answer → Atomic Id Op Answer St → Prop
  | nil : Exec a [] a
  | snoc {l : Schedule Id Op Answer} {b c : Atomic Id Op Answer St}
      {act : Action Id Op Answer} :
      Exec a l b → Act spec b act c → Exec a (l ++ [act]) c

def Atomic.start (content : St) : Atomic Id Op Answer St := ⟨content, fun _ => .idle⟩

def Linearizable (content : St) (events : List (Event Id Op Answer)) : Prop :=
  ∃ (l : Schedule Id Op Answer) (b : Atomic Id Op Answer St),
    Exec spec (Atomic.start content) l b ∧ history l = events

/-- Since the call of the pending operation of `id` there was a moment at which `answer` was allowed
and left the object as it is. -/
def Observed (a : Atomic Id Op Answer St) (l : Schedule Id Op Answer) (id : Id)
    (answer : Answer) : Prop :=
  ∃ (before since : Schedule Id Op Answer) (b : Atomic Id Op Answer St) (op : Op),
    l = before ++ since ∧ Exec spec a before b ∧ b.status id = .pending op ∧
      spec b.content op answer b.content ∧ ∀ act ∈ since, act.caller ≠ id

end

variable {spec : St → Op → Answer → St → Prop}
variable {a b c : Atomic Id Op Answer St} {l m : Schedule Id Op Answer} {id other : Id}
variable {answer : Answer} {act : Action Id Op Answer}

@[simp] theorem set_content (a : Atomic Id Op Answer St) (id : Id) (status : Status Op Answer) :
    (a.set id status).content = a.content := rfl

@[simp] theorem set_status_self (a : Atomic Id Op Answer St) (id : Id)
    (status : Status Op Answer) : (a.set id status).status id = status := Function.update_self ..

theorem set_status_of_ne (differ : other ≠ id) (status : Status Op Answer) :
    (a.set id status).status other = a.status other := Function.update_of_ne differ ..

private theorem set_comm (differ : other ≠ id) (status status' : Status Op Answer) :
    (a.set other status').set id status = (a.set id status).set other status' := by
  simp only [Atomic.set, Function.update_comm differ]

@[simp] theorem set_set (a : Atomic Id Op Answer St) (id : Id)
    (status status' : Status Op Answer) : (a.set id status).set id status' = a.set id status' := by
  simp [Atomic.set]

theorem Exec.append (first : Exec spec a l b) (second : Exec spec b m c) :
    Exec spec a (l ++ m) c := by
  induction second with
  | nil => simpa using first
  | snoc _ taken ih =>
      rw [← List.append_assoc]
      exact ih.snoc taken

theorem Exec.call (run : Exec spec a l b) (op : Op) (idle : b.status id = .idle) :
    Exec spec a (l ++ [.call id op]) (b.set id (.pending op)) := run.snoc (.call idle)

theorem Exec.commit {op : Op} {content' : St} (run : Exec spec a l b)
    (pending : b.status id = .pending op) (allowed : spec b.content op answer content') :
    Exec spec a (l ++ [.commit id answer])
      ((Atomic.mk content' b.status).set id (.done answer)) := run.snoc (.commit pending allowed)

theorem Exec.ret (run : Exec spec a l b) (done : b.status id = .done answer) :
    Exec spec a (l ++ [.ret id answer]) (b.set id .idle) := run.snoc (.ret done)

theorem Exec.reply {op : Op} {content' : St} (run : Exec spec a l b)
    (pending : b.status id = .pending op) (allowed : spec b.content op answer content') :
    Exec spec a (l ++ [.commit id answer, .ret id answer])
      ((Atomic.mk content' b.status).set id .idle) := by
  have returned := (run.commit pending allowed).ret (set_status_self _ _ _)
  rwa [set_set, List.append_assoc] at returned

theorem Exec.instant {op : Op} {content' : St} (run : Exec spec a l b)
    (idle : b.status id = .idle) (allowed : spec b.content op answer content') :
    Exec spec a (l ++ [.call id op, .commit id answer, .ret id answer]) ⟨content', b.status⟩ := by
  have returned := (run.call op idle).reply (set_status_self _ _ _) allowed
  rw [List.append_assoc] at returned
  have restored : (Atomic.mk content' (b.set id (.pending op)).status).set id .idle =
      ⟨content', b.status⟩ := by
    simp only [Atomic.set, Function.update_idem, ← idle, Function.update_eq_self]
  exact restored ▸ returned

theorem Exec.last (run : Exec spec a (l ++ [act]) c) :
    ∃ b, Exec spec a l b ∧ Act spec b act c := by
  generalize eq : l ++ [act] = whole at run
  cases run with
  | nil => simp at eq
  | snoc prior taken =>
      obtain ⟨rfl, same⟩ := List.append_inj' eq rfl
      obtain rfl := (List.cons.inj same).1
      exact ⟨_, prior, taken⟩

theorem Exec.cut (run : Exec spec a (l ++ m) c) :
    ∃ b, Exec spec a l b ∧ Exec spec b m c := by
  induction m using List.reverseRecOn generalizing c with
  | nil => exact ⟨c, by simpa using run, .nil⟩
  | append_singleton m act ih =>
      rw [← List.append_assoc] at run
      obtain ⟨b, prior, taken⟩ := run.last
      obtain ⟨d, first, second⟩ := ih prior
      exact ⟨d, first, second.snoc taken⟩

theorem Exec.deterministic (det : ∀ s op answer s' s'', spec s op answer s' →
      spec s op answer s'' → s' = s'')
    (run : Exec spec a l b) (run' : Exec spec a l c) : b = c := by
  induction run generalizing c with
  | nil =>
      generalize eq : ([] : Schedule Id Op Answer) = whole at run'
      cases run' with
      | nil => rfl
      | snoc _ _ => simp at eq
  | snoc _ taken ih =>
      obtain ⟨d, prior, taken'⟩ := run'.last
      obtain rfl := ih prior
      cases taken with
      | call _ =>
          cases taken'
          rfl
      | ret _ =>
          cases taken'
          rfl
      | commit pending allowed =>
          cases taken' with
          | commit pending' allowed' =>
              obtain rfl := Status.pending.inj (pending.symm.trans pending')
              rw [det _ _ _ _ _ allowed allowed']

theorem Act.mark (taken : Act spec a act b) (differ : act.caller ≠ id)
    (status : Status Op Answer) : Act spec (a.set id status) act (b.set id status) := by
  cases taken with
  | @call caller _ idle =>
      change caller ≠ id at differ
      rw [set_comm differ]
      exact .call ((set_status_of_ne differ status).trans idle)
  | @commit caller _ _ _ pending allowed =>
      change caller ≠ id at differ
      rw [set_comm differ]
      exact .commit ((set_status_of_ne differ status).trans pending) allowed
  | @ret caller _ done =>
      change caller ≠ id at differ
      rw [set_comm differ]
      exact .ret ((set_status_of_ne differ status).trans done)

theorem Exec.mark (run : Exec spec a l b) (others : ∀ act ∈ l, act.caller ≠ id)
    (status : Status Op Answer) : Exec spec (a.set id status) l (b.set id status) := by
  induction run with
  | nil => exact .nil
  | snoc _ taken ih =>
      refine (ih fun act member => others act (List.mem_append_left _ member)).snoc ?_
      exact taken.mark (others _ (List.mem_append_right _ List.mem_cons_self)) status

theorem Observed.later (seen : Observed spec a l id answer)
    (others : ∀ act ∈ m, act.caller ≠ id) : Observed spec a (l ++ m) id answer := by
  obtain ⟨before, since, b, op, rfl, run, pending, allowed, quiet⟩ := seen
  refine ⟨before, since ++ m, b, op, List.append_assoc _ _ _, run, pending, allowed, ?_⟩
  intro act member
  rcases List.mem_append.mp member with old | new
  · exact quiet act old
  · exact others act new

theorem observed_now {op : Op} (run : Exec spec a l b) (pending : b.status id = .pending op)
    (allowed : spec b.content op answer b.content) : Observed spec a l id answer :=
  ⟨l, [], b, op, (List.append_nil l).symm, run, pending, allowed, by simp⟩

/-- An observed answer is committed in hindsight: the history stays as it was, and so does what
other callers have observed. -/
theorem commit_observed (det : ∀ s op answer s' s'', spec s op answer s' →
      spec s op answer s'' → s' = s'')
    (run : Exec spec a l c) (seen : Observed spec a l id answer) :
    ∃ l', Exec spec a l' (c.set id (.done answer)) ∧ history l' = history l ∧
      ∀ other answer', other ≠ id → Observed spec a l other answer' →
        Observed spec a l' other answer' := by
  obtain ⟨before, since, b, op, rfl, first, pending, allowed, quiet⟩ := seen
  obtain ⟨b', first', second⟩ := run.cut
  obtain rfl := first.deterministic det first'
  have commit : Act spec b (.commit id answer) (b.set id (.done answer)) := .commit pending allowed
  have committed := first.snoc commit
  refine ⟨before ++ [.commit id answer] ++ since, committed.append (second.mark quiet _), ?_, ?_⟩
  · simp
  · rintro other answer' differ ⟨early, late, d, op', split, third, pending', allowed', quiet'⟩
    rcases List.append_eq_append_iff.mp split with ⟨gap, rfl, rfl⟩ | ⟨gap, rfl, rfl⟩
    · -- the other observation was made after the commit
      obtain ⟨b'', first'', fourth⟩ := third.cut
      obtain rfl := first.deterministic det first''
      have between : ∀ act ∈ gap, act.caller ≠ id := fun act member =>
        quiet act (List.mem_append_left _ member)
      refine ⟨before ++ [.commit id answer] ++ gap, late, d.set id (.done answer), op', ?_,
        committed.append (fourth.mark between _), ?_, allowed', quiet'⟩
      · simp
      · rw [set_status_of_ne differ, pending']
    · -- it was made before the commit
      refine ⟨early, gap ++ [.commit id answer] ++ since, d, op', by simp, third, pending',
        allowed', ?_⟩
      intro act member
      simp only [List.append_assoc, List.mem_append, List.mem_singleton] at member
      rcases member with old | rfl | new
      · exact quiet' act (List.mem_append_left _ old)
      · exact Ne.symm differ
      · exact quiet' act (List.mem_append_right _ new)

end FaucetApi.Lib.AtomicObject
