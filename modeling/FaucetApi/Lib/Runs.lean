/- module: FaucetApi/Lib/Runs
   layer: library
   digest: Finite runs of a labelled transition relation and the rules to prove facts over them. -/

import Mathlib.Data.List.Basic
import Mathlib.Data.List.Pairwise

set_option autoImplicit false
set_option relaxedAutoImplicit false

namespace FaucetApi.Lib.Runs

universe u v

/-- One step taken by a run, with the states on both sides of it. -/
structure Transition (S : Type u) (L : Type v) where
  source : S
  label : L
  target : S

/-- A finite run from an initial state. The transitions are listed in the order taken. -/
inductive Run {S : Type u} {L : Type v} (initial : S → Prop) (step : S → L → S → Prop) :
    List (Transition S L) → S → Prop
  | start {s : S} : initial s → Run initial step [] s
  | next {ts : List (Transition S L)} {s s' : S} {l : L} :
      Run initial step ts s → step s l s' → Run initial step (ts ++ [⟨s, l, s'⟩]) s'

variable {S : Type u} {L : Type v} {initial : S → Prop} {step : S → L → S → Prop}
variable {ts a b : List (Transition S L)} {s : S} {x : Transition S L}

theorem Run.invariant {P : S → Prop} (run : Run initial step ts s)
    (base : ∀ s, initial s → P s) (keep : ∀ s l s', P s → step s l s' → P s') : P s := by
  induction run with
  | start init => exact base _ init
  | next _ taken ih => exact keep _ _ _ ih taken

theorem Run.step_of_mem (run : Run initial step ts s) (member : x ∈ ts) :
    step x.source x.label x.target := by
  induction run with
  | start _ => simp at member
  | next _ taken ih =>
      rcases List.mem_append.mp member with old | new
      · exact ih old
      · obtain rfl := List.mem_singleton.mp new
        exact taken

theorem Run.initial_of_nil (run : Run initial step [] s) : initial s := by
  generalize none : ([] : List (Transition S L)) = ts at run
  cases run with
  | start init => exact init
  | next _ _ => simp at none

theorem Run.from_initial (run : Run initial step ts s) :
    ∃ s₀, initial s₀ ∧ Run (fun s => s = s₀) step ts s := by
  induction run with
  | @start s init => exact ⟨s, init, .start rfl⟩
  | next _ taken ih =>
      obtain ⟨s₀, init, run⟩ := ih
      exact ⟨s₀, init, .next run taken⟩

/-- Two runs of the same operations go through the same steps, up to a relation on their states,
when related states give the same step to the same operation. -/
theorem Run.determined {O : Type u} {op : L → O} {R : S → S → Prop}
    {ts' : List (Transition S L)} {s' : S} (run : Run initial step ts s)
    (run' : Run initial step ts' s') (base : ∀ s s', initial s → initial s' → R s s')
    (same : ∀ a s b s', Run initial step a s → Run initial step b s' → R s s' →
      ∀ l l' t t', step s l t → step s' l' t' → op l = op l' → l = l' ∧ R t t')
    (operations : ts.map (fun x => op x.label) = ts'.map (fun x => op x.label)) :
    ts.map Transition.label = ts'.map Transition.label ∧ R s s' := by
  induction run generalizing ts' s' with
  | start init =>
      cases run' with
      | start init' => exact ⟨rfl, base _ _ init init'⟩
      | next _ _ => simp at operations
  | next prior taken ih =>
      cases run' with
      | start _ => simp at operations
      | next prior' taken' =>
          rw [List.map_append, List.map_append] at operations
          obtain ⟨earlier, last⟩ := List.append_inj' operations rfl
          obtain ⟨labels, related⟩ := ih prior' earlier
          obtain ⟨label, related'⟩ := same _ _ _ _ prior prior' related _ _ _ _ taken taken'
            (List.cons.inj last).1
          refine ⟨?_, related'⟩
          rw [List.map_append, List.map_append, labels]
          simp [label]

theorem Run.last (run : Run initial step (ts ++ [x]) s) :
    Run initial step ts x.source ∧ step x.source x.label x.target ∧ x.target = s := by
  generalize split : ts ++ [x] = ts' at run
  cases run with
  | start _ => simp at split
  | next prior taken =>
      obtain ⟨rfl, same⟩ := List.append_inj' split rfl
      obtain rfl := (List.cons.inj same).1
      exact ⟨prior, taken, rfl⟩

theorem snoc_forall {α : Type u} {l : List α} {x : α} {P : α → Prop} (old : ∀ y ∈ l, P y)
    (new : P x) : ∀ y ∈ l ++ [x], P y :=
  List.forall_mem_append.mpr ⟨old, List.forall_mem_singleton.mpr new⟩

theorem filterMap_snoc {α : Type u} {β : Type v} (f : α → Option β) (l : List α) (x : α) :
    (l ++ [x]).filterMap f = l.filterMap f ++ (f x).toList := by
  rw [List.filterMap_append]
  cases kept : f x <;> simp [kept]

theorem countP_snoc {α : Type u} (p : α → Bool) (l : List α) (x : α) :
    (l ++ [x]).countP p = l.countP p + (p x).toNat := by
  rw [List.countP_append, List.countP_singleton]
  cases p x <;> rfl

theorem snoc_cut {α : Type u} {l a b : List α} {x y : α} (split : l ++ [y] = a ++ x :: b) :
    (l = a ∧ y = x ∧ b = []) ∨ ∃ c, b = c ++ [y] ∧ l = a ++ x :: c := by
  rcases List.eq_nil_or_concat b with rfl | ⟨c, z, rfl⟩
  · obtain ⟨rfl, same⟩ := List.append_inj' split rfl
    exact .inl ⟨rfl, (List.cons.inj same).1, rfl⟩
  · have split' : l ++ [y] = (a ++ x :: c) ++ [z] := by
      simpa [List.concat_eq_append] using split
    obtain ⟨earlier, same⟩ := List.append_inj' split' rfl
    obtain rfl := (List.cons.inj same).1
    exact .inr ⟨c, List.concat_eq_append, earlier⟩

theorem snoc_cut_forall {α : Type u} {l : List α} {y : α} {P : List α → α → Prop}
    (old : ∀ a x b, l = a ++ x :: b → P a x) (new : P l y) :
    ∀ a x b, l ++ [y] = a ++ x :: b → P a x := by
  intro a x b split
  rcases snoc_cut split with ⟨rfl, rfl, _⟩ | ⟨c, _, earlier⟩
  · exact new
  · exact old a x c earlier

theorem foldl_cut_cons {α : Type u} {σ : Type v} {f : σ → α → σ} {P : σ → α → Prop} {s : σ}
    {x : α} {l : List α} :
    (∀ a y b, x :: l = a ++ y :: b → P (a.foldl f s) y) ↔
      P s x ∧ ∀ a y b, l = a ++ y :: b → P (a.foldl f (f s x)) y := by
  constructor
  · intro all
    refine ⟨all [] x l rfl, ?_⟩
    intro a y b split
    exact all (x :: a) y b (by rw [split, List.cons_append])
  · rintro ⟨first, later⟩ a y b split
    cases a with
    | nil =>
        obtain ⟨rfl, _⟩ := List.cons.inj split
        exact first
    | cons _ a =>
        obtain ⟨rfl, split'⟩ := List.cons.inj split
        exact later a y b split'

theorem Run.cut (run : Run initial step ts s) (split : ts = a ++ x :: b) :
    Run initial step a x.source := by
  induction run generalizing b with
  | start _ => simp at split
  | next prior taken ih =>
      rcases snoc_cut split with ⟨rfl, rfl, _⟩ | ⟨c, _, earlier⟩
      · exact prior
      · exact ih earlier

theorem Run.step_at (run : Run initial step ts s) (split : ts = a ++ x :: b) :
    step x.source x.label x.target :=
  run.step_of_mem (split ▸ List.mem_append_right a List.mem_cons_self)

theorem Run.at_mem (run : Run initial step ts s) (member : x ∈ ts) :
    ∃ a b, ts = a ++ x :: b ∧ Run initial step a x.source ∧ step x.source x.label x.target := by
  obtain ⟨a, b, split⟩ := List.append_of_mem member
  exact ⟨a, b, split, run.cut split, run.step_of_mem member⟩

/-! A component of a system takes part in some of the system's steps and rests during the others. -/

section

variable {S' : Type u} {L' : Type v} {initial' : S' → Prop} {stepOf : S' → L' → S' → Prop}
variable {state : S → S'} {label : L → Option L'}

def Transition.project (state : S → S') (label : L → Option L') (x : Transition S L) :
    Option (Transition S' L') :=
  (label x.label).map fun l => ⟨state x.source, l, state x.target⟩

theorem mem_projected {y : Transition S' L'}
    (member : y ∈ ts.filterMap (Transition.project state label)) :
    ∃ x ∈ ts, label x.label = some y.label ∧ y.source = state x.source ∧
      y.target = state x.target := by
  obtain ⟨x, inside, seen⟩ := List.mem_filterMap.mp member
  obtain ⟨l, part, rfl⟩ := Option.map_eq_some_iff.mp seen
  exact ⟨x, inside, part, rfl, rfl⟩

/-- What a component does in a step of the system: its part of the label, or nothing. -/
def TakesPart (stepOf : S' → L' → S' → Prop) (s : S') (l : Option L') (s' : S') : Prop :=
  match l with
  | none => s' = s
  | some l => stepOf s l s'

/-- The steps of a run that a component takes part in are a run of the component. -/
theorem Run.project (run : Run initial step ts s) (base : ∀ s, initial s → initial' (state s))
    (part : ∀ s l s', step s l s' → TakesPart stepOf (state s) (label l) (state s')) :
    Run initial' stepOf (ts.filterMap (Transition.project state label)) (state s) := by
  induction run with
  | start init => exact .start (base _ init)
  | @next ts s s' l _ taken ih =>
      have moved := part _ _ _ taken
      rw [List.filterMap_append]
      cases seen : label l with
      | none =>
          rw [seen] at moved
          change state s' = state s at moved
          simpa [Transition.project, seen, moved] using ih
      | some l' =>
          rw [seen] at moved
          have last : [(⟨s, l, s'⟩ : Transition S L)].filterMap (Transition.project state label) =
              [⟨state s, l', state s'⟩] := by simp [Transition.project, seen]
          rw [last]
          exact .next ih moved

end

end FaucetApi.Lib.Runs
