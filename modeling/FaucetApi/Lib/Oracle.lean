/- module: FaucetApi/Lib/Oracle
   layer: library
   digest: How many of the answers that a function can give to finitely many messages are lucky. -/

import Mathlib.Algebra.BigOperators.Finprod
import Mathlib.Data.Set.Card
import Mathlib.SetTheory.Cardinal.Finite
import Mathlib.Algebra.Order.BigOperators.Ring.Finset
import Mathlib.Tactic.Ring

/-!
A hash function about which nothing is known gives any answers to distinct messages. What is said
of it through its answers to finitely many messages holds for a number of these answers, out of all
that there are, and the quotient is the chance that it holds for a random oracle.
-/

set_option autoImplicit false
set_option relaxedAutoImplicit false

namespace FaucetApi.Lib.Oracle

universe u v w

variable {M : Type u} {D : Type v} {ι : Type w}

/-- `P` says something about the answers to the messages only, all answers can be given to them,
and `P` holds for `count` of these. -/
structure Favorable (message : ι → M) (P : (M → D) → Prop) (count : ℕ) : Prop where
  possible : ∀ answers : ι → D, ∃ oracle : M → D, oracle ∘ message = answers
  counted : ∃ answers : Set (ι → D), (∀ oracle, P oracle ↔ oracle ∘ message ∈ answers) ∧
    answers.ncard = count

/-- `q` measures the answers to the messages only, and over all answers it adds up to `total`. -/
structure AddsUp (message : ι → M) (q : (M → D) → ℕ) (total : ℕ) : Prop where
  possible : ∀ answers : ι → D, ∃ oracle : M → D, oracle ∘ message = answers
  counted : ∃ measure : (ι → D) → ℕ, (∀ oracle, q oracle = measure (oracle ∘ message)) ∧
    ∑ᶠ answers, measure answers = total

variable {message : ι → M} {P Q : (M → D) → Prop} {count : ℕ}

theorem Favorable.congr (favorable : Favorable message P count)
    (same : ∀ oracle, Q oracle ↔ P oracle) : Favorable message Q count := by
  obtain ⟨answers, decided, number⟩ := favorable.counted
  refine ⟨favorable.possible, answers, ?_, number⟩
  intro oracle
  exact (same oracle).trans (decided oracle)

theorem Favorable.compl [Finite ι] [Finite D] (favorable : Favorable message P count) :
    Favorable message (fun oracle => ¬ P oracle) (Nat.card (ι → D) - count) := by
  obtain ⟨answers, decided, rfl⟩ := favorable.counted
  refine ⟨favorable.possible, answersᶜ, ?_, Set.ncard_compl answers⟩
  intro oracle
  exact not_congr (decided oracle)

private theorem exists_answering [Nonempty D] (distinct : Function.Injective message)
    (answers : ι → D) :
    ∃ oracle : M → D, oracle ∘ message = answers :=
  ⟨Function.extend message answers fun _ => Classical.arbitrary D,
    Function.extend_comp distinct _ _⟩

theorem favorable_forall [Fintype ι] [Nonempty D] (distinct : Function.Injective message)
    (accepted : ι → Set D) :
    Favorable message (fun oracle => ∀ i, oracle (message i) ∈ accepted i)
      (∏ i, (accepted i).ncard) := by
  refine ⟨exists_answering distinct, {answers | ∀ i, answers i ∈ accepted i},
    fun oracle => Iff.rfl, ?_⟩
  calc {answers : ι → D | ∀ i, answers i ∈ accepted i}.ncard
      = Nat.card (∀ i, accepted i) := Nat.card_congr Equiv.subtypePiEquivPi
    _ = ∏ i, (accepted i).ncard := Nat.card_pi

/-- What is measured adds up layer by layer: to how many answers it goes beyond each number. -/
theorem addsUp_of_tails [Finite ι] [Finite D] {q : (M → D) → ℕ} {bound : ℕ} {tail : ℕ → ℕ}
    (possible : ∀ answers : ι → D, ∃ oracle : M → D, oracle ∘ message = answers)
    (bounded : ∀ oracle, q oracle ≤ bound)
    (tails : ∀ j < bound, Favorable message (fun oracle => j < q oracle) (tail j)) :
    AddsUp message q (∑ j ∈ Finset.range bound, tail j) := by
  classical
  have : Fintype (ι → D) := Fintype.ofFinite _
  choose oracle realized using possible
  -- the answers at which `q` goes beyond `j`, and those of one oracle for each answer
  have beyond : ∀ f j, j < q f ↔ j < q (oracle (f ∘ message)) := by
    intro f j
    rcases Nat.lt_or_ge j bound with low | high
    · obtain ⟨answers, decided, _⟩ := (tails j low).counted
      rw [decided f, decided, realized]
    · have here := bounded f
      have there := bounded (oracle (f ∘ message))
      omega
  refine ⟨fun answers => ⟨oracle answers, realized answers⟩, fun answers => q (oracle answers),
    fun f => eq_of_forall_lt_iff (beyond f), ?_⟩
  have layers : ∀ answers : ι → D,
      q (oracle answers) = ∑ j ∈ Finset.range bound, if j < q (oracle answers) then 1 else 0 := by
    intro answers
    have below := bounded (oracle answers)
    have layer : (Finset.range bound).filter (· < q (oracle answers)) =
        Finset.range (q (oracle answers)) := by
      ext j
      rw [Finset.mem_filter, Finset.mem_range, Finset.mem_range]
      omega
    rw [Finset.sum_boole, layer, Finset.card_range, Nat.cast_id]
  have level : ∀ j < bound,
      ∑ answers : ι → D, (if j < q (oracle answers) then 1 else 0) = tail j := by
    intro j low
    obtain ⟨answers, decided, number⟩ := (tails j low).counted
    have same :
        answers = (Finset.univ.filter fun answers => j < q (oracle answers) : Finset _) := by
      ext choice
      rw [Finset.mem_coe, Finset.mem_filter, decided, realized]
      exact (and_iff_right (Finset.mem_univ choice)).symm
    rw [Finset.sum_boole, ← number, same, Set.ncard_coe_finset, Nat.cast_id]
  rw [finsum_eq_sum_of_fintype, Finset.sum_congr rfl fun answers _ => layers answers,
    Finset.sum_comm]
  exact Finset.sum_congr rfl fun j member => level j (Finset.mem_range.mp member)

theorem missed_all {n scale : ℕ} (pos : 0 < scale) (wins : ι → ℕ) (tickets : Finset ι)
    (small : ∀ i ∈ tickets, wins i * scale ≤ n) :
    n ^ tickets.card * scale ≤
      (∏ i ∈ tickets, (n - wins i)) * scale + tickets.card * n ^ tickets.card := by
  classical
  induction tickets using Finset.induction_on with
  | empty => simp
  | @insert i tickets fresh ih =>
      have rest := ih fun j member => small j (Finset.mem_insert_of_mem member)
      have here := small i (Finset.mem_insert_self i tickets)
      have missed : ∏ j ∈ tickets, (n - wins j) ≤ n ^ tickets.card :=
        Finset.prod_le_pow_card _ _ _ fun j _ => Nat.sub_le _ _
      rw [Finset.card_insert_of_notMem fresh, Finset.prod_insert fresh]
      generalize ∏ j ∈ tickets, (n - wins j) = product at rest missed ⊢
      have split : n * product = (n - wins i) * product + wins i * product := by
        have le : wins i ≤ n := (Nat.le_mul_of_pos_right _ pos).trans here
        rw [← Nat.add_mul, Nat.sub_add_cancel le]
      calc n ^ (tickets.card + 1) * scale
          = n * (n ^ tickets.card * scale) := by ring
        _ ≤ n * (product * scale + tickets.card * n ^ tickets.card) := Nat.mul_le_mul_left n rest
        _ = n * product * scale + tickets.card * n ^ (tickets.card + 1) := by ring
        _ = (n - wins i) * product * scale + product * (wins i * scale) +
              tickets.card * n ^ (tickets.card + 1) := by
            rw [split]
            ring
        _ ≤ (n - wins i) * product * scale + n ^ tickets.card * n +
              tickets.card * n ^ (tickets.card + 1) := by gcongr
        _ = (n - wins i) * product * scale + (tickets.card + 1) * n ^ (tickets.card + 1) := by
            ring

/-! Messages tried in order, until one of them has an accepted answer. -/

/-- Before attempt `m` at `k` messages, `scale` attempts are still to come for each answer that has
not succeeded. -/
theorem sum_attempts_add {n a b scale k m : ℕ} (share : a * scale = n) (split : b + a = n)
    (inside : m ≤ k) :
    ∑ j ∈ Finset.range m, b ^ j * n ^ (k - j) + scale * (b ^ m * n ^ (k - m)) =
      scale * n ^ k := by
  induction m with
  | zero => simp
  | succ m ih =>
      have power : n ^ (k - m) = n * n ^ (k - (m + 1)) := by
        rw [← pow_succ']
        congr 1
        omega
      have tried : b ^ m * n ^ (k - m) + scale * (b ^ (m + 1) * n ^ (k - (m + 1))) =
          scale * (b ^ m * n ^ (k - m)) := by
        rw [power]
        calc b ^ m * (n * n ^ (k - (m + 1))) + scale * (b ^ (m + 1) * n ^ (k - (m + 1)))
            = b ^ m * n ^ (k - (m + 1)) * (n + scale * b) := by ring
          _ = b ^ m * n ^ (k - (m + 1)) * (scale * (b + a)) := by
              rw [← share]
              ring
          _ = scale * (b ^ m * (n * n ^ (k - (m + 1)))) := by
              rw [split]
              ring
      rw [Finset.sum_range_succ, Nat.add_assoc, tried]
      exact ih (Nat.le_of_succ_le inside)

private theorem sum_attempts {n a b scale k : ℕ} (share : a * scale = n) (split : b + a = n) :
    ∑ j ∈ Finset.range k, b ^ j * n ^ (k - j) = scale * (n ^ k - b ^ k) := by
  have whole := sum_attempts_add share split (le_refl k)
  rw [Nat.sub_self, pow_zero, Nat.mul_one] at whole
  rw [Nat.mul_sub]
  omega

section

variable {k : ℕ} {messages : Fin k → M} {accepted : Set D}

theorem favorable_before [Finite D] [Nonempty D] (distinct : Function.Injective messages)
    (accepted : Set D) {j : ℕ} (le : j ≤ k) :
    Favorable messages (fun oracle => ∀ i : Fin k, i.val < j → oracle (messages i) ∉ accepted)
      ((Nat.card D - accepted.ncard) ^ j * Nat.card D ^ (k - j)) := by
  have all := favorable_forall distinct fun i => if i.val < j then acceptedᶜ else Set.univ
  have number : ∏ i : Fin k, (if i.val < j then acceptedᶜ else Set.univ).ncard =
      (Nat.card D - accepted.ncard) ^ j * Nat.card D ^ (k - j) := by
    obtain ⟨rest, rfl⟩ := Nat.exists_eq_add_of_le le
    rw [Fin.prod_univ_eq_prod_range (fun i => (if i < j then acceptedᶜ else Set.univ).ncard),
      Finset.prod_range_add, Nat.add_sub_cancel_left]
    congr 1
    · rw [Finset.prod_congr rfl fun i member => by rw [if_pos (Finset.mem_range.mp member)],
        Finset.prod_const, Finset.card_range, Set.ncard_compl]
    · rw [Finset.prod_congr rfl fun i _ => by rw [if_neg (Nat.not_lt.mpr (Nat.le_add_right j i))],
        Finset.prod_const, Finset.card_range, Set.ncard_univ]
  rw [number] at all
  apply all.congr
  intro oracle
  apply forall_congr'
  intro i
  by_cases early : i.val < j <;> simp [early]

theorem addsUp_attempts [Finite D] [Nonempty D] (distinct : Function.Injective messages)
    {attempts : (M → D) → ℕ} {scale : ℕ} (bounded : ∀ oracle, attempts oracle ≤ k)
    (goesOn : ∀ oracle, ∀ j < k, j < attempts oracle ↔
      ∀ i : Fin k, i.val < j → oracle (messages i) ∉ accepted)
    (share : accepted.ncard * scale = Nat.card D) :
    AddsUp messages attempts
      (scale * (Nat.card D ^ k - (Nat.card D - accepted.ncard) ^ k)) := by
  have tails : ∀ j < k, Favorable messages (fun oracle => j < attempts oracle)
      ((Nat.card D - accepted.ncard) ^ j * Nat.card D ^ (k - j)) := by
    intro j low
    exact (favorable_before distinct accepted low.le).congr fun oracle => goesOn oracle j low
  have total := addsUp_of_tails (exists_answering distinct) bounded tails
  rwa [sum_attempts share (Nat.sub_add_cancel (Set.ncard_le_card accepted))] at total

end

end FaucetApi.Lib.Oracle
