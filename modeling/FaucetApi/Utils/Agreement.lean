/- module: FaucetApi/Utils/Agreement
   layer: results
   digest: Whether the server accepts what the shipped solvers return. -/

import FaucetApi.Pow.Challenges
import FaucetApi.Utils.Solvers

set_option autoImplicit false
set_option relaxedAutoImplicit false

namespace FaucetApi.Utils.Agreement

open FaucetApi.Lib.Hex
open FaucetApi.Pow.Hash
open FaucetApi.Pow.Challenges
open FaucetApi.Utils.Solvers (Solver searchFrom firstSolution solverJs solverPy js_decodeNonce
  js_encodeSolution searchFrom_enough findSolution_eq_search js_countLeadingZeros
  py_countLeadingZeros countLeadingZeros_zeros)

variable {sha256 : Sha256} {solver : Solver} {nonce : HexText 16} {difficulty : UInt8}

/-- Whatever the solver returns decodes to eight bytes for which `check_solution` returns `Ok` on
every unclaimed challenge with this nonce and difficulty. -/
def Agrees (sha256 : Sha256) (solver : Solver) (nonce : HexText 16) (difficulty : UInt8) : Prop :=
  ∀ fuel text, solver.findSolution sha256 nonce.chars difficulty.toNat fuel = some text →
    ∃ solution : Solution, decode text = some solution.toList ∧
      ∀ (challengeSet : ChallengeSet) (key : Key) (challenge : Challenge),
        challengeSet key = some challenge → challenge.claimed = false →
        challenge.nonce = nonce.bytes → challenge.difficulty = difficulty →
          (checkSolution sha256 challengeSet key solution).1 = .ok ()

/-- The solver reads nonces and prints solutions as hexadecimal text. -/
structure SpeaksHex (solver : Solver) : Prop where
  reads : ∀ nonce : HexText 16, solver.decodeNonce nonce.chars = some nonce.bytes.toList
  prints : ∀ bytes, solver.encodeSolution bytes = encode bytes

private theorem js_speaksHex : SpeaksHex solverJs :=
  ⟨fun nonce => js_decodeNonce nonce.spelled, js_encodeSolution⟩

private theorem py_speaksHex : SpeaksHex solverPy := ⟨HexText.spelled, fun _ => rfl⟩

private theorem checkSolution_unclaimed
    {challengeSet : ChallengeSet} {key : Key} {challenge : Challenge}
    (present : challengeSet key = some challenge) (unclaimed : challenge.claimed = false)
    (solution : Solution) : (checkSolution sha256 challengeSet key solution).1 =
      checkHash sha256 challenge solution := by
  have read := checkRead_ok.mpr ⟨present, unclaimed⟩
  have swapped := checkCas_ok.mpr ⟨present, rfl⟩
  simp only [checkSolution, read, swapped]

/-- The server's verdict depends only on the nonce, the difficulty and the solution. -/
def Accepts (sha256 : Sha256) (nonce : Nonce) (difficulty : UInt8) (solution : Solution) : Prop :=
  difficulty ≤ countLeadingZeros (sha256 (preimage nonce solution)).toList

private theorem accepts_iff {solution : Solution} :
    (∀ (challengeSet : ChallengeSet) (key : Key) (challenge : Challenge),
      challengeSet key = some challenge → challenge.claimed = false →
      challenge.nonce = nonce.bytes → challenge.difficulty = difficulty →
        (checkSolution sha256 challengeSet key solution).1 = .ok ()) ↔
      Accepts sha256 nonce.bytes difficulty solution := by
  constructor
  · intro all
    let challenge : Challenge := ⟨nonce.bytes, false, 0, difficulty⟩
    have ok := all (fun _ => some challenge) (0, .l1) challenge rfl rfl rfl rfl
    rw [checkSolution_unclaimed rfl rfl, checkHash] at ok
    split_ifs at ok with enough
    exact enough
  · rintro enough challengeSet key challenge present unclaimed rfl' rfl
    rw [checkSolution_unclaimed present unclaimed, checkHash, rfl']
    exact if_pos enough

theorem agrees_iff (speaks : SpeaksHex solver) : Agrees sha256 solver nonce difficulty ↔
    ∀ fuel solution, searchFrom (solver.enough sha256 nonce.bytes.toList difficulty.toNat) fuel
      firstSolution = some solution → Accepts sha256 nonce.bytes difficulty solution := by
  have returns (fuel : ℕ) :=
    findSolution_eq_search (speaks.reads nonce) speaks.prints sha256 difficulty.toNat fuel
  constructor
  · intro agrees fuel solution found
    obtain ⟨decoded, spelled, accepted⟩ := agrees fuel (encode solution.toList)
      (by rw [returns, found, Option.map_some])
    obtain rfl : solution = decoded := by
      rw [decode_encode] at spelled
      exact Vector.toList_inj.mp (Option.some.inj spelled)
    exact accepts_iff.mp accepted
  · intro accepted fuel text returned
    rw [returns] at returned
    obtain ⟨solution, found, rfl⟩ := Option.map_eq_some_iff.mp returned
    exact ⟨solution, decode_encode _, accepts_iff.mpr (accepted fuel solution found)⟩

/-- Digests of zeros for the one message, and without a leading zero bit for every other. -/
def singleOut (message : List UInt8) : Sha256 := fun data =>
  if data = message then Vector.replicate 32 0 else Vector.replicate 32 0xff

/-- With a salt of another length a solver agrees with the server on no difficulty but zero. -/
theorem agrees_iff_zero (speaks : SpeaksHex solver) (differs : solver.salt.length ≠ salt.length) :
    (∀ sha256, Agrees sha256 solver nonce difficulty) ↔ difficulty = 0 := by
  constructor
  · intro agrees
    have accepted := (agrees_iff speaks).mp
      (agrees (singleOut (solver.salt ++ nonce.bytes.toList ++ firstSolution.toList)))
      1 firstSolution (by
        refine if_pos (decide_eq_true ?_)
        rw [singleOut, if_pos rfl, countLeadingZeros_zeros]
        exact difficulty.toNat_lt.le)
    have other : preimage nonce.bytes firstSolution ≠
        solver.salt ++ nonce.bytes.toList ++ firstSolution.toList := by
      intro same
      have lengths := congrArg List.length same
      simp only [preimage, List.length_append] at lengths
      omega
    rw [Accepts, singleOut, if_neg other] at accepted
    exact UInt8.le_antisymm accepted difficulty.zero_le
  · rintro rfl sha256
    exact (agrees_iff speaks).mpr fun _ _ _ => UInt8.zero_le

/-- The shipped solvers agree with the server exactly on the difficulty zero. -/
theorem shipped_solvers_agree_iff (nonce : HexText 16) (difficulty : UInt8) :
    ((∀ sha256, Agrees sha256 solverJs nonce difficulty) ↔ difficulty = 0) ∧
      ((∀ sha256, Agrees sha256 solverPy nonce difficulty) ↔ difficulty = 0) :=
  ⟨agrees_iff_zero js_speaksHex (by decide), agrees_iff_zero py_speaksHex (by decide)⟩

def exampleNonce : HexText 16 where
  chars := "4bbbefa849c59704f7f13745ca47161a".toList
  bytes := #v[0x4b, 0xbb, 0xef, 0xa8, 0x49, 0xc5, 0x97, 0x04, 0xf7, 0xf1, 0x37, 0x45, 0xca, 0x47,
    0x16, 0x1a]
  spelled := by decide

/-- Both solvers return the first solution for it, and the server refuses it. -/
theorem shipped_solution_refused : ∃ sha256,
    solverJs.findSolution sha256 exampleNonce.chars 17 1 = some "0000000000000000".toList ∧
    solverPy.findSolution sha256 exampleNonce.chars 17 1 = some "0000000000000000".toList ∧
    checkHash sha256 ⟨exampleNonce.bytes, true, 0, 17⟩ firstSolution = .error .badProofOfWork ∧
    ¬ Agrees sha256 solverJs exampleNonce 17 ∧ ¬ Agrees sha256 solverPy exampleNonce 17 := by
  have refused : ¬ Accepts (singleOut (solverJs.salt ++ exampleNonce.bytes.toList ++
      firstSolution.toList)) exampleNonce.bytes 17 firstSolution := by
    unfold Accepts
    decide +kernel
  refine ⟨singleOut (solverJs.salt ++ exampleNonce.bytes.toList ++ firstSolution.toList),
    by decide +kernel, by decide +kernel, if_neg refused, fun agrees => refused ?_,
    fun agrees => refused ?_⟩
  · exact (agrees_iff js_speaksHex).mp agrees 1 firstSolution (by decide +kernel)
  · exact (agrees_iff py_speaksHex).mp agrees 1 firstSolution (by decide +kernel)

/-! What would be left if the solvers had the server's salt. -/

def Solver.withServerSalt (solver : Solver) : Solver := { solver with salt := salt }

theorem SpeaksHex.withServerSalt (speaks : SpeaksHex solver) :
    SpeaksHex (Solver.withServerSalt solver) := ⟨speaks.reads, speaks.prints⟩

def NoZeroDigest (sha256 : Sha256) : Prop :=
  ∀ data, leadingZeroBits (sha256 data).toList < 256

private theorem accepts_iff_leadingZeroBits (nonzero : NoZeroDigest sha256) {solution : Solution} :
    Accepts sha256 nonce.bytes difficulty solution ↔
      difficulty.toNat ≤ leadingZeroBits (sha256 (preimage nonce.bytes solution)).toList := by
  rw [Accepts, UInt8.le_iff_toNat_le, countLeadingZeros_toNat, Nat.mod_eq_of_lt (nonzero _)]

theorem js_agrees_with_server_salt (nonzero : NoZeroDigest sha256) :
    Agrees sha256 (Solver.withServerSalt solverJs) nonce difficulty := by
  refine (agrees_iff js_speaksHex.withServerSalt).mpr fun fuel solution found => ?_
  have enough := of_decide_eq_true (searchFrom_enough found)
  exact (accepts_iff_leadingZeroBits nonzero).mpr (enough.trans (js_countLeadingZeros _).le)

def zeroBytes (count : ℕ) : Digest := Vector.ofFn fun i => if i.val < count then 0 else 0xff

private theorem zeroBytes_table : ∀ count : Fin 32, (zeroBytes count).toList =
    List.replicate count 0 ++ 0xff :: List.replicate (31 - count) 0xff := by decide +kernel

private theorem leadingZeroBits_zeroBytes (count : Fin 32) :
    leadingZeroBits (zeroBytes count).toList = 8 * count := by
  rw [zeroBytes_table, leadingZeroBits_zeros_append, leadingZeroBits_cons (by decide)]
  rfl

private theorem py_countLeadingZeros_digest (nonzero : NoZeroDigest sha256) (data : List UInt8) :
    solverPy.countLeadingZeros (sha256 data).toList =
      8 * (leadingZeroBits (sha256 data).toList / 8) + 2 :=
  py_countLeadingZeros (by simpa using nonzero data)

theorem py_agrees_with_server_salt_iff :
    (∀ sha256, NoZeroDigest sha256 →
      Agrees sha256 (Solver.withServerSalt solverPy) nonce difficulty) ↔
        difficulty.toNat % 8 ≠ 1 ∧ difficulty.toNat % 8 ≠ 2 := by
  constructor
  · intro agrees
    have bound := difficulty.toNat_lt
    have zeros : leadingZeroBits (zeroBytes (difficulty.toNat / 8)).toList =
        8 * (difficulty.toNat / 8) := leadingZeroBits_zeroBytes ⟨difficulty.toNat / 8, by omega⟩
    have nonzero : NoZeroDigest fun _ => zeroBytes (difficulty.toNat / 8) := fun _ => by
      rw [zeros]
      omega
    have found := (agrees_iff py_speaksHex.withServerSalt).mp (agrees _ nonzero) 1 firstSolution
    rw [accepts_iff_leadingZeroBits nonzero, zeros] at found
    by_contra close
    have accepted := found (if_pos (decide_eq_true (by
      change _ ≤ solverPy.countLeadingZeros (zeroBytes (difficulty.toNat / 8)).toList
      rw [py_countLeadingZeros_digest nonzero [], zeros]
      omega)))
    omega
  · rintro ⟨notOne, notTwo⟩ sha256 nonzero
    refine (agrees_iff py_speaksHex.withServerSalt).mpr fun fuel solution found => ?_
    have enough : difficulty.toNat ≤ solverPy.countLeadingZeros
        (sha256 (preimage nonce.bytes solution)).toList :=
      of_decide_eq_true (searchFrom_enough found)
    rw [py_countLeadingZeros_digest nonzero] at enough
    rw [accepts_iff_leadingZeroBits nonzero]
    omega

end FaucetApi.Utils.Agreement
