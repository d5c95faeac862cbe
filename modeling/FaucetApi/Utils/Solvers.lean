/- module: FaucetApi/Utils/Solvers
   layer: source model
   digest: The solvers that the repository ships, in JavaScript and in Python. -/

import FaucetApi.Lib.Hex
import FaucetApi.Pow.Hash

/-!
Both solvers run the same search; they differ in how they write the salt, read the nonce, find a
byte's first one bit and print the solution. Numbers are unbounded in both languages, as far as
these programs use them.
-/

set_option autoImplicit false
set_option relaxedAutoImplicit false

namespace FaucetApi.Utils.Solvers

open FaucetApi.Lib.Hex
open FaucetApi.Pow.Hash

structure Solver where
  salt : List UInt8
  /-- The bytes of a nonce, or `none` where the program raises. -/
  decodeNonce : List Char → Option (List UInt8)
  /-- What a byte that is not zero adds to the count of leading zeros. -/
  firstOne : UInt8 → ℕ
  encodeSolution : List UInt8 → List Char

/-- The loop of `count_leading_zeros`, from what it has counted. -/
def countLeadingZerosFrom (firstOne : UInt8 → ℕ) (leadingZeros : ℕ) : List UInt8 → ℕ
  | [] => leadingZeros
  | byte :: data =>
      if byte = 0 then countLeadingZerosFrom firstOne (leadingZeros + 8) data
      else leadingZeros + firstOne byte

def Solver.countLeadingZeros (solver : Solver) (data : List UInt8) : ℕ :=
  countLeadingZerosFrom solver.firstOne 0 data

/-- The loop that increments the solution, from the byte before `i` down to the first. -/
def incrementFrom : (i : ℕ) → i ≤ 8 → Solution → Solution
  | 0, _, solution => solution
  | i + 1, bound, solution =>
      if solution[i] < 0xff then solution.set i (solution[i] + 1)
      else incrementFrom i (Nat.le_of_succ_le bound) (solution.set i 0)

def increment (solution : Solution) : Solution := incrementFrom 8 le_rfl solution

/-- The search loop: at most `fuel` rounds of it, and `none` if they did not find a solution. -/
def searchFrom (enough : Solution → Bool) : ℕ → Solution → Option Solution
  | 0, _ => none
  | fuel + 1, solution =>
      if enough solution then some solution else searchFrom enough fuel (increment solution)

def firstSolution : Solution := Vector.replicate 8 0

/-- `count_leading_zeros(sha256(salt + nonce + solution)) >= difficulty`. -/
def Solver.enough (solver : Solver) (sha256 : Sha256) (nonce : List UInt8) (difficulty : ℕ)
    (solution : Solution) : Bool :=
  difficulty ≤
    solver.countLeadingZeros (sha256 (solver.salt ++ nonce ++ solution.toList)).toList

def Solver.findSolution (solver : Solver) (sha256 : Sha256) (nonce : List Char) (difficulty : ℕ)
    (fuel : ℕ) : Option (List Char) :=
  (solver.decodeNonce nonce).bind fun nonce =>
    (searchFrom (solver.enough sha256 nonce difficulty) fuel firstSolution).map
      fun solution => solver.encodeSolution solution.toList

/-! `utils/html-solver/static/solver.js`. -/

/-- `nonce.match(/.{1,2}/g)`. -/
def chunksOfTwo : List Char → List (List Char)
  | [] => []
  | [c] => [[c]]
  | c :: d :: text => [c, d] :: chunksOfTwo text

/-- `parseInt(byte, 16)`, where `NaN` becomes `0` in a `Uint8Array`. The page accepts hexadecimal
digits only, so there is no sign and no blank. -/
def parseIntHex (chunk : List Char) : ℕ :=
  (chunk.map digitValue |>.takeWhile Option.isSome).foldl (fun n d => 16 * n + d.getD 0) 0

/-- `byte.toString(2).padStart(8, '0').indexOf('1')`. -/
def jsFirstOne (byte : UInt8) : ℕ :=
  ((Nat.toDigits 2 byte.toNat).leftpad 8 '0').idxOf '1'

/-- `byte.toString(16).padStart(2, '0')`. -/
def jsEncodeByte (byte : UInt8) : List Char := (Nat.toDigits 16 byte.toNat).leftpad 2 '0'

def solverJs : Solver where
  salt := [0x73, 0x74, 0x72, 0x61, 0x74, 0x61, 0x20, 0x66, 0x61, 0x75, 0x63, 0x65, 0x74, 0x20,
    0x32, 0x30, 0x32, 0x34]
  decodeNonce := fun nonce => some ((chunksOfTwo nonce).map fun chunk =>
    UInt8.ofNat (parseIntHex chunk))
  firstOne := jsFirstOne
  encodeSolution := fun solution => solution.flatMap jsEncodeByte

/-! `utils/solver.py`. -/

/-- `bin(byte).find('1')`: the position in a text that begins with `0b`. -/
def pyFirstOne (byte : UInt8) : ℕ := ('0' :: 'b' :: Nat.toDigits 2 byte.toNat).idxOf '1'

def solverPy : Solver where
  salt := (decode "737472617461206661756365742032303234".toList).getD []
  decodeNonce := decode
  firstOne := pyFirstOne
  encodeSolution := encode

theorem salts_same : solverJs.salt = asciiBytes "strata faucet 2024" ∧
    solverPy.salt = asciiBytes "strata faucet 2024" := by decide

theorem searchFrom_enough {enough : Solution → Bool} {fuel : ℕ} {start solution : Solution}
    (found : searchFrom enough fuel start = some solution) : enough solution = true := by
  induction fuel generalizing start with
  | zero => cases found
  | succ fuel ih =>
      rw [searchFrom] at found
      split at found
      · rename_i here
        exact Option.some.inj found ▸ here
      · exact ih found

theorem findSolution_eq_search {solver : Solver} {nonce : List Char} {bytes : List UInt8}
    (reads : solver.decodeNonce nonce = some bytes)
    (prints : ∀ bytes, solver.encodeSolution bytes = encode bytes) (sha256 : Sha256)
    (difficulty fuel : ℕ) :
    solver.findSolution sha256 nonce difficulty fuel =
      (searchFrom (solver.enough sha256 bytes difficulty) fuel firstSolution).map
        fun solution => encode solution.toList := by
  rw [Solver.findSolution, reads, Option.bind_some]
  simp only [prints]

private theorem parseIntHex_pair {high low : Char} {h l : ℕ} (highDigit : digitValue high = some h)
    (lowDigit : digitValue low = some l) : parseIntHex [high, low] = 16 * h + l := by
  simp [parseIntHex, highDigit, lowDigit]

/-- Where Python accepts a nonce, JavaScript reads the same bytes. -/
theorem js_decodeNonce {chars : List Char} {bytes : List UInt8}
    (spelled : decode chars = some bytes) : solverJs.decodeNonce chars = some bytes := by
  induction chars using decode.induct generalizing bytes with
  | case1 =>
      obtain rfl := Option.some.inj spelled
      rfl
  | case2 => cases spelled
  | case3 high low text h l rest restBytes lowDigit highDigit ih =>
      simp only [decode, highDigit, lowDigit, restBytes] at spelled
      obtain rfl := Option.some.inj spelled
      have tail := Option.some.inj (ih restBytes)
      change some (UInt8.ofNat (parseIntHex [high, low]) ::
        (chunksOfTwo text).map fun chunk => UInt8.ofNat (parseIntHex chunk)) = _
      rw [tail, parseIntHex_pair highDigit lowDigit]
  | case4 high low text refused ih =>
      rw [decode] at spelled
      split at spelled
      · exact (refused _ _ _ ‹_› ‹_› ‹_›).elim
      · cases spelled

theorem js_encodeSolution (bytes : List UInt8) : solverJs.encodeSolution bytes = encode bytes := by
  have same : ∀ byte, jsEncodeByte byte = encodeByte byte := forall_byte (by decide +kernel)
  change bytes.flatMap jsEncodeByte = bytes.flatMap encodeByte
  rw [funext same]

/-! The counts, against the number of zero bits. -/

/-- JavaScript pads a byte to eight digits and finds the first one bit. Python does not pad it, so
the first one comes right after the `0b` of every byte. -/
theorem firstOne_spec {byte : UInt8} (nonzero : byte ≠ 0) :
    jsFirstOne byte = (byteLeadingZeros byte).toNat ∧ pyFirstOne byte = 2 := by
  revert byte
  apply forall_byte
  decide +kernel

theorem js_countLeadingZeros (data : List UInt8) :
    solverJs.countLeadingZeros data = leadingZeroBits data := by
  have loop (leadingZeros : ℕ) : countLeadingZerosFrom jsFirstOne leadingZeros data =
      leadingZeros + leadingZeroBits data := by
    induction data generalizing leadingZeros with
    | nil => rfl
    | cons byte data ih =>
        by_cases zero : byte = 0
        · subst zero
          rw [countLeadingZerosFrom, if_pos rfl, ih, leadingZeroBits_zero_cons]
          omega
        · rw [countLeadingZerosFrom, if_neg zero, leadingZeroBits_cons zero,
            (firstOne_spec zero).1]
  exact (loop 0).trans (Nat.zero_add _)

theorem py_countLeadingZeros {data : List UInt8}
    (nonzero : leadingZeroBits data < 8 * data.length) :
    solverPy.countLeadingZeros data = 8 * (leadingZeroBits data / 8) + 2 := by
  have loop (leadingZeros : ℕ) : countLeadingZerosFrom pyFirstOne leadingZeros data =
      leadingZeros + (8 * (leadingZeroBits data / 8) + 2) := by
    induction data generalizing leadingZeros with
    | nil => simp [leadingZeroBits] at nonzero
    | cons byte data ih =>
        by_cases zero : byte = 0
        · subst zero
          rw [leadingZeroBits_zero_cons, List.length_cons] at nonzero
          rw [countLeadingZerosFrom, if_pos rfl, ih (by omega), leadingZeroBits_zero_cons]
          omega
        · have short := (byteLeadingZeros_spec zero).2
          rw [countLeadingZerosFrom, if_neg zero, leadingZeroBits_cons zero,
            (firstOne_spec zero).2]
          omega
  exact (loop 0).trans (Nat.zero_add _)

theorem countLeadingZeros_zeros (solver : Solver) :
    solver.countLeadingZeros (Vector.replicate 32 (0 : UInt8)).toList = 256 := rfl

end FaucetApi.Utils.Solvers
