/- module: FaucetApi/SavableSeed
   layer: results
   digest: The seed file over any sequence of starts, and when no start replaces the seed. -/

import FaucetApi.Lib.Runs

set_option autoImplicit false
set_option relaxedAutoImplicit false

namespace FaucetApi.SavableSeed

open FaucetApi.Lib.Runs

abbrev Seed := Vector UInt8 32

abbrev IoError := Unit

/-- What is at `seed_file`: the bytes of a file, or nothing. -/
abbrev Disk := Option (List UInt8)

/-- How a write ends: done, refused before the file was touched, or broken off after it was
truncated and some bytes were written. -/
inductive WriteOutcome where
  | done
  | refused
  | cut (written : ℕ)

/-- The outcomes of the operations that one call may perform, and the seed that it would draw. -/
structure Attempt where
  testSucceeds : Bool
  readSucceeds : Bool
  drawn : Seed
  writeOutcome : WriteOutcome

/-- `Path::exists`, which answers false where the test fails. -/
def pathExists (disk : Disk) (attempt : Attempt) : Bool :=
  attempt.testSucceeds && disk.isSome

def readFile (disk : Disk) (attempt : Attempt) : Except IoError (List UInt8) :=
  match disk with
  | some bytes => if attempt.readSucceeds then .ok bytes else .error ()
  | none => .error ()

def writeFile (disk : Disk) (bytes : List UInt8) : WriteOutcome → Except IoError Unit × Disk
  | .done => (.ok (), some bytes)
  | .refused => (.error (), disk)
  | .cut written => (.error (), some (bytes.take written))

/-- `bytes.try_into()`. -/
def tryIntoSeed (bytes : List UInt8) : Option Seed :=
  if fits : bytes.length = 32 then some ⟨bytes.toArray, by simpa using fits⟩ else none

def save (disk : Disk) (me : Seed) (attempt : Attempt) : Except IoError Unit × Disk :=
  writeFile disk me.toList attempt.writeOutcome

def read (disk : Disk) (attempt : Attempt) : Except IoError (Option Seed) :=
  if pathExists disk attempt then (readFile disk attempt).map tryIntoSeed else .ok none

def loadOrCreate (disk : Disk) (attempt : Attempt) : Except IoError Seed × Disk :=
  match read disk attempt with
  | .ok (some me) => (.ok me, disk)
  | _ =>
      match save disk attempt.drawn attempt with
      | (.error e, disk') => (.error e, disk')
      | (.ok (), disk') => (.ok attempt.drawn, disk')

def diskAfter (disk : Disk) (attempt : Attempt) : Disk := (loadOrCreate disk attempt).2

/-- The seeds that the successful calls of a sequence return. -/
def seeds (disk : Disk) : List Attempt → List Seed
  | [] => []
  | attempt :: attempts =>
      match loadOrCreate disk attempt with
      | (.ok seed, disk') => seed :: seeds disk' attempts
      | (.error _, disk') => seeds disk' attempts

/-- A call leaves a file as it is and returns nothing but its bytes, and a call that succeeds
without a file leaves one with the seed that it returns. -/
def SeedKept (disk : Disk) (attempt : Attempt) : Prop :=
  match disk with
  | some bytes => (loadOrCreate disk attempt).2 = some bytes ∧
      ∀ seed, (loadOrCreate disk attempt).1 = .ok seed → seed.toList = bytes
  | none => ∀ seed, (loadOrCreate disk attempt).1 = .ok seed →
      (loadOrCreate disk attempt).2 = some seed.toList

/-- The file can be seen and read and has the length of a seed. -/
def Readable (bytes : List UInt8) (attempt : Attempt) : Prop :=
  attempt.testSucceeds = true ∧ attempt.readSucceeds = true ∧ bytes.length = 32

/-- A write of the drawn seed is refused, or happens to leave the very bytes that were there. -/
def LeavesAlone (bytes : List UInt8) (attempt : Attempt) : Prop :=
  match attempt.writeOutcome with
  | .done => attempt.drawn.toList = bytes
  | .refused => True
  | .cut written => attempt.drawn.toList.take written = bytes

def Undisturbed (disk : Disk) (attempt : Attempt) : Prop :=
  ∀ bytes, disk = some bytes → Readable bytes attempt ∨ LeavesAlone bytes attempt

variable {disk : Disk} {attempt : Attempt} {bytes : List UInt8} {seed : Seed}

private theorem tryIntoSeed_eq_some : tryIntoSeed bytes = some seed ↔ seed.toList = bytes := by
  unfold tryIntoSeed
  split <;> rename_i fits
  · rw [Option.some.injEq]
    constructor
    · intro same
      simp [← same]
    · intro same
      apply Vector.toList_inj.mp
      simp [same]
  · refine iff_of_false nofun ?_
    intro same
    exact fits (by rw [← same, Vector.length_toList])

theorem read_loads :
    read disk attempt = .ok (some seed) ↔
      disk = some seed.toList ∧ attempt.testSucceeds = true ∧ attempt.readSucceeds = true := by
  cases disk with
  | none => simp [read, pathExists]
  | some bytes =>
      cases test : attempt.testSucceeds <;> cases reads : attempt.readSucceeds <;>
        simp [read, pathExists, readFile, Except.map, test, reads, tryIntoSeed_eq_some]
      rw [eq_comm]

theorem loadOrCreate_loads (loads : read disk attempt = .ok (some seed)) :
    loadOrCreate disk attempt = (.ok seed, disk) := by
  simp [loadOrCreate, loads]

theorem loadOrCreate_creates (fails : ∀ seed, read disk attempt ≠ .ok (some seed)) :
    loadOrCreate disk attempt =
      ((save disk attempt.drawn attempt).1.map fun _ => attempt.drawn,
        (save disk attempt.drawn attempt).2) := by
  unfold loadOrCreate
  split
  · rename_i me loads
    exact (fails me loads).elim
  · rcases save disk attempt.drawn attempt with ⟨_ | _, disk'⟩ <;> rfl

private theorem seedKept_none : SeedKept none attempt := by
  have fails : ∀ seed, read none attempt ≠ .ok (some seed) := by
    intro seed loads
    cases (read_loads.mp loads).1
  intro seed
  rw [loadOrCreate_creates fails]
  cases outcome : attempt.writeOutcome <;> simp [save, writeFile, outcome, Except.map]
  intro same
  rw [same]

private theorem seedKept_some : SeedKept (some bytes) attempt ↔
    Readable bytes attempt ∨ LeavesAlone bytes attempt := by
  unfold SeedKept
  by_cases loads : ∃ seed, read (some bytes) attempt = .ok (some seed)
  · obtain ⟨seed, loads⟩ := loads
    obtain ⟨there, test, reads⟩ := read_loads.mp loads
    obtain rfl := Option.some.inj there
    rw [loadOrCreate_loads loads]
    refine iff_of_true ⟨rfl, ?_⟩ (.inl ⟨test, reads, seed.length_toList⟩)
    intro _ same
    rw [Except.ok.inj same]
  · have unreadable : ¬ Readable bytes attempt := by
      rintro ⟨test, reads, fits⟩
      refine loads ⟨⟨bytes.toArray, by simpa using fits⟩, read_loads.mpr ⟨?_, test, reads⟩⟩
      simp
    rw [loadOrCreate_creates (not_exists.mp loads), or_iff_right unreadable]
    cases outcome : attempt.writeOutcome <;>
      simp [save, writeFile, LeavesAlone, outcome, Except.map]

theorem seedKept_iff : SeedKept disk attempt ↔ Undisturbed disk attempt := by
  cases disk with
  | none => exact iff_of_true seedKept_none nofun
  | some bytes => simp [seedKept_some, Undisturbed]

private theorem seeds_of_file {attempts : List Attempt}
    (kept : ∀ a attempt b, attempts = a ++ attempt :: b →
      SeedKept (a.foldl diskAfter (some bytes)) attempt) :
    ∀ seed ∈ seeds (some bytes) attempts, seed.toList = bytes := by
  induction attempts with
  | nil => simp [seeds]
  | cons attempt attempts ih =>
      obtain ⟨⟨stays, returns⟩, later⟩ := foldl_cut_cons.mp kept
      intro seed member
      unfold seeds at member
      unfold diskAfter at later
      rcases called : loadOrCreate (some bytes) attempt with ⟨result, disk'⟩
      rw [called] at stays returns later member
      obtain rfl := stays
      cases result with
      | error _ => exact ih later seed member
      | ok first =>
          rcases List.mem_cons.mp member with rfl | member
          · exact returns seed rfl
          · exact ih later seed member

private theorem seeds_agree {attempts : List Attempt}
    (kept : ∀ a attempt b, attempts = a ++ attempt :: b →
      SeedKept (a.foldl diskAfter disk) attempt) :
    ∀ seed ∈ seeds disk attempts, ∀ seed' ∈ seeds disk attempts, seed = seed' := by
  induction attempts generalizing disk with
  | nil => simp [seeds]
  | cons attempt attempts ih =>
      obtain ⟨first, later⟩ := foldl_cut_cons.mp kept
      unfold diskAfter at later
      rcases called : loadOrCreate disk attempt with ⟨result, disk'⟩
      rw [called] at later
      unfold seeds
      rw [called]
      cases result with
      | error _ => exact ih later
      | ok seed =>
          -- a successful call leaves its seed in the file, whether it found or created it
          have left : disk' = some seed.toList := by
            cases disk with
            | none => simpa [SeedKept, called] using first
            | some bytes =>
                obtain ⟨stays, returns⟩ := first
                rw [called] at stays returns
                rw [returns seed rfl]
                exact stays
          subst left
          have same : ∀ seed' ∈ seeds (some seed.toList) attempts, seed' = seed := by
            intro seed' member
            exact Vector.toList_inj.mp (seeds_of_file later seed' member)
          intro seed₁ member₁ seed₂ member₂
          have agree : ∀ seed' ∈ seed :: seeds (some seed.toList) attempts, seed' = seed :=
            List.forall_mem_cons.mpr ⟨rfl, same⟩
          rw [agree seed₁ member₁, agree seed₂ member₂]

/-- Over any sequence of calls the seed is kept exactly when no call with a file that it cannot
load gets to write. -/
theorem seed_never_replaced_iff (disk : Disk) (attempts : List Attempt) :
    ((∀ a attempt b, attempts = a ++ attempt :: b → SeedKept (a.foldl diskAfter disk) attempt) ∧
      ∀ seed ∈ seeds disk attempts, ∀ seed' ∈ seeds disk attempts, seed = seed') ↔
    ∀ a attempt b, attempts = a ++ attempt :: b →
      Undisturbed (a.foldl diskAfter disk) attempt := by
  simp only [← seedKept_iff]
  exact and_iff_left_of_imp seeds_agree

/-- The wallets' seed is in the file, a later start fails to read it, and the file then holds
another seed. -/
theorem seed_replaced :
    seeds (some (List.replicate 32 7))
        [⟨true, true, .replicate 32 1, .done⟩, ⟨true, false, .replicate 32 2, .done⟩] =
      [.replicate 32 7, .replicate 32 2] ∧
    ¬ SeedKept (some (List.replicate 32 7)) ⟨true, false, .replicate 32 2, .done⟩ := by
  refine ⟨by decide, ?_⟩
  rw [seedKept_some, not_or]
  constructor
  · intro readable
    exact absurd readable.2.1 (by decide)
  · intro alone
    change (Vector.replicate 32 (2 : UInt8)).toList = List.replicate 32 7 at alone
    exact absurd alone (by decide)

end FaucetApi.SavableSeed
