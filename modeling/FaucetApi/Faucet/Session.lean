/- module: FaucetApi/Faucet/Session
   layer: results
   digest: A client asks for a challenge, solves it and claims, across components and formats. -/

import FaucetApi.Faucet.Handlers
import FaucetApi.Utils.Agreement

set_option autoImplicit false
set_option relaxedAutoImplicit false

namespace FaucetApi.Faucet.Session

open FaucetApi.Lib.Hex
open FaucetApi.Pow.Hash
open FaucetApi.Pow.Challenges
open FaucetApi.Pow.Claims
open FaucetApi.Pow.Machine
open FaucetApi.Pow.Consumption
open FaucetApi.Pow.Leasing
open FaucetApi.Pow.Sequential
open FaucetApi.Startup
open FaucetApi.L2.Units
open FaucetApi.Faucet.Handlers
open FaucetApi.Utils.Solvers (Solver solverJs)
open FaucetApi.Utils.Agreement

/-- Where a client wants to be paid. -/
inductive Payee where
  | l1 (address : UncheckedL1Address)
  | l2 (address : L2Address)

def Payee.chain : Payee → Chain
  | .l1 _ => .l1
  | .l2 _ => .l2

def Payee.level : Payee → String
  | .l1 _ => "l1"
  | .l2 _ => "l2"

def Payee.request (ip : Ipv4Addr) (solution : HexText 8) : Payee → Request
  | .l1 address => .claimL1 (.v4 ip) solution address
  | .l2 address => .claimL2 (.v4 ip) solution address

def Payee.claim (ip : Ipv4Addr) (solution : HexText 8) : Payee → Claim
  | .l1 address => .l1 ip solution.bytes address
  | .l2 address => .l2 ip solution.bytes address

variable {IpSrc : Type} {server : Server IpSrc} {world : World} {id : CallId} {sh sh' : Shared}
variable {ip : Ipv4Addr} {payee : Payee} {solution : HexText 8} {c given : Challenge}
variable {outcome : Outcome (Reply Response)} {provided : ProvidedChallenge}
variable {challengeSet : ChallengeSet} {key : Key} {sha256 : Sha256}

private theorem payee_chain (payee : Payee) : chainTryFrom payee.level = .ok payee.chain := by
  cases payee <;> rfl

private theorem payee_key : (payee.claim ip solution).key = keyOf ip payee.chain := by
  cases payee <;> rfl

private theorem payee_solution : (payee.claim ip solution).solution = solution.bytes := by
  cases payee <;> rfl

private theorem handle_request : handle server world id sh (payee.request ip solution) =
    some ((claimFrom server.env id world.sendTransaction sh (payee.claim ip solution)).map
      respond) := by
  cases payee <;> rfl

/-! `check_solution` on a challenge that is stored. -/

private theorem checkSolution_marks (present : challengeSet key = some c)
    (unclaimed : c.claimed = false)
    (bytes : Solution) : checkSolution sha256 challengeSet key bytes =
      (checkHash sha256 c bytes, Function.update challengeSet key (some c.markClaimed)) := by
  have read := checkRead_ok.mpr ⟨present, unclaimed⟩
  have swapped := checkCas_ok.mpr ⟨present, rfl⟩
  simp only [checkSolution, read, swapped]

private theorem checkSolution_refuses (present : challengeSet key = some c)
    (claimed : c.claimed = true)
    (bytes : Solution) :
    checkSolution sha256 challengeSet key bytes = (.error .alreadyClaimed, challengeSet) := by
  have read := checkRead_error.mpr (.inr ⟨c, present, claimed, rfl⟩)
  simp only [checkSolution, read]

/-! What a request for a challenge hands out. -/

private theorem addChallenge_challengeSet (sh : Shared) (ip : Ipv4Addr) (chain : Chain)
    (c : Challenge) :
    (addChallenge sh ip chain c).challengeSet = sh.challengeSet := by
  unfold addChallenge
  dsimp only
  split <;> rfl

private theorem offerChallenge_stored {chain : Chain} (unclaimed : c.claimed = false)
    (offered : offerChallenge sh ip chain c = some (given, sh')) :
    sh'.challengeSet (keyOf ip chain) = some given ∧
      (given.claimed = false ∨ sh.challengeSet (keyOf ip chain) = some given) := by
  rcases offerChallenge_cases sh ip chain c with
    ⟨challengeSet', swapped, result⟩ | ⟨found, failed, result⟩
  · obtain ⟨rfl, rfl⟩ := Prod.mk.inj (Option.some.inj (result.symm.trans offered))
    obtain ⟨_, _, rfl⟩ := getCas_ok.mp swapped
    rw [addChallenge_challengeSet]
    exact ⟨Function.update_self _ _ _, .inl unclaimed⟩
  · obtain ⟨rfl, rfl⟩ := Prod.mk.inj (Option.some.inj (result.symm.trans offered))
    have stored := (getCas_error.mp failed).1
    exact ⟨stored, .inr stored⟩

theorem provided_get
    (asked : handle server world id sh (.getPowChallenge (.v4 ip) payee.level) = some outcome)
    (got : outcome.result = .ok (.challenge provided)) :
    ∃ given difficulty duration,
      offerChallenge sh ip payee.chain (candidate world.nonce sh.now difficulty duration) =
        some (given, outcome.shared) ∧
      provided = ⟨.ofBytes given.nonce, given.difficulty⟩ := by
  simp only [handle, getPowChallenge, payee_chain] at asked
  split at asked
  · cases asked
  · obtain rfl := Option.some.inj asked
    cases got
  · obtain ⟨⟨given, sh'⟩, get, rfl⟩ := Option.map_eq_some_iff.mp asked
    cases got
    exact ⟨given, _, _, (challengeGet_eq_some.mp get).2, rfl⟩

/-- The challenge as it stands for the client: stored, and the one that it was provided with. -/
structure Holds (sh : Shared) (ip : Ipv4Addr) (chain : Chain) (provided : ProvidedChallenge)
    (claimed : Bool) (c : Challenge) : Prop where
  stored : sh.challengeSet (keyOf ip chain) = some c
  same : provided = ⟨.ofBytes c.nonce, c.difficulty⟩
  state : c.claimed = claimed

private theorem holds_of_asked
    (unclaimed : ∀ c, sh.challengeSet (keyOf ip payee.chain) = some c → c.claimed = false)
    (asked : handle server world id sh (.getPowChallenge (.v4 ip) payee.level) = some outcome)
    (got : outcome.result = .ok (.challenge provided)) :
    ∃ c, Holds outcome.shared ip payee.chain provided false c := by
  obtain ⟨given, difficulty, duration, offered, same⟩ := provided_get asked got
  obtain ⟨stored, free⟩ := offerChallenge_stored rfl offered
  exact ⟨given, stored, same, free.elim (fun fresh => fresh) (unclaimed given)⟩

def marked (sh : Shared) (ip : Ipv4Addr) (chain : Chain) (c : Challenge) : Shared :=
  { sh with
    challengeSet := Function.update sh.challengeSet (keyOf ip chain) (some c.markClaimed) }

theorem paid_of_solved (world : World) (id : CallId) (solution : HexText 8)
    (holds : Holds sh ip payee.chain provided false c)
    (solved : checkHash server.sha256 c solution.bytes = .ok ()) :
    Holds (marked sh ip payee.chain c) ip payee.chain provided true c.markClaimed ∧
      handle server world id sh (payee.request ip solution) =
        some ((settle server.env id world.sendTransaction (marked sh ip payee.chain c)
          (payee.claim ip solution)).map respond) := by
  have verdict : checkHash server.env.sha256 c (payee.claim ip solution).solution = .ok () := by
    rw [payee_solution]
    exact solved
  refine ⟨⟨Function.update_self _ _ _, holds.same, rfl⟩, ?_⟩
  rw [handle_request, claimFrom, payee_key, checkSolution_marks holds.stored holds.state, verdict]
  rfl

theorem refused_of_claimed (world : World) (id : CallId) (solution : HexText 8)
    (holds : Holds sh ip payee.chain provided true c) :
    handle server world id sh (payee.request ip solution) =
      some (.unpaid (respond (refusal .alreadyClaimed)) sh) := by
  rw [handle_request, claimFrom, payee_key, checkSolution_refuses holds.stored holds.state]
  rfl

theorem provided_again {claimed : Bool} {again : ProvidedChallenge}
    (holds : Holds sh ip payee.chain provided claimed c)
    (asked : handle server world id sh (.getPowChallenge (.v4 ip) payee.level) = some outcome)
    (got : outcome.result = .ok (.challenge again)) :
    again = provided ∧ outcome.shared = sh := by
  obtain ⟨given, difficulty, duration, offered, same⟩ := provided_get asked got
  rcases offerChallenge_cases sh ip payee.chain
      (candidate world.nonce sh.now difficulty duration) with
    ⟨challengeSet', swapped, _⟩ | ⟨found, failed, result⟩
  · have absent := (getCas_ok.mp swapped).1
    simp [holds.stored] at absent
  · obtain ⟨rfl, unchanged⟩ := Prod.mk.inj (Option.some.inj (result.symm.trans offered))
    have stored := (getCas_error.mp failed).1
    obtain rfl := Option.some.inj (stored.symm.trans holds.stored)
    exact ⟨same.trans holds.same.symm, unchanged.symm⟩

private theorem settled_shared (env : Env) (sendTransaction : Option String) (claim : Claim) :
    ((settle env id sendTransaction sh claim).map respond).shared = sh := by
  unfold settle
  split
  · split <;> rfl
  · split <;> rfl

theorem Holds.kept {chain : Chain} {claimed : Bool} (holds : Holds sh ip chain provided claimed c)
    (kept : sh'.challengeSet (keyOf ip chain) = sh.challengeSet (keyOf ip chain)) :
    Holds sh' ip chain provided claimed c := ⟨kept.trans holds.stored, holds.same, holds.state⟩

/-- A client whose challenge is not claimed asks for it, runs any solver that agrees with the server
about this challenge, and sends back the text that it returns. The text is a well-formed solution,
and whatever has happened meanwhile to other challenges, the claim passes `check_solution` and is
settled. From then on, for as long as the challenge is stored, every further claim is refused
without any effect, and every further request provides the same challenge again. -/
theorem sessions_are_paid_once (payee : Payee) {solver : Solver} {fuel : ℕ} {text : List Char}
    {first : Outcome (Reply Response)}
    (unclaimed : ∀ c, sh.challengeSet (keyOf ip payee.chain) = some c → c.claimed = false)
    (asked : handle server world id sh (.getPowChallenge (.v4 ip) payee.level) = some first)
    (got : first.result = .ok (.challenge provided))
    (agrees : Agrees server.sha256 solver provided.nonce provided.difficulty)
    (solved : solver.findSolution server.sha256 provided.nonce.chars provided.difficulty.toNat
      fuel = some text) :
    ∃ solution : HexText 8, solution.chars = text ∧
      ∀ sh₁ world₁ id₁, sh₁.challengeSet (keyOf ip payee.chain) =
          first.shared.challengeSet (keyOf ip payee.chain) →
        ∃ paid, handle server world₁ id₁ sh₁ (payee.request ip solution) = some paid ∧
          paid = (settle server.env id₁ world₁.sendTransaction paid.shared
            (payee.claim ip solution)).map respond ∧
          ∀ sh₂ world₂ id₂, sh₂.challengeSet (keyOf ip payee.chain) =
              paid.shared.challengeSet (keyOf ip payee.chain) →
            (∀ other, handle server world₂ id₂ sh₂ (payee.request ip other) =
              some (.unpaid (respond (refusal .alreadyClaimed)) sh₂)) ∧
            ∀ again third, handle server world₂ id₂ sh₂
                (.getPowChallenge (.v4 ip) payee.level) = some third →
              third.result = .ok (.challenge again) → again = provided ∧ third.shared = sh₂ := by
  obtain ⟨c, holds⟩ := holds_of_asked unclaimed asked got
  obtain ⟨bytes, spelled, accepts⟩ := agrees fuel text solved
  refine ⟨⟨text, bytes, spelled⟩, rfl, fun sh₁ world₁ id₁ kept => ?_⟩
  have held := holds.kept kept
  have verdict : checkHash server.sha256 c bytes = .ok () := by
    have nonce : c.nonce = provided.nonce.bytes := by rw [holds.same]; rfl
    have difficulty : c.difficulty = provided.difficulty := by rw [holds.same]
    have ok := accepts sh₁.challengeSet (keyOf ip payee.chain) c held.stored held.state nonce
      difficulty
    rwa [checkSolution_marks held.stored held.state] at ok
  obtain ⟨after, settled⟩ := paid_of_solved world₁ id₁ ⟨text, bytes, spelled⟩ held verdict
  refine ⟨_, settled, ?_, fun sh₂ world₂ id₂ kept₂ => ?_⟩
  · rw [settled_shared]
  · rw [settled_shared] at kept₂
    have claimed := after.kept kept₂
    exact ⟨fun other => refused_of_claimed world₂ id₂ other claimed,
      fun again third asked₂ got₂ => provided_again claimed asked₂ got₂⟩

/-- The sample server, on a hash function by which every solution has 64 leading zero bits. -/
def easyServer : Server Unit := { sampleServer with sha256 := fun _ => zeroBytes 8 }

private theorem easy_noZeroDigest : NoZeroDigest easyServer.sha256 := by
  intro data
  change leadingZeroBits (zeroBytes 8).toList < 256
  decide +kernel

theorem sessions_are_paid_once_nonvacuous : ∃ first paid : Outcome (Reply Response),
    ∃ solution : HexText 8, solution.chars = "0000000000000000".toList ∧
      handle easyServer sampleWorld 0 (startedAt 0).shared
        (.getPowChallenge (.v4 localIp) "l1") = some first ∧
      handle easyServer sampleWorld 1 first.shared
        (.claimL1 (.v4 localIp) solution ⟨"tb1q"⟩) = some paid ∧
      paid.queued = [⟨1, ⟨"tb1q"⟩, 10000⟩] := by
  have difficulty : difficultyFor easyServer sampleWorld .l1 = some (.ok 64) := by decide +kernel
  have asked : ∃ sh', handle easyServer sampleWorld 0 (startedAt 0).shared
      (.getPowChallenge (.v4 localIp) (Payee.level (.l1 ⟨"tb1q"⟩))) =
        some (.unpaid (provide (candidate (Vector.replicate 16 7) 0 64 (fromSecs 120))) sh') := by
    simp only [handle, getPowChallenge, payee_chain, Payee.chain, difficulty]
    exact ⟨_, rfl⟩
  have solved : (Solver.withServerSalt solverJs).findSolution easyServer.sha256
      (HexText.ofBytes (Vector.replicate 16 7)).chars (64 : UInt8).toNat 1 =
        some "0000000000000000".toList := by decide +kernel
  obtain ⟨sh', asked⟩ := asked
  obtain ⟨solution, text, session⟩ := sessions_are_paid_once (.l1 ⟨"tb1q"⟩) (by simp [startedAt])
    asked rfl (js_agrees_with_server_salt easy_noZeroDigest) solved
  obtain ⟨paid, claimed, settled, _⟩ := session _ sampleWorld 1 rfl
  exact ⟨_, paid, solution, text, asked, claimed, by rw [settled]; rfl⟩

end FaucetApi.Faucet.Session
