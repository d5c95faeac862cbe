/- module: FaucetApi/Pow/Claims
   layer: source model
   digest: The requests of claim_l1 and claim_l2, their answers and what they pay out. -/

import FaucetApi.Pow.Challenges

set_option autoImplicit false
set_option relaxedAutoImplicit false

namespace FaucetApi.Pow.Claims

open FaucetApi.Pow.Hash
open FaucetApi.Pow.Challenges

/-- A number that tells one handler call from another. -/
abbrev CallId := ℕ

abbrev Amount := ℕ

/-- `Address<NetworkUnchecked>`. -/
structure UncheckedL1Address where
  text : String
  deriving DecidableEq, Repr

structure L1Address where
  text : String
  deriving DecidableEq, Repr

structure L2Address where
  text : String
  deriving DecidableEq, Repr

/-- What the handlers read from the settings, and the library functions they call. -/
structure Env where
  sha256 : Sha256
  /-- `require_network(SETTINGS.network)`. -/
  requireNetwork : UncheckedL1Address → Option L1Address
  l1AmountPerClaim : Amount
  l2AmountPerClaim : Amount

/-- A call of `claim_l1` or `claim_l2` from an IPv4 client. -/
inductive Claim where
  | l1 (ip : Ipv4Addr) (solution : Solution) (address : UncheckedL1Address)
  | l2 (ip : Ipv4Addr) (solution : Solution) (address : L2Address)
  deriving DecidableEq

def Claim.chain : Claim → Chain
  | .l1 _ _ _ => .l1
  | .l2 _ _ _ => .l2

def Claim.ip : Claim → Ipv4Addr
  | .l1 ip _ _ => ip
  | .l2 ip _ _ => ip

def Claim.solution : Claim → Solution
  | .l1 _ solution _ => solution
  | .l2 _ solution _ => solution

def Claim.key (claim : Claim) : Key := keyOf claim.ip claim.chain

inductive StatusCode where
  | badRequest
  | internalServerError
  deriving DecidableEq, Repr

abbrev Answer := Except (StatusCode × String) String

/-- How both handlers answer an error of `check_solution`. -/
def refusal (e : CheckError) : Answer := .error (.badRequest, e.display)

def wrongNetwork : Answer := .error (.badRequest, "wrong address network type")

def sendError : Answer := .error (.internalServerError, "error sending tx")

/-- The request that `claim_l1` queues. `call` is the handler call that queued it; the source has
no such field, here it only tells requests with equal contents apart. -/
structure L1PayoutRequest where
  call : CallId
  address : L1Address
  amount : Amount
  deriving DecidableEq

def SATS_TO_WEI : ℕ := 10 ^ 18 / 100000000

/-- The transaction request that `claim_l2` sends. -/
structure TransactionRequest where
  toAddress : L2Address
  value : ℕ
  deriving DecidableEq

/-- The product is a `u64`, which wraps in the release profile. -/
def l2Transaction (env : Env) (address : L2Address) : TransactionRequest :=
  ⟨address, env.l2AmountPerClaim * SATS_TO_WEI % 2 ^ 64⟩

end FaucetApi.Pow.Claims
