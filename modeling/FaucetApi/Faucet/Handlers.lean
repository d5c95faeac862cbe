/- module: FaucetApi/Faucet/Handlers
   layer: source model
   digest: The request handlers as functions, and as what the machine does without interference. -/

import FaucetApi.L2.Units
import FaucetApi.Lib.Hex
import FaucetApi.Pow.Leasing
import FaucetApi.Pow.Sequential

/-!
A request handler reads some of its surroundings, runs up to one call of `Challenge::get` or
`check_solution`, and replies. Extractors that fail reply before the handler begins, so a handler
sees solutions of eight bytes and well-formed addresses only. Sums of bytes wrap, as they do in the
release profile.
-/

set_option autoImplicit false
set_option relaxedAutoImplicit false

namespace FaucetApi.Faucet.Handlers

open FaucetApi.Lib.Runs
open FaucetApi.Lib.Simulation
open FaucetApi.Lib.Floating
open FaucetApi.Lib.Hex
open FaucetApi.Pow.Hash
open FaucetApi.Pow.Challenges
open FaucetApi.Pow.Claims
open FaucetApi.Pow.Machine
open FaucetApi.Pow.Threads
open FaucetApi.Pow.Consumption
open FaucetApi.Pow.Leasing
open FaucetApi.Pow.Sequential
open FaucetApi.Startup
open FaucetApi.L2.Units

/-- The status codes of the claims, and the one that only `get_pow_challenge` uses. -/
inductive Status where
  | of (code : StatusCode)
  | unprocessableEntity
  deriving DecidableEq, Repr

abbrev Reply (α : Type) := Except (Status × String) α

def chainTryFrom (level : String) : Reply Chain :=
  match level with
  | "l1" => .ok .l1
  | "l2" => .ok .l2
  | _ => .error (.of .badRequest, "Invalid chain. Must be 'l1' or 'l2'")

structure ProvidedChallenge where
  nonce : HexText 16
  difficulty : UInt8

/-- The settings, the state and the libraries behind the handlers, and the last instant that the
clock can represent. -/
structure Server (IpSrc : Type) where
  settings : Settings IpSrc
  state : AppState
  arithmetic : Arithmetic
  toU128 : U256 → Option ℕ
  sha256 : Sha256
  requireNetwork : Network → UncheckedL1Address → Option L1Address
  lastInstant : Instant

/-- What a handler is told while it runs: the nonce drawn, the two balances, and the hash of the
L2 transaction, if it could be sent. -/
structure World where
  nonce : Nonce
  trustedSpendable : Amount
  getBalance : Except RpcError U256
  sendTransaction : Option String

inductive Request where
  | getPowChallenge (ip : IpAddr) (chain : String)
  | claimL1 (ip : IpAddr) (solution : HexText 8) (address : UncheckedL1Address)
  | claimL2 (ip : IpAddr) (solution : HexText 8) (address : L2Address)
  | getBalance (chain : String)
  | getSatsPerClaim (chain : String)

inductive Response where
  | challenge (provided : ProvidedChallenge)
  | text (body : String)

variable {IpSrc : Type}

def Server.env (server : Server IpSrc) : Env :=
  server.settings.env server.sha256 server.requireNetwork

def Server.layerConfig (server : Server IpSrc) : Chain → LayerConfig
  | .l1 => server.settings.l1
  | .l2 => server.settings.l2

def provide (challenge : Challenge) : Reply Response :=
  .ok (.challenge ⟨.ofBytes challenge.nonce, challenge.difficulty⟩)

def respond : Answer → Reply Response
  | .ok body => .ok (.text body)
  | .error (code, text) => .error (.of code, text)

section

variable (server : Server IpSrc) (world : World) (id : CallId) (sh : Shared)

def difficultyFor (chain : Chain) : Option (Except (StatusCode × String) UInt8) :=
  challengeDifficulty server.arithmetic server.toU128 server.state chain world.trustedSpendable
    world.getBalance

/-- `none` where the conversion of the L2 balance or `Challenge::get` panics. -/
def getPowChallenge (ip : IpAddr) (chain : String) : Option (Outcome (Reply Response)) :=
  match chainTryFrom chain with
  | .error e => some (.unpaid (.error e) sh)
  | .ok chain =>
      match difficultyFor server world chain with
      | none => none
      | some (.error (code, text)) => some (.unpaid (.error (.of code, text)) sh)
      | some (.ok difficulty) =>
          match ip with
          | .v4 ip =>
              (challengeGet server.lastInstant sh ip chain world.nonce difficulty
                (server.layerConfig chain).challengeDuration).map
                fun (challenge, sh') => .unpaid (provide challenge) sh'
          | .v6 _ =>
              some (.unpaid (.error (.unprocessableEntity, "IPV6 is not supported at the moment"))
                sh)

def claimL1 (ip : IpAddr) (solution : HexText 8) (address : UncheckedL1Address) :
    Outcome (Reply Response) :=
  match ip with
  | .v4 ip =>
      (claimFrom server.env id world.sendTransaction sh (.l1 ip solution.bytes address)).map respond
  | .v6 _ => .unpaid (.error (.of .badRequest, "IPV6 is not supported at this time")) sh

def claimL2 (ip : IpAddr) (solution : HexText 8) (address : L2Address) :
    Outcome (Reply Response) :=
  match ip with
  | .v4 ip =>
      (claimFrom server.env id world.sendTransaction sh (.l2 ip solution.bytes address)).map respond
  | .v6 _ => .unpaid (.error (.of .badRequest, "IPV6 is not unavailable")) sh

def getBalance (chain : String) : Option (Reply Response) :=
  match chainTryFrom chain with
  | .error e => some (.error e)
  | .ok .l1 => some (.ok (.text (toString world.trustedSpendable)))
  | .ok .l2 => (getDefaultSignerBalance server.toU128 world.getBalance).map fun
      | .ok wei => .ok (.text (toString wei))
      | .error e => .error (.of .internalServerError, e)

def getSatsPerClaim (chain : String) : Reply Response :=
  (chainTryFrom chain).map fun level => .text (toString (server.layerConfig level).amountPerClaim)

def handle : Request → Option (Outcome (Reply Response))
  | .getPowChallenge ip chain => getPowChallenge server world sh ip chain
  | .claimL1 ip solution address => some (claimL1 server world id sh ip solution address)
  | .claimL2 ip solution address => some (claimL2 server world id sh ip solution address)
  | .getBalance chain => (getBalance server world chain).map (Outcome.unpaid · sh)
  | .getSatsPerClaim chain => some (.unpaid (getSatsPerClaim server chain) sh)

/-- The call of the machine that a request leads to, if its handler gets that far. -/
def Request.call : Request → Option Call
  | .getPowChallenge (.v4 ip) chain =>
      match chainTryFrom chain with
      | .error _ => none
      | .ok chain =>
          match difficultyFor server world chain with
          | some (.ok difficulty) =>
              if server.lastInstant < sh.now + (server.layerConfig chain).challengeDuration then
                none
              else
                some (.get ip chain world.nonce difficulty
                  (server.layerConfig chain).challengeDuration)
          | _ => none
  | .claimL1 (.v4 ip) solution address => some (.check (.l1 ip solution.bytes address))
  | .claimL2 (.v4 ip) solution address => some (.check (.l2 ip solution.bytes address))
  | _ => none

end

def replyOf : Pc → Option (Reply Response)
  | .got _ _ challenge => some (provide challenge)
  | .answered _ answer => some (respond answer)
  | _ => none

variable {server : Server IpSrc} {world : World} {id : CallId} {sh : Shared} {request : Request}
variable {call : Call} {outcome : Outcome (Reply Response)}

def answerTo (server : Server IpSrc) (id : CallId) (sendTransaction : Option String) (sh : Shared) :
    Call → Option (Outcome (Reply Response))
  | .get ip chain nonce difficulty duration =>
      (offerChallenge sh ip chain (candidate nonce sh.now difficulty duration)).map
        fun (challenge, sh') => .unpaid (provide challenge) sh'
  | .check claim => some ((claimFrom server.env id sendTransaction sh claim).map respond)

private theorem handle_of_call (made : request.call server world sh = some call)
    (sendTransaction : Option String) :
    handle server { world with sendTransaction := sendTransaction } id sh request =
      answerTo server id sendTransaction sh call := by
  cases request with
  | getPowChallenge ip level =>
      cases ip with
      | v6 _ => cases made
      | v4 ip =>
          cases parsed : chainTryFrom level with
          | error e => simp [Request.call, parsed] at made
          | ok chain =>
              have same : difficultyFor server { world with sendTransaction := sendTransaction }
                chain = difficultyFor server world chain := rfl
              simp only [Request.call, parsed] at made
              split at made
              · rename_i difficulty computed
                split_ifs at made with late
                obtain rfl := Option.some.inj made
                simp only [handle, getPowChallenge, parsed, same, computed, answerTo, challengeGet,
                  if_neg late]
              · cases made
  | claimL1 ip solution address =>
      cases ip with
      | v6 _ => cases made
      | v4 ip =>
          obtain rfl := Option.some.inj made
          rfl
  | claimL2 ip solution address =>
      cases ip with
      | v6 _ => cases made
      | v4 ip =>
          obtain rfl := Option.some.inj made
          rfl
  | getBalance _ => cases made
  | getSatsPerClaim _ => cases made

/-- A call that is alone ends as its handler computes, and in no other way. -/
theorem answerTo_iff_ends (free : Free sh) :
    (∃ sendTransaction, answerTo server id sendTransaction sh call = some outcome) ↔
      ∃ pc, Ends server.env id sh (call.entry sh.now)
          ⟨pc, outcome.shared, outcome.queued, outcome.sent⟩ ∧
        replyOf pc = some outcome.result := by
  obtain ⟨result, shared, queued, sent⟩ := outcome
  cases call with
  | get ip chain nonce difficulty duration =>
      simp only [Call.entry, ends_getCas free, answerTo, exists_const, Option.map_eq_some_iff]
      constructor
      · rintro ⟨⟨challenge, sh'⟩, get, same⟩
        obtain ⟨rfl, rfl, rfl, rfl⟩ := Outcome.mk.inj same
        exact ⟨_, ⟨challenge, _, get, rfl⟩, rfl⟩
      · rintro ⟨pc, ⟨challenge, sh', get, same⟩, replied⟩
        obtain ⟨rfl, rfl, rfl, rfl⟩ := Outcome.mk.inj same
        exact ⟨(challenge, _), get, by rw [← Option.some.inj replied]; rfl⟩
  | check claim =>
      simp only [Call.entry, ends_checkRead, answerTo, Option.some_inj]
      constructor
      · rintro ⟨sendTransaction, same⟩
        obtain ⟨rfl, rfl, rfl, rfl⟩ := Outcome.mk.inj same
        exact ⟨_, ⟨sendTransaction, rfl⟩, rfl⟩
      · rintro ⟨pc, ⟨sendTransaction, same⟩, replied⟩
        obtain ⟨rfl, rfl, rfl, rfl⟩ := Outcome.mk.inj same
        exact ⟨sendTransaction, by rw [← Option.some.inj replied]; rfl⟩

/-- The machine runs this call from `s` on, with no other step in between, until it has returned
and has had this outcome. The eviction task and all other calls stay as they are. -/
def RunsAlone (env : Env) (s : State) (id : CallId) (call : Call)
    (outcome : Outcome (Reply Response)) : Prop :=
  ∃ (b : Trace) (pc : Pc) (events : List ThreadEvent),
    Stretch (Step env) s b ⟨outcome.shared, s.task, (id, pc) ::ₘ s.pool⟩ ∧
    b.map Transition.label = .called id call :: events.map (Label.thread id) ∧
    replyOf pc = some outcome.result ∧
    events.filterMap queuedBy = outcome.queued ∧ events.filterMap sentBy = outcome.sent

private theorem stage_of_reply
    {pc : Pc} {reply : Reply Response} (replied : replyOf pc = some reply) :
    stage pc = 4 := by
  cases pc <;> first | rfl | cases replied

theorem runsAlone_iff_ends {env : Env} {s : State} (fresh : id ∉ s.pool.map Prod.fst) :
    RunsAlone env s id call outcome ↔
      ∃ pc, Ends env id s.shared (call.entry s.shared.now)
          ⟨pc, outcome.shared, outcome.queued, outcome.sent⟩ ∧
        replyOf pc = some outcome.result := by
  constructor
  · rintro ⟨b, pc, events, run, labels, replied, queued, sent⟩
    obtain ⟨x, b, rfl, called, own⟩ := List.map_eq_cons_iff.mp labels
    obtain ⟨s₁, first, later⟩ := exists_stretch (a := [x]) run
    obtain ⟨begins, taken, rfl⟩ :=
      (show Stretch (Step env) s ([] ++ [x]) s₁ from first).last
    rw [called, begins.initial_of_nil] at taken
    generalize x.target = s₁ at taken later
    cases taken with
    | called _ =>
        obtain ⟨sh', pc', same, alone⟩ := alone_of_stretch fresh later own
        obtain ⟨shared, _, pool⟩ := State.mk.inj same
        obtain ⟨rfl, _⟩ := cons_inj_of_fresh fresh pool
        subst shared
        exact ⟨_, ⟨events, alone, stage_of_reply replied, queued, sent⟩, replied⟩
  · rintro ⟨pc, ⟨events, alone, _, queued, sent⟩, replied⟩
    obtain ⟨b, later, own⟩ := alone.stretch s.task s.pool
    exact ⟨_, pc, events, continued (.next (.start rfl) (.called fresh)) later, by simp [own],
      replied, queued, sent⟩

/-! A handler panics on a conversion or on an addition, and it changes nothing before its call. -/

private theorem chainTryFrom_ok {level : String} {chain : Chain} : chainTryFrom level = .ok chain ↔
    (level = "l1" ∧ chain = .l1) ∨ (level = "l2" ∧ chain = .l2) := by
  unfold chainTryFrom
  split
  · simp [@eq_comm _ Chain.l1]
  · simp [@eq_comm _ Chain.l2]
  · rename_i one two
    apply iff_of_false (by simp)
    rintro (⟨same, _⟩ | ⟨same, _⟩)
    · exact one same
    · exact two same

/-- The L2 balance is read and does not fit 128 bits. -/
def Overflows (server : Server IpSrc) (world : World) : Prop :=
  ∃ wei, world.getBalance = .ok wei ∧ server.toU128 wei = none

private theorem signerBalance_eq_none :
    getDefaultSignerBalance server.toU128 world.getBalance = none ↔ Overflows server world := by
  unfold getDefaultSignerBalance Overflows
  cases world.getBalance with
  | ok wei => simp
  | error _ => simp

private theorem difficultyFor_eq_none {chain : Chain} :
    difficultyFor server world chain = none ↔ chain = .l2 ∧ Overflows server world := by
  rw [difficultyFor, challengeDifficulty, Option.map_eq_none_iff]
  cases chain with
  | l1 => simp [balance]
  | l2 => simp [balance, l2Balance, signerBalance_eq_none]

/-- The request gets to `Challenge::get`, and the challenge would expire after the last instant of
the clock. -/
def ExpiryOverflows (server : Server IpSrc) (world : World) (sh : Shared) (ip : IpAddr)
    (level : String) : Prop :=
  ∃ client chain difficulty, ip = .v4 client ∧ chainTryFrom level = .ok chain ∧
    difficultyFor server world chain = some (.ok difficulty) ∧
    server.lastInstant < sh.now + (server.layerConfig chain).challengeDuration

private theorem getPowChallenge_eq_none {ip : IpAddr} {level : String} :
    getPowChallenge server world sh ip level = none ↔
      (level = "l2" ∧ Overflows server world) ∨ ExpiryOverflows server world sh ip level := by
  unfold getPowChallenge ExpiryOverflows
  cases parsed : chainTryFrom level with
  | error e =>
      apply iff_of_false (by simp)
      rintro (⟨rfl, _⟩ | ⟨_, _, _, _, parsed', _⟩)
      · cases parsed
      · cases parsed'
  | ok chain =>
      have panics : level = "l2" ∧ Overflows server world ↔
          difficultyFor server world chain = none := by
        rw [difficultyFor_eq_none]
        rcases chainTryFrom_ok.mp parsed with ⟨rfl, rfl⟩ | ⟨rfl, rfl⟩ <;> simp
      rw [panics]
      cases computed : difficultyFor server world chain with
      | none => simp [computed]
      | some verdict =>
          cases verdict with
          | error e => simp [computed]
          | ok difficulty =>
              cases ip with
              | v6 _ => simp [computed]
              | v4 ip => simp [computed, challengeGet_eq_none]

private theorem getBalance_eq_none {level : String} :
    getBalance server world level = none ↔ level = "l2" ∧ Overflows server world := by
  unfold getBalance
  cases parsed : chainTryFrom level with
  | error e =>
      apply iff_of_false (by simp)
      rintro ⟨rfl, _⟩
      cases parsed
  | ok chain =>
      rcases chainTryFrom_ok.mp parsed with ⟨rfl, rfl⟩ | ⟨rfl, rfl⟩
      · simp
      · simp [signerBalance_eq_none]

theorem handle_eq_none : handle server world id sh request = none ↔
    (Overflows server world ∧
      ((∃ ip, request = .getPowChallenge ip "l2") ∨ request = .getBalance "l2")) ∨
    ∃ ip level, request = .getPowChallenge ip level ∧
      ExpiryOverflows server world sh ip level := by
  cases request with
  | getPowChallenge ip level => simp [handle, getPowChallenge_eq_none, and_comm]
  | getBalance level => simp [handle, getBalance_eq_none, and_comm]
  | _ => simp [handle]

private theorem handle_of_no_call (uncalled : request.call server world sh = none)
    (handled : handle server world id sh request = some outcome) :
    outcome = .unpaid outcome.result sh := by
  cases request with
  | getPowChallenge ip level =>
      rw [handle, getPowChallenge] at handled
      cases parsed : chainTryFrom level with
      | error e =>
          simp only [parsed] at handled
          obtain rfl := Option.some.inj handled
          rfl
      | ok chain =>
          simp only [parsed] at handled
          cases computed : difficultyFor server world chain with
          | none => simp [computed] at handled
          | some verdict =>
              simp only [computed] at handled
              cases verdict with
              | error e =>
                  obtain rfl := Option.some.inj handled
                  rfl
              | ok difficulty =>
                  cases ip with
                  | v6 _ =>
                      obtain rfl := Option.some.inj handled
                      rfl
                  | v4 ip =>
                      have late : server.lastInstant <
                          sh.now + (server.layerConfig chain).challengeDuration := by
                        simpa [Request.call, parsed, computed] using uncalled
                      simp only [challengeGet_eq_none.mpr late, Option.map_none] at handled
                      cases handled
  | claimL1 ip solution address =>
      cases ip with
      | v4 ip => cases uncalled
      | v6 _ =>
          obtain rfl := Option.some.inj handled
          rfl
  | claimL2 ip solution address =>
      cases ip with
      | v4 ip => cases uncalled
      | v6 _ =>
          obtain rfl := Option.some.inj handled
          rfl
  | getBalance level =>
      obtain ⟨reply, _, rfl⟩ := Option.map_eq_some_iff.mp handled
      rfl
  | getSatsPerClaim level =>
      obtain rfl := Option.some.inj handled
      rfl

/-- Every request, in every state in which the eviction task does not hold the lock, and whatever
the world around it answers. The handler gets to at most one call, and what it computes is what the
machine does if that call runs with nothing in between, and all that it can do. A request that is
answered without a call leaves no trace. It panics only on an L2 balance beyond 128 bits, or where
the challenge would expire after the last instant of the clock. -/
theorem requests_run_alone (server : Server IpSrc) (world : World) (id : CallId) {s : State}
    (free : Free s.shared) (fresh : id ∉ s.pool.map Prod.fst) (request : Request) :
    (∀ call, request.call server world s.shared = some call → ∀ outcome,
      (∃ sendTransaction, handle server { world with sendTransaction := sendTransaction } id
        s.shared request = some outcome) ↔ RunsAlone server.env s id call outcome) ∧
    (request.call server world s.shared = none → ∀ outcome,
      handle server world id s.shared request = some outcome →
        outcome = .unpaid outcome.result s.shared) ∧
    (handle server world id s.shared request = none ↔
      (Overflows server world ∧
        ((∃ ip, request = .getPowChallenge ip "l2") ∨ request = .getBalance "l2")) ∨
      ∃ ip level, request = .getPowChallenge ip level ∧
        ExpiryOverflows server world s.shared ip level) := by
  refine ⟨fun call made outcome => ?_, fun uncalled outcome handled => ?_, handle_eq_none⟩
  · simp only [handle_of_call made]
    rw [runsAlone_iff_ends fresh]
    exact answerTo_iff_ends free
  · exact handle_of_no_call uncalled handled

def sampleServer : Server Unit where
  settings := startSettings
  state := ⟨defaultConfig, defaultConfig⟩
  arithmetic := .exact
  toU128 := uintTo128
  sha256 := fun _ => Vector.replicate 32 0
  requireNetwork := fun _ address => some ⟨address.text⟩
  -- `i64::MAX` seconds, and all the nanoseconds of the last one
  lastInstant := fromSecs (2 ^ 63) - 1

def sampleWorld : World := ⟨Vector.replicate 16 7, 0, .error ⟨⟩, none⟩

theorem requests_run_alone_nonvacuous : ∃ outcome,
    RunsAlone sampleServer.env (startedAt 0) 0
      (.get localIp .l1 (Vector.replicate 16 7) 64 (fromSecs 120)) outcome ∧
    handle sampleServer sampleWorld 0 (startedAt 0).shared
      (.getPowChallenge (.v4 localIp) "l1") = some outcome := by
  obtain ⟨runs, _, panics⟩ := requests_run_alone sampleServer sampleWorld 0
    (show Free (startedAt 0).shared from ⟨rfl, le_rfl⟩) (by simp)
    (.getPowChallenge (.v4 localIp) "l1")
  have difficulty : difficultyFor sampleServer sampleWorld .l1 = some (.ok 64) := by
    decide +kernel
  have soon : ¬ sampleServer.lastInstant < 0 + fromSecs 120 := by decide
  have made : Request.call sampleServer sampleWorld (startedAt 0).shared
      (.getPowChallenge (.v4 localIp) "l1") =
        some (.get localIp .l1 (Vector.replicate 16 7) 64 (fromSecs 120)) := by
    simp only [Request.call, chainTryFrom, difficulty]
    exact if_neg soon
  have fits : ¬ ExpiryOverflows sampleServer sampleWorld (startedAt 0).shared (.v4 localIp)
      "l1" := by
    rintro ⟨_, _, _, _, parsed, _, late⟩
    cases parsed
    exact soon late
  have given := mt panics.mp (by simp [fits])
  obtain ⟨outcome, handled⟩ := Option.ne_none_iff_exists'.mp given
  exact ⟨outcome, (runs _ made outcome).mp ⟨none, handled⟩, handled⟩

end FaucetApi.Faucet.Handlers
