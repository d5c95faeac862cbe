/- module: FaucetApi/Pow/Storage
   layer: results
   digest: The challenge set and the eviction queue hold no more than the clients account for. -/

import FaucetApi.Pow.Leasing
import Mathlib.Data.Set.Card

set_option autoImplicit false
set_option relaxedAutoImplicit false

namespace FaucetApi.Pow.Storage

open FaucetApi.Lib.Runs
open FaucetApi.Pow.Challenges
open FaucetApi.Pow.Eviction
open FaucetApi.Pow.Claims
open FaucetApi.Pow.Machine
open FaucetApi.Pow.Threads
open FaucetApi.Pow.Consumption
open FaucetApi.Pow.Tokens
open FaucetApi.Pow.Leasing

variable {env : Env} {ts : Trace} {s : State} {key : Key}

/-- The client that a step serves, when a call of `get` begins. -/
def clientOf : Label → Option Ipv4Addr
  | .called _ (.get ip _ _ _ _) => some ip
  | _ => none

def clients (ts : Trace) : Finset Ipv4Addr := (ts.filterMap (fun x => clientOf x.label)).toFinset

def tokenKeys (s : State) : Multiset Key := (tokens s).map EvictionEntry.key

def Stored (s : State) : Set Key := {key | (s.shared.challengeSet key).isSome}

private theorem count_tokenKeys (run : PowRun env ts s) (key : Key) :
    (tokenKeys s).count key = if (s.shared.challengeSet key).isSome then 1 else 0 := by
  have held := congrArg Multiset.card (tokens_match_set run key)
  rw [expiries, Multiset.card_map] at held
  rw [tokenKeys, Multiset.count_map]
  simp only [eq_comm (a := key)]
  rw [held]
  cases s.shared.challengeSet key <;> rfl

private theorem tokenKeys_nodup (run : PowRun env ts s) : (tokenKeys s).Nodup := by
  rw [Multiset.nodup_iff_count_le_one]
  intro key
  rw [count_tokenKeys run]
  split <;> decide

private theorem mem_tokenKeys (run : PowRun env ts s) : key ∈ tokenKeys s ↔ key ∈ Stored s := by
  rw [← Multiset.count_pos, count_tokenKeys run, Stored, Set.mem_ofPred_eq]
  split_ifs with stored <;> simp [stored]

theorem stored_eq (run : PowRun env ts s) : Stored s = ↑(tokenKeys s).toFinset := by
  ext key
  rw [Finset.mem_coe, Multiset.mem_toFinset, mem_tokenKeys run]

theorem client_of_installed (run : PowRun env ts s) {id : CallId} {ip : Ipv4Addr} {chain : Chain}
    {c : Challenge} (did : Did ts id (.installed ip chain c)) : ip ∈ clients ts := by
  obtain ⟨x, member, nonce, duration, label⟩ := installed_offered run did
  rw [clients, List.mem_toFinset, List.mem_filterMap]
  exact ⟨x, member, by rw [label, clientOf]⟩

private theorem stored_client (run : PowRun env ts s) (stored : key ∈ Stored s) :
    ∃ ip ∈ clients ts, ∃ chain, keyOf ip chain = key := by
  obtain ⟨c, found⟩ := Option.isSome_iff_exists.mp stored
  obtain ⟨g, owned⟩ := stored_installed run key c found
  obtain ⟨ip, chain, old, same, did, _⟩ := owned.origin
  exact ⟨ip, client_of_installed run did, chain, same⟩

def keysOf (clients : Finset Ipv4Addr) : Finset Key :=
  (clients ×ˢ {Chain.l1, Chain.l2}).image (fun client => keyOf client.1 client.2)

theorem card_keysOf_le (clients : Finset Ipv4Addr) : (keysOf clients).card ≤ 2 * clients.card := by
  calc (keysOf clients).card
    _ ≤ (clients ×ˢ {Chain.l1, Chain.l2}).card := Finset.card_image_le
    _ = clients.card * 2 := by rw [Finset.card_product]; rfl
    _ = 2 * clients.card := Nat.mul_comm _ _

/-- In every reachable state the stored challenges and the eviction entries, in the heap, popped or
still to be pushed, are in a one-to-one correspondence by key. So the heap never holds two entries
of a key nor more entries than challenges are stored, and of both there are at most two for each
client that ever asked for a challenge. -/
theorem storage_is_bounded (run : PowRun env ts s) :
    (tokenKeys s).Nodup ∧ (∀ key, key ∈ tokenKeys s ↔ (s.shared.challengeSet key).isSome) ∧
    (Stored s).Finite ∧ (Stored s).ncard = (tokens s).card ∧
    s.shared.evictionQ.q.card ≤ (Stored s).ncard ∧ (Stored s).ncard ≤ 2 * (clients ts).card := by
  have size : (Stored s).ncard = (tokens s).card := by
    rw [stored_eq run, Set.ncard_coe_finset, Multiset.toFinset_card_of_nodup (tokenKeys_nodup run),
      tokenKeys, Multiset.card_map]
  have within : Stored s ⊆ ↑(keysOf (clients ts)) := by
    intro key stored
    obtain ⟨ip, asked, chain, rfl⟩ := stored_client run stored
    refine Finset.mem_coe.mpr (Finset.mem_image.mpr ⟨(ip, chain), ?_, rfl⟩)
    refine Finset.mem_product.mpr ⟨asked, ?_⟩
    cases chain <;> simp
  refine ⟨tokenKeys_nodup run, fun key => mem_tokenKeys run, ?_, size, ?_, ?_⟩
  · exact (Finset.finite_toSet _).subset within
  · rw [size, tokens, Multiset.card_add, Multiset.card_add]
    omega
  · calc (Stored s).ncard
      _ ≤ (↑(keysOf (clients ts)) : Set Key).ncard :=
          Set.ncard_le_ncard within (Finset.finite_toSet _)
      _ = (keysOf (clients ts)).card := Set.ncard_coe_finset _
      _ ≤ 2 * (clients ts).card := card_keysOf_le _

/-- Two clients have three challenges, and one of their entries is still to be pushed. -/
theorem storage_is_bounded_nonvacuous : ∃ ts s, PowRun sampleEnv ts s ∧
    s.shared.evictionQ.q.card = 2 ∧ (Stored s).ncard = 3 ∧ (clients ts).card = 2 := by
  have begin : PowRun sampleEnv [] (startedAt 0) := .start (startedAt_initial 0)
  have get := begin.next
    (@Step.called _ _ 0 (.get localIp .l1 (Vector.replicate 16 7) 5 120) (by simp))
  have installed := get.next (.act (.installed (getCas_ok.mpr ⟨rfl, rfl, rfl⟩)))
  have pushed := installed.next (.act (.pushed rfl le_rfl))
  have get' := pushed.next
    (@Step.called _ _ 1 (.get localIp .l2 (Vector.replicate 16 8) 5 120) (by simp))
  have installed' := get'.next (.act (.installed (getCas_ok.mpr ⟨rfl, rfl, rfl⟩)))
  have pushed' := installed'.next (.act (.pushed rfl le_rfl))
  have get'' := pushed'.next
    (@Step.called _ _ 2 (.get peerIp .l1 (Vector.replicate 16 9) 5 120) (by simp))
  have installed'' := get''.next (.act (.installed (getCas_ok.mpr ⟨rfl, rfl, rfl⟩)))
  obtain ⟨_, _, _, size, _⟩ := storage_is_bounded installed''
  exact ⟨_, _, installed'', rfl, size, rfl⟩

end FaucetApi.Pow.Storage
