import FaucetApi.Lib.AtomicObject
import FaucetApi.Lib.BigEndian
import FaucetApi.Lib.ConcurrentMap
import FaucetApi.Lib.Floating
import FaucetApi.Lib.Hex
import FaucetApi.Lib.Journaling
import FaucetApi.Lib.Leases
import FaucetApi.Lib.MaxHeap
import FaucetApi.Lib.Narrowing
import FaucetApi.Lib.Oracle
import FaucetApi.Lib.Polling
import FaucetApi.Lib.Ramp
import FaucetApi.Lib.Runs
import FaucetApi.Lib.Simulation
import FaucetApi.Pow.Acceptance
import FaucetApi.Pow.Answers
import FaucetApi.Pow.Challenges
import FaucetApi.Pow.Claims
import FaucetApi.Pow.Consumption
import FaucetApi.Pow.Eviction
import FaucetApi.Pow.Expiry
import FaucetApi.Pow.Hash
import FaucetApi.Pow.Isolation
import FaucetApi.Pow.Leasing
import FaucetApi.Pow.Linearization
import FaucetApi.Pow.Machine
import FaucetApi.Pow.Quiescence
import FaucetApi.Pow.Rejection
import FaucetApi.Pow.Removal
import FaucetApi.Pow.Rest
import FaucetApi.Pow.Sequential
import FaucetApi.Pow.Storage
import FaucetApi.Pow.Sweeps
import FaucetApi.Pow.Target
import FaucetApi.Pow.Threads
import FaucetApi.Pow.Tokens
import FaucetApi.Pow.Wakeup
import FaucetApi.Pow.Windows
import FaucetApi.Difficulty.Config
import FaucetApi.Difficulty.Formula
import FaucetApi.Difficulty.Precision
import FaucetApi.Difficulty.Rounding
import FaucetApi.Batcher.Accounting
import FaucetApi.Batcher.DoubleSpend
import FaucetApi.Batcher.LastSeen
import FaucetApi.Batcher.Machine
import FaucetApi.Batcher.Queue
import FaucetApi.Batcher.Waiting
import FaucetApi.Batcher.Wallet
import FaucetApi.L1.Persister
import FaucetApi.L1.Pollers
import FaucetApi.Utils.Agreement
import FaucetApi.Utils.Counters
import FaucetApi.Utils.Search
import FaucetApi.Utils.Solvers
import FaucetApi.Utils.Work
import FaucetApi.Faucet.Admission
import FaucetApi.Faucet.Custody
import FaucetApi.Faucet.Durability
import FaucetApi.Faucet.FailedBroadcast
import FaucetApi.Faucet.Handlers
import FaucetApi.Faucet.Lives
import FaucetApi.Faucet.Machine
import FaucetApi.Faucet.Payouts
import FaucetApi.Faucet.Provenance
import FaucetApi.Faucet.Reserve
import FaucetApi.Faucet.Restarts
import FaucetApi.Faucet.Session
import FaucetApi.Faucet.Totals
import FaucetApi.L2.Units
import FaucetApi.SavableSeed
import FaucetApi.Startup
