import SlabPool.FreeList.Contents
import SlabPool.Proofs.Account
import SlabPool.Proofs.Account.Sound
import SlabPool.Proofs.Account.Turnover
import SlabPool.Proofs.Exchange
import SlabPool.Proofs.Frame
import SlabPool.Proofs.Lending
import SlabPool.Proofs.Slots
import SlabPool.Proofs.Turnover
import SlabPool.Session.Run
import SlabPool.Trial.Slots
import SlabPool.Trial.Storage
import SlabPool.Proofs.Account.Custody
import SlabPool.Proofs.Estate
import SlabPool.Proofs.Estate.Balance
import SlabPool.Proofs.Estate.Custody
import SlabPool.Proofs.Partition
import SlabPool.Proofs.Places
import SlabPool.Proofs.Undisturbed
import SlabPool.Proofs.BlockAccounting
import SlabPool.Proofs.Reference
import SlabPool.Proofs.Reference.Backing
import SlabPool.Proofs.Reference.Simulation
import SlabPool.Proofs.Refinement
import SlabPool.Proofs.Health
import SlabPool.Proofs.Misuse
import SlabPool.Proofs.Demand
import SlabPool.Proofs.Doubling
import SlabPool.Proofs.FailedGrowth
import SlabPool.Proofs.Lockstep
import SlabPool.Proofs.NoTrace
import SlabPool.Proofs.Account.Uncounted
import SlabPool.Proofs.Estate.Coverage
import SlabPool.Proofs.Amortised
import SlabPool.Proofs.Reuse
import SlabPool.Proofs.Concert
import SlabPool.Proofs.Twins
import SlabPool.Proofs.Twins.Serve
import SlabPool.Proofs.Renewal
import SlabPool.Proofs.Company
import SlabPool.Proofs.Faults
import SlabPool.Proofs.Exhaustion
import SlabPool.Proofs.Finalisers
import SlabPool.Proofs.Estate.Lost
import SlabPool.Proofs.Recovery
import SlabPool.Proofs.Chronicle
import SlabPool.Proofs.DoubleRelease
import SlabPool.Proofs.Membership
import SlabPool.Proofs.Room
import SlabPool.Proofs.GrowthOutcome
import SlabPool.Proofs.Account.Stock
import SlabPool.Proofs.FirstUse
import SlabPool.Proofs.OneByOne
import SlabPool.Proofs.StackOfSlots
import SlabPool.Proofs.Walk
import SlabPool.Proofs.Reservation
