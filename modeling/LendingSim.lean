import LendingSim.Numeral
import LendingSim.Json.Basic
import LendingSim.Json.Parse
import LendingSim.Json.Decode
import LendingSim.Word.UInt256
import LendingSim.Word.Int256
import LendingSim.FixedPoint
import LendingSim.FixedPoint.WadText
import LendingSim.Shares
import LendingSim.RateCurve
import LendingSim.Hash.Keccak
import LendingSim.Bytes
import LendingSim.Address
import LendingSim.Position
import LendingSim.Market.Basic
import LendingSim.Market.Update
import LendingSim.Market.Health
import LendingSim.Token
import LendingSim.Holding
import LendingSim.Vault
import LendingSim.Registry
import LendingSim.Chain
import LendingSim.Book
import LendingSim.Document.Entities
import LendingSim.Error
import LendingSim.Document.State
import LendingSim.Document.Action
import LendingSim.Action
import LendingSim.Failure
import LendingSim.State
import LendingSim.Perform.Transfer
import LendingSim.Perform.Adapter
import LendingSim.Perform.Core
import LendingSim.Perform.Token
import LendingSim.Perform.Vault
import LendingSim.Perform.Allocator
import LendingSim.Perform.VaultV2
import LendingSim.Perform.Swap
import LendingSim.Run
import LendingSim.Proofs.Rounding
import LendingSim.Proofs.Sim
import LendingSim.Proofs.Book
import LendingSim.Proofs.Shares
import LendingSim.Proofs.Market
import LendingSim.Proofs.Runners
import LendingSim.Proofs.WellFormed
import LendingSim.Proofs.Steps
import LendingSim.Proofs.Handlers
import LendingSim.Proofs.VaultHandlers
import LendingSim.Proofs.ActionTree
import LendingSim.Proofs.Writes
import LendingSim.Proofs.MarketInvariants
import LendingSim.Proofs.ShareAccounting
import LendingSim.Proofs.Consent
import LendingSim.Proofs.Custody
import LendingSim.Proofs.Accrual
import LendingSim.Proofs.Holdings
import LendingSim.Proofs.FlowCaps
import LendingSim.Proofs.Reallocation
import LendingSim.Proofs.Solvency
import LendingSim.Proofs.VaultPrice
import LendingSim.Proofs.Failures
import LendingSim.Proofs.VaultQueues
import LendingSim.Proofs.VaultWorth
import LendingSim.Proofs.RoundTrips
import LendingSim.Proofs.Health
import LendingSim.Proofs.SignedBuilds
import LendingSim.Proofs.Exponential
import LendingSim.Proofs.BorrowRates
import LendingSim.Proofs.Supply
import LendingSim.Proofs.Wrapping
import LendingSim.Proofs.VaultV2Assets
import LendingSim.Proofs.ReallocationTargets
import LendingSim.Proofs.VaultTotals
import LendingSim.Proofs.HealthOrder
import LendingSim.Proofs.WadText
import LendingSim.Proofs.Underflow
import LendingSim.Proofs.SwapPayload
