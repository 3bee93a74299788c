import MarginRouter.Files.Tree
import MarginRouter.Ledger.Changes
import MarginRouter.Loan.Rogue
import MarginRouter.Main
import MarginRouter.Proofs.Conservation
import MarginRouter.Router.Scripted
import MarginRouter.Proofs.Loan
import MarginRouter.Proofs.Execution
import MarginRouter.Proofs.Router
import MarginRouter.Proofs.Callback
import MarginRouter.Proofs.Health
import MarginRouter.Proofs.Accounting
import MarginRouter.Proofs.Parties
import MarginRouter.Proofs.Quote
import MarginRouter.Proofs.Spot
import MarginRouter.Proofs.LoanSequence
import MarginRouter.Proofs.Registry
import MarginRouter.Proofs.Routing
import MarginRouter.Proofs.Earnings
import MarginRouter.Proofs.ReserveLoan
import MarginRouter.Proofs.LoanSafety
import MarginRouter.Proofs.FailedCalls
import MarginRouter.Proofs.Codec
import MarginRouter.Proofs.Equity
import MarginRouter.Proofs.Reserves
import MarginRouter.Proofs.Calldata
import MarginRouter.Proofs.Cuts
import MarginRouter.Proofs.PathQuotes
import MarginRouter.Proofs.Footprint
import MarginRouter.Proofs.Commuting
import MarginRouter.Proofs.Funding
import MarginRouter.Proofs.NothingOwed
import MarginRouter.Proofs.Budget
import MarginRouter.Proofs.ExactPricing
import MarginRouter.Proofs.TightQuotes
import MarginRouter.Proofs.Liquidity
import MarginRouter.Proofs.MonotoneQuotes
import MarginRouter.Proofs.ReversedPaths
import MarginRouter.Proofs.NetPositions
import MarginRouter.Proofs.CanonicalLedgers
import MarginRouter.Proofs.Corrections
import MarginRouter.Proofs.Seeds
import MarginRouter.Proofs.Spellings
