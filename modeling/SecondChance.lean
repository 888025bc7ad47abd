import SecondChance.Main
import SecondChance.Session.Perform
import SecondChance.Proofs.Ledger.Consistency
import SecondChance.Proofs.System.Run
import SecondChance.Proofs.System.AtomicActs
import SecondChance.Proofs.Store.Calls
import SecondChance.Proofs.System.Order
import SecondChance.Proofs.System.MoveDecomposition
import SecondChance.Proofs.System.TransferMarks
import SecondChance.Proofs.System.Regular
import SecondChance.Proofs.System.Refusals
import SecondChance.Proofs.System.Agreement
import SecondChance.Proofs.System.Departures
import SecondChance.Proofs.Tally
import SecondChance.Proofs.Ledger.Pins
import SecondChance.Proofs.System.Pins
import SecondChance.Proofs.Store.Pages
import SecondChance.Proofs.System.BorrowedPages
import SecondChance.Proofs.System.Contents
import SecondChance.Proofs.System.Transparency
import SecondChance.Proofs.System.FileBacking
import SecondChance.Proofs.System.Unsaved
import SecondChance.Proofs.System.Changes
import SecondChance.Proofs.Words
import SecondChance.Proofs.System.TaskTurns
import SecondChance.Proofs.System.Flushes
import SecondChance.Proofs.System.Updates
import SecondChance.Proofs.System.Exclusion
import SecondChance.Proofs.Latches
import SecondChance.Proofs.System.Waiting
import SecondChance.Proofs.System.Progress
import SecondChance.Proofs.System.SharedFiles
import SecondChance.Proofs.System.StepOutcomes
import SecondChance.Proofs.System.MoveEffects
import SecondChance.Proofs.System.LatchHolding
import SecondChance.Proofs.System.Provenance
import SecondChance.Proofs.Store.Liveness
import SecondChance.Proofs.System.Disposal
import SecondChance.Proofs.System.Durability
import SecondChance.Proofs.System.PinReturns
import SecondChance.Proofs.Ledger.Visits
import SecondChance.Proofs.System.SecondChances
import SecondChance.Proofs.System.Capacity
import SecondChance.Proofs.System.FrameChanges
import SecondChance.Proofs.System.CallCounts
import SecondChance.Proofs.Store.Shapes
import SecondChance.Proofs.System.LoneOperations
import SecondChance.Proofs.System.Mirrors
import SecondChance.Proofs.System.Desk
import SecondChance.Proofs.System.ErrandAgreement
import SecondChance.Proofs.System.FlushAgreement
import SecondChance.Proofs.System.DisposalAgreement
import SecondChance.Proofs.System.Independence
import SecondChance.Proofs.Ledger.Choice
import SecondChance.Proofs.Store.Dialogues
import SecondChance.Proofs.System.Undisturbed
import SecondChance.Proofs.System.UndisturbedFlushAll
import SecondChance.Proofs.System.UndisturbedFlushFile
import SecondChance.Proofs.System.UndisturbedFetch
import SecondChance.Proofs.System.Cancellation
import SecondChance.Proofs.Store.Twins
import SecondChance.Proofs.Store.Layout
import SecondChance.Proofs.Store.SoleFile
import SecondChance.Proofs.Scan.Service
import SecondChance.Proofs.Scan.Requests
import SecondChance.Proofs.Scan.Passes
import SecondChance.Proofs.Scan.Exactness
import SecondChance.Proofs.Store.Upkeep
import SecondChance.Proofs.System.FailedFetches
import SecondChance.Proofs.System.OwedWrites
import SecondChance.Proofs.System.UntouchedPages
import SecondChance.Proofs.System.FailedDisposals
import SecondChance.Proofs.System.SequentialRuns
import SecondChance.Proofs.System.FreshPages
import SecondChance.Proofs.Ledger.Findings
import SecondChance.Proofs.Store.Numbers
import SecondChance.Proofs.Store.Containers
