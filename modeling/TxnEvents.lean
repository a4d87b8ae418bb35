import TxnEvents.Effects.RelyGuarantee
import TxnEvents.Delivery.NoLoss
import TxnEvents.Ledger.ExactlyOnce
import TxnEvents.Ledger.Fidelity
import TxnEvents.Delivery.Loops
import TxnEvents.Delivery.Biography
import TxnEvents.Delivery.Lives
import TxnEvents.Delivery.Exclusive
import TxnEvents.Delivery.Fates
import TxnEvents.Delivery.Acknowledged
import TxnEvents.Delivery.Bounds
import TxnEvents.Delivery.Restarts
import TxnEvents.Ledger.Listing
import TxnEvents.Ledger.Determinism
import TxnEvents.Ledger.Tiling
import TxnEvents.Ledger.Walking
import TxnEvents.Numbers.Correctness
import TxnEvents.Services.Conversion
import TxnEvents.Ledger.AuditTrail
import TxnEvents.Effects.Recording
import TxnEvents.Services.Lookups
import TxnEvents.Services.RateCache
import TxnEvents.Queue.Parsing
import TxnEvents.Ledger.Replay
import TxnEvents.Effects.Retries
import TxnEvents.Delivery.Decision
import TxnEvents.Delivery.Handover
import TxnEvents.Delivery.Metrics
import TxnEvents.Delivery.Uncounted
import TxnEvents.Core.RetryCalls
import TxnEvents.Core.Backoff
import TxnEvents.Delivery.Ordinals
import TxnEvents.Delivery.Batches
import TxnEvents.Effects.Agreement
import TxnEvents.Ledger.Timezones
import TxnEvents.Ledger.MalformedRates
import TxnEvents.Streams.Sweeps
import TxnEvents.Delivery.Sweeps
import TxnEvents.Effects.Alone
import TxnEvents.Streams.Draining
import TxnEvents.Delivery.Leftovers
import TxnEvents.Delivery.Steady
import TxnEvents.Delivery.Healthy
import TxnEvents.Delivery.Recovery
import TxnEvents.Ledger.Deserving
import TxnEvents.Ledger.Verdicts
import TxnEvents.Ledger.Completion
import TxnEvents.Effects.Refinement
import TxnEvents.Streams.Pipeline
import TxnEvents.Ledger.Balance
import TxnEvents.Ledger.Deployment
import TxnEvents.Delivery.Waiting
import TxnEvents.Delivery.Survival
import TxnEvents.Delivery.Letters
