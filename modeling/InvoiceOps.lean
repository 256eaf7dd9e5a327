import InvoiceOps.Lib.Run
import InvoiceOps.Lib.Lists
import InvoiceOps.Lib.Digits
import InvoiceOps.Lib.Decimal
import InvoiceOps.Lib.Scientific
import InvoiceOps.Lib.Calendar
import InvoiceOps.Lib.Iso
import InvoiceOps.Lib.HashChain
import InvoiceOps.Lib.Json
import InvoiceOps.Lib.Text
import InvoiceOps.Lib.Matching
import InvoiceOps.Lib.Uuid
import InvoiceOps.Schemas.Extraction
import InvoiceOps.Schemas.Matching
import InvoiceOps.Schemas.Cases
import InvoiceOps.Models
import InvoiceOps.Matching.Validation
import InvoiceOps.Matching.Assignment
import InvoiceOps.Matching.Engine
import InvoiceOps.Matching.Context
import InvoiceOps.Matching.ThreeWay
import InvoiceOps.Matching.Decision
import InvoiceOps.Risk.Engine
import InvoiceOps.Risk.Service
import InvoiceOps.Review.State
import InvoiceOps.Review.Audit
import InvoiceOps.Review.Service
import InvoiceOps.Review.Concurrency
import InvoiceOps.Matching.Service
import InvoiceOps.Matching.Reservation
import InvoiceOps.Matching.Allocation
import InvoiceOps.Matching.Agreement
import InvoiceOps.Matching.Monotone
import InvoiceOps.Matching.Reordering
import InvoiceOps.Matching.DuplicateRace
import InvoiceOps.Matching.Routing
import InvoiceOps.Matching.Seating
import InvoiceOps.Matching.Snapshot
import InvoiceOps.Matching.Call
import InvoiceOps.Matching.Fingerprint
import InvoiceOps.Matching.Replay
import InvoiceOps.Matching.Idempotence
import InvoiceOps.Matching.Storing
import InvoiceOps.Risk.Assessing
import InvoiceOps.Risk.Reconcile
import InvoiceOps.Extraction.Supporting
import InvoiceOps.Extraction.Unresolved
import InvoiceOps.Extraction.Calls
import InvoiceOps.Extraction.Hybrid
import InvoiceOps.Extraction.Failures
import InvoiceOps.Extraction.Normalization
import InvoiceOps.Extraction.Grounding
import InvoiceOps.Extraction.Location
import InvoiceOps.Extraction.Fusion
import InvoiceOps.Cases.Confirming
import InvoiceOps.Receipts.Service
import InvoiceOps.Cases.Corrections
import InvoiceOps.Cases.Store
import InvoiceOps.Cases.Service
import InvoiceOps.Cases.Rows
import InvoiceOps.Cases.Readiness
import InvoiceOps.Cases.Quantities
import InvoiceOps.Cases.Replay
import InvoiceOps.Cases.Sessions
import InvoiceOps.Cases.Matched
import InvoiceOps.Cases.Attachments
import InvoiceOps.Cases.Outcomes
import InvoiceOps.Cases.Delivery
import InvoiceOps.Ingestion.Upload
import InvoiceOps.Workers.Jobs
import InvoiceOps.Events.Stream
import InvoiceOps.Events.JobStream
import InvoiceOps.Events.Framing
import InvoiceOps.Web.Confirmation
import InvoiceOps.Review.Paging
import InvoiceOps.Extraction.LineCoverage
import InvoiceOps.Extraction.Candidates
import InvoiceOps.Evaluation.Alignment
import InvoiceOps.Extraction.PurchaseOrderRows
import InvoiceOps.Web.Decimals
import InvoiceOps.Extraction.Amounts
import InvoiceOps.Evaluation.LiveBudget
import InvoiceOps.Evaluation.Metrics
import InvoiceOps.Extraction.SupportingGrounding
import InvoiceOps.Extraction.SupportingFusion
import InvoiceOps.Auth.Verifier
import InvoiceOps.Web.Sessions
import InvoiceOps.Web.Origins
import InvoiceOps.Web.Renewals
import InvoiceOps.Extraction.Layout
import InvoiceOps.Extraction.HeaderRules
import InvoiceOps.Lib.Address
import InvoiceOps.Auth.Authorization
import InvoiceOps.Web.Proxy
import InvoiceOps.Cases.Keys
import InvoiceOps.Web.Actions
import InvoiceOps.Events.Timeline
import InvoiceOps.Review.Reconcile
import InvoiceOps.Extraction.Escalation
