import GameScoring.Formula.Exact
import GameScoring.Main
import GameScoring.Scoring.Logbook
import GameScoring.Journal.Entry
import GameScoring.Web.Server
import GameScoring.Proofs.Formula.Phrase
import GameScoring.Proofs.Formula.Unambiguity
import GameScoring.Proofs.Formula.Reading
import GameScoring.Proofs.Formula.Derivation
import GameScoring.Proofs.Formula.WellFormed
import GameScoring.Proofs.Formula.Acceptance
import GameScoring.Proofs.Formula.Walk
import GameScoring.Proofs.Formula.Scanning
import GameScoring.Proofs.Formula.Placement
import GameScoring.Proofs.Formula.Spelling
import GameScoring.Proofs.Formula.Composition
import GameScoring.Proofs.Formula.Settling
import GameScoring.Proofs.Formula.Blocking
import GameScoring.Proofs.Formula.Halting
import GameScoring.Proofs.Formula.FirstError
import GameScoring.Proofs.Formula.Vocabulary
import GameScoring.Proofs.Formula.Lossless
import GameScoring.Proofs.Formula.Correspondence
import GameScoring.Proofs.Formula.Layout
import GameScoring.Proofs.Formula.Census
import GameScoring.Proofs.Formula.Traversal
import GameScoring.Proofs.Formula.Machine
import GameScoring.Proofs.Formula.Recursion
import GameScoring.Proofs.Formula.Simulation
import GameScoring.Proofs.Formula.Totality
import GameScoring.Proofs.Numeral.Nearest
import GameScoring.Proofs.Numeral.Equality
import GameScoring.Proofs.Numeral.Sign
import GameScoring.Proofs.Numeral.Digits
import GameScoring.Proofs.Numeral.Margin
import GameScoring.Proofs.Numeral.Monotone
import GameScoring.Proofs.Numeral.Place
import GameScoring.Proofs.Numeral.Product
import GameScoring.Proofs.Numeral.Shortest
import GameScoring.Proofs.Numeral.Number
import GameScoring.Proofs.Numeral.Arithmetic
import GameScoring.Proofs.Numeral.Closest
import GameScoring.Proofs.Numeral.Decimals
import GameScoring.Proofs.Numeral.HalfUp
import GameScoring.Proofs.Numeral.Stable
import GameScoring.Proofs.Numeral.Subtraction
import GameScoring.Proofs.Formula.Safety
import GameScoring.Proofs.Formula.Scope
import GameScoring.Proofs.Formula.Inquiry
import GameScoring.Proofs.Formula.Interchange
import GameScoring.Proofs.Scoring.Kernel
import GameScoring.Proofs.Scoring.Locality
import GameScoring.Proofs.Scoring.Payload
import GameScoring.Proofs.Scoring.Admission
import GameScoring.Proofs.Scoring.Final
import GameScoring.Proofs.Scoring.Bounds
import GameScoring.Proofs.Scoring.Comparison
import GameScoring.Proofs.Scoring.Events
import GameScoring.Proofs.Scoring.Patches
import GameScoring.Proofs.Scoring.Isolation
import GameScoring.Proofs.Scoring.Delta
import GameScoring.Proofs.Scoring.Mirror
import GameScoring.Proofs.Reading
import GameScoring.Proofs.Telemetry.Rereading
import GameScoring.Proofs.Telemetry.Admission
import GameScoring.Proofs.Telemetry.Extraction
import GameScoring.Proofs.Telemetry.Percentages
import GameScoring.Proofs.Telemetry.Catalogue
import GameScoring.Proofs.Service.Numbering
import GameScoring.Proofs.Service.Changes
import GameScoring.Proofs.Service.Roster
import GameScoring.Proofs.Service.Activation
import GameScoring.Proofs.Service.History
import GameScoring.Proofs.Service.Results
import GameScoring.Proofs.Service.Agreement
import GameScoring.Proofs.Service.Catalogue
import GameScoring.Proofs.Service.Usability
import GameScoring.Proofs.Service.Replay
import GameScoring.Proofs.Service.Restoration
import GameScoring.Proofs.Service.Authoring
import GameScoring.Proofs.Telemetry.Efficiency
import GameScoring.Proofs.Telemetry.Trials
import GameScoring.Proofs.Telemetry.Tally
import GameScoring.Proofs.Service.Requests
import GameScoring.Proofs.Service.Counting
