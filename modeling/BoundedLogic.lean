import BoundedLogic.Checking.Checker
import BoundedLogic.Checking.Config
import BoundedLogic.Checking.DefaultRange
import BoundedLogic.Checking.Error
import BoundedLogic.Checking.Obligation
import BoundedLogic.Checking.RangeTable
import BoundedLogic.Checking.Report
import BoundedLogic.Enumeration.Error
import BoundedLogic.Enumeration.Permutation
import BoundedLogic.Enumeration.Subset
import BoundedLogic.Evaluation.Binding
import BoundedLogic.Evaluation.Config
import BoundedLogic.Evaluation.Counterexample
import BoundedLogic.Evaluation.Cursor
import BoundedLogic.Evaluation.Domain
import BoundedLogic.Evaluation.Error
import BoundedLogic.Evaluation.Odometer
import BoundedLogic.Evaluation.Predicate
import BoundedLogic.Evaluation.Quantification
import BoundedLogic.Evaluation.Session
import BoundedLogic.Host.Term
import BoundedLogic.Interrupt.Basic
import BoundedLogic.Interrupt.Wire
import BoundedLogic.Json.Basic
import BoundedLogic.Json.Reader
import BoundedLogic.Numeric.Binary64
import BoundedLogic.Numeric.Bounds
import BoundedLogic.Numeric.Decimal
import BoundedLogic.Numeric.Rounding
import BoundedLogic.Pattern.Basic
import BoundedLogic.Pattern.Matching
import BoundedLogic.Proofs.Counterexample.Existential
import BoundedLogic.Proofs.Counterexample.Nested
import BoundedLogic.Proofs.Counterexample.Recording
import BoundedLogic.Proofs.Counterexample.Universal
import BoundedLogic.Proofs.Numeric.Nearest
import BoundedLogic.Proofs.Numeric.Units
import BoundedLogic.Proofs.Odometer.Product
import BoundedLogic.Proofs.Odometer.Start
import BoundedLogic.Proofs.Quantifier.Scan
import BoundedLogic.Proofs.Quantifier.Verdict
import BoundedLogic.Proofs.Session.Results
import BoundedLogic.Scope.Context
import BoundedLogic.Scope.Frame
import BoundedLogic.Scope.Match
import BoundedLogic.Settings.Reading
import BoundedLogic.Text.Quoted
import BoundedLogic.Text.Scan
import BoundedLogic.Text.Unseen
import BoundedLogic.Toml.Basic
import BoundedLogic.Toml.Reader
import BoundedLogic.Toml.Scan
import BoundedLogic.Value.Basic
import BoundedLogic.Value.HashStream
import BoundedLogic.Value.Map
import BoundedLogic.Value.Order
import BoundedLogic.Value.Set
import BoundedLogic.Value.Text
import BoundedLogic.Proofs.Value.SortKey
import BoundedLogic.Proofs.Value.TotalOrder
import BoundedLogic.Proofs.Value.HashEquality
import BoundedLogic.Proofs.ValueSet.Increasing
import BoundedLogic.Proofs.ValueSet.Validity
import BoundedLogic.Proofs.ValueSet.Extensional
import BoundedLogic.Proofs.ValueSet.Calls
import BoundedLogic.Proofs.Enumeration.Orderings
import BoundedLogic.Proofs.Pattern.Declarative
import BoundedLogic.Proofs.Scope.Agreement
import BoundedLogic.Proofs.Odometer.Positions
import BoundedLogic.Proofs.Odometer.Enumeration
import BoundedLogic.Proofs.Evaluation.Exchange
import BoundedLogic.Proofs.Checking.Substitution
import BoundedLogic.Proofs.Checking.NoTrace
import BoundedLogic.Proofs.Evaluation.Closure
import BoundedLogic.Proofs.Interrupt.Levels
import BoundedLogic.Proofs.Quantifier.LoopHeads
import BoundedLogic.Proofs.Evaluation.InStep
import BoundedLogic.Proofs.Quantifier.Interruption
import BoundedLogic.Proofs.Checking.ErrorPaths
import BoundedLogic.Proofs.Pattern.EqualValues
import BoundedLogic.Proofs.Quantifier.OrderIndependence
import BoundedLogic.Proofs.Enumeration.Subsets
import BoundedLogic.Proofs.Evaluation.FramesUnread
import BoundedLogic.Proofs.Quantifier.Calls
import BoundedLogic.Proofs.Quantifier.LockStep
import BoundedLogic.Proofs.Quantifier.Duality
import BoundedLogic.Proofs.Counterexample.Unread
import BoundedLogic.Proofs.Quantifier.Merging
import BoundedLogic.Proofs.Enumeration.Distinct
import BoundedLogic.Proofs.Value.WellFormed
import BoundedLogic.Proofs.DefaultRange.Ranges
import BoundedLogic.Proofs.DefaultRange.Inhabitants
import BoundedLogic.Proofs.DefaultRange.Proposals
import BoundedLogic.Proofs.Evaluation.WellFormed
import BoundedLogic.Proofs.Checking.RangesSuffice
import BoundedLogic.Proofs.Interrupt.Pauses
import BoundedLogic.Proofs.Checking.Outcomes
import BoundedLogic.Proofs.Checking.Narrowing
import BoundedLogic.Proofs.Checking.Batches
import BoundedLogic.Proofs.Value.MixedNumbers
import BoundedLogic.Proofs.Odometer.SingleOrder
import BoundedLogic.Proofs.Odometer.FailedStart
import BoundedLogic.Proofs.Enumeration.Lexicographic
import BoundedLogic.Proofs.Enumeration.Interrupted
import BoundedLogic.Proofs.Odometer.EachOnce
import BoundedLogic.Proofs.Odometer.Names
import BoundedLogic.Proofs.ValueMap.Construction
import BoundedLogic.Proofs.Counterexample.Renderings
import BoundedLogic.Proofs.Scope.Consistency
import BoundedLogic.Proofs.Evaluation.UnboundNames
import BoundedLogic.Proofs.Quantifier.Leniency
