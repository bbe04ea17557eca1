import RuleExpr.Assoc
import RuleExpr.Binder.Access
import RuleExpr.Binder.Aggregate
import RuleExpr.Binder.Array
import RuleExpr.Binder.Bind
import RuleExpr.Binder.Block
import RuleExpr.Binder.Call
import RuleExpr.Binder.Child
import RuleExpr.Binder.Conditional
import RuleExpr.Binder.Context
import RuleExpr.Binder.Literal
import RuleExpr.Binder.Operator
import RuleExpr.Binder.TypeReference
import RuleExpr.Bound.Basic
import RuleExpr.Bound.Eval
import RuleExpr.Bound.Method
import RuleExpr.Cast.Distance
import RuleExpr.Cast.Registry
import RuleExpr.Cast.Structural
import RuleExpr.Comparison
import RuleExpr.Config.Basic
import RuleExpr.Config.Definition
import RuleExpr.Config.QuotedText
import RuleExpr.Config.Text
import RuleExpr.Declarations
import RuleExpr.Diagnostic
import RuleExpr.Frames
import RuleExpr.Module.Basic
import RuleExpr.Module.Datatype
import RuleExpr.Module.Import
import RuleExpr.Number.Binary
import RuleExpr.Number.BinaryText
import RuleExpr.Number.Decimal.Arithmetic
import RuleExpr.Number.Decimal.Basic
import RuleExpr.Number.Decimal.Binary
import RuleExpr.Number.Decimal.Text
import RuleExpr.Number.Kind
import RuleExpr.Number.Numeral
import RuleExpr.Number.Shortest
import RuleExpr.Operators.Compare
import RuleExpr.Operators.Library
import RuleExpr.Overload
import RuleExpr.Program
import RuleExpr.Proofs.Binding.Context
import RuleExpr.Proofs.Binding.Elaboration
import RuleExpr.Proofs.Binding.Run
import RuleExpr.Proofs.Binding.Steps
import RuleExpr.Syntax.Build
import RuleExpr.Syntax.Node
import RuleExpr.Syntax.Operator
import RuleExpr.Syntax.Span
import RuleExpr.Text.Blank
import RuleExpr.Text.CodeRange
import RuleExpr.Text.GraphemeExtend
import RuleExpr.Text.Printable
import RuleExpr.Text.Quoted
import RuleExpr.Text.UpperCase
import RuleExpr.Ty.Basic
import RuleExpr.Ty.Hierarchy
import RuleExpr.Ty.Space
import RuleExpr.Value.Arithmetic
import RuleExpr.Value.Basic
import RuleExpr.Value.Convert
import RuleExpr.Workspace
import RuleExpr.Proofs.Binding.Conversions
import RuleExpr.Proofs.Binding.Answers
import RuleExpr.Proofs.Cast.Registry
import RuleExpr.Proofs.Binding.Scoping
import RuleExpr.Proofs.Binding.Typing
import RuleExpr.Proofs.Evaluation.Nodes
import RuleExpr.Proofs.Evaluation.Frames
import RuleExpr.Proofs.Evaluation.Recording
import RuleExpr.Proofs.Evaluation.Assignment
import RuleExpr.Proofs.Binding.Declared
import RuleExpr.Proofs.DefiniteAssignment
import RuleExpr.Proofs.Soundness.Assignable
import RuleExpr.Proofs.Soundness.Casts
import RuleExpr.Proofs.Soundness.Operators
import RuleExpr.Proofs.Soundness.Evaluation
import RuleExpr.Proofs.TypeSoundness
import RuleExpr.Proofs.Soundness.Targets
import RuleExpr.Proofs.Soundness.Types
import RuleExpr.Proofs.Soundness.Trees
import RuleExpr.Proofs.Soundness.Modules
import RuleExpr.Proofs.Binding.Accounting
import RuleExpr.Proofs.Binding.Failures
import RuleExpr.Proofs.Cast.Separation
import RuleExpr.Proofs.ReportedFailures
import RuleExpr.Proofs.OwnMethods
import RuleExpr.Proofs.TypeConflicts
import RuleExpr.Proofs.BuiltModules
import RuleExpr.Proofs.FirstOfKey
import RuleExpr.Proofs.Imports
import RuleExpr.Proofs.FieldLookup
import RuleExpr.Proofs.FieldAccessors
import RuleExpr.Proofs.FrameDiscipline
import RuleExpr.Proofs.Binding.Slots
import RuleExpr.Proofs.Evaluation.Library
import RuleExpr.Proofs.FrameSlots
import RuleExpr.Proofs.DatatypeObjects
import RuleExpr.Proofs.RefusedMethods
import RuleExpr.Proofs.Binding.Composition
import RuleExpr.Proofs.InternalErrors
import RuleExpr.Proofs.NestingLimit
import RuleExpr.Proofs.Cast.CommonType
import RuleExpr.Proofs.Binding.Alike
import RuleExpr.Proofs.BranchOrder
import RuleExpr.Proofs.DeprecationReports
import RuleExpr.Proofs.NearestOverload
import RuleExpr.Proofs.Cast.Written
import RuleExpr.Proofs.Soundness.Instances
import RuleExpr.Proofs.RuntimeCasts
import RuleExpr.Proofs.NearestCommonType
import RuleExpr.Proofs.AncestorLevels
import RuleExpr.Proofs.UpcastOrder
import RuleExpr.Proofs.DecimalComparisons
import RuleExpr.Proofs.ConversionChains
import RuleExpr.Proofs.ArrayInitializers
import RuleExpr.Proofs.Evaluation.Locality
import RuleExpr.Proofs.VariableLookup
import RuleExpr.Proofs.HiddenVariables
import RuleExpr.Proofs.Selections
import RuleExpr.Proofs.ComparisonOverloads
import RuleExpr.Proofs.NullComparisons
import RuleExpr.Proofs.WholeNumbers
import RuleExpr.Proofs.CharacterCodes
import RuleExpr.Proofs.Division
import RuleExpr.Proofs.IntegerLiterals
import RuleExpr.Proofs.AncestorLists
import RuleExpr.Proofs.AncestorOverloads
import RuleExpr.Proofs.DistanceWidth
import RuleExpr.Proofs.StructuralEquality
import RuleExpr.Proofs.InheritedMembers
import RuleExpr.Proofs.ImplicitTargets
