import ShapeCheck.Files.Tree
import ShapeCheck.Main
import ShapeCheck.Settings.LogFormat
import ShapeCheck.Proofs.Inlining.Places
import ShapeCheck.Proofs.Inlining.Rounds
import ShapeCheck.Validation.Guards
import ShapeCheck.Proofs.Compilation.Tidy
import ShapeCheck.Proofs.Compilation.Stages
import ShapeCheck.Proofs.Evaluation.Observers
import ShapeCheck.Proofs.Inlining.Reports
import ShapeCheck.Proofs.Naming.Quotation
import ShapeCheck.Proofs.Meaning.Equations
import ShapeCheck.Proofs.Meaning.Keys
import ShapeCheck.Proofs.Naming.Marks
import ShapeCheck.Proofs.Evaluation.Tests
import ShapeCheck.Proofs.Meaning.Predicates
import ShapeCheck.Proofs.Meaning.Strategies
import ShapeCheck.Proofs.Meaning.Correctness
import ShapeCheck.Proofs.Naming.Brackets
import ShapeCheck.Proofs.Number.Shortest
import ShapeCheck.Proofs.Number.Numeral
import ShapeCheck.Proofs.Naming.Forms
import ShapeCheck.Proofs.Naming.Reading
import ShapeCheck.Proofs.Naming.Names
import ShapeCheck.Proofs.Naming.Unfolding
import ShapeCheck.Proofs.Meaning.Alike
import ShapeCheck.Proofs.Meaning.Twins
import ShapeCheck.Proofs.Meaning.Sharing
import ShapeCheck.Proofs.Instantiation.Chains
import ShapeCheck.Proofs.Termination.Documents
import ShapeCheck.Proofs.Recursion.Consumption
import ShapeCheck.Proofs.Evaluation.Decisions
import ShapeCheck.Proofs.Failing
import ShapeCheck.Proofs.Sealing.Registries
import ShapeCheck.Proofs.Sealing.Strategies
import ShapeCheck.Proofs.Sealing.Validators
import ShapeCheck.Proofs.Documents.Compilation
import ShapeCheck.Proofs.Script.Roundtrip
import ShapeCheck.Proofs.Reports.Validators
import ShapeCheck.Proofs.Inheritance.Access
import ShapeCheck.Proofs.Defaults.References
import ShapeCheck.Proofs.Renaming.Reordering
import ShapeCheck.Proofs.Narrowing.Repeating
import ShapeCheck.Proofs.Narrowing.Selection
import ShapeCheck.Proofs.Narrowing.Subjects
import ShapeCheck.Proofs.Inheritance.Keys
import ShapeCheck.Proofs.Inheritance.Members
import ShapeCheck.Proofs.Semantics.Equations
import ShapeCheck.Proofs.Semantics.Names
import ShapeCheck.Proofs.Semantics.Correctness
import ShapeCheck.Proofs.Inheritance.Bases
import ShapeCheck.Proofs.Inheritance.Extending
import ShapeCheck.Proofs.Narrowing.Tables
import ShapeCheck.Proofs.Narrowing.Coverage
import ShapeCheck.Proofs.Narrowing.Limits
import ShapeCheck.Proofs.Narrowing.Likeness
import ShapeCheck.Proofs.Agreement.Bodies
import ShapeCheck.Proofs.Agreement.Registries
import ShapeCheck.Proofs.Inlining.FixedPoint
import ShapeCheck.Proofs.Naming.Rearranging
import ShapeCheck.Proofs.Sessions.Strategies
import ShapeCheck.Proofs.Semantics.Tuples
import ShapeCheck.Proofs.Reports.Alternatives
import ShapeCheck.Proofs.Narrowing.Validators
import ShapeCheck.Proofs.Evaluation.Limits
import ShapeCheck.Proofs.Arenas.Interners
import ShapeCheck.Proofs.Documents.Roundtrip
import ShapeCheck.Proofs.Settings.Chains
import ShapeCheck.Proofs.Script.Linking
import ShapeCheck.Proofs.Relaxed.Forgiving
import ShapeCheck.Proofs.Arguments.Guarding
import ShapeCheck.Proofs.Evaluation.Lookups
import ShapeCheck.Proofs.Script.Stems
