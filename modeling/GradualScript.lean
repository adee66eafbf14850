import GradualScript.Main
import GradualScript.Token.Scanner
import GradualScript.Proofs.Scope.Change
import GradualScript.Proofs.Grammar.Reading
import GradualScript.Proofs.Machine.Calling
import GradualScript.Proofs.Machine.Erasure
import GradualScript.Proofs.Machine.Soundness
import GradualScript.Proofs.Machine.Isolation
import GradualScript.Proofs.Script.DeferredChecks
import GradualScript.Proofs.Script.ScopeDiscipline
import GradualScript.Proofs.Script.Constants
import GradualScript.Proofs.Script.AddedTests
import GradualScript.Proofs.Typing.Inference
import GradualScript.Proofs.Typing.Blurring
import GradualScript.Proofs.Typing.Recheck
import GradualScript.Proofs.Typing.Idempotence
import GradualScript.Proofs.Program.Places
import GradualScript.Proofs.Grammar.Progress
import GradualScript.Proofs.Grammar.Safety
import GradualScript.Proofs.Grammar.Steps
import GradualScript.Proofs.Grammar.Locality
import GradualScript.Proofs.Grammar.Written
import GradualScript.Proofs.Grammar.Soundness
import GradualScript.Proofs.Grammar.Exactness
import GradualScript.Proofs.Typing.Faults
import GradualScript.Proofs.Typing.Verdict
import GradualScript.Proofs.Machine.Conduct
import GradualScript.Proofs.Source.Line
import GradualScript.Proofs.Token.Origin
import GradualScript.Proofs.Script.Diagnostics
import GradualScript.Proofs.Grammar.Climbing
import GradualScript.Proofs.Script.FunctionOrder
import GradualScript.Proofs.Token.ViablePrefix
import GradualScript.Proofs.Grammar.ReadBack
import GradualScript.Proofs.Decimal.Quotient
import GradualScript.Proofs.Value.OperatorTable
import GradualScript.Proofs.Value.Coherence
import GradualScript.Proofs.Grammar.Layout
import GradualScript.Proofs.Grammar.TreeSpans
import GradualScript.Proofs.Grammar.CorrectPrefix
import GradualScript.Proofs.Scope.Environment
import GradualScript.Proofs.Script.Assignment
import GradualScript.Proofs.Grammar.Unlabelled
import GradualScript.Proofs.Typing.Labels
import GradualScript.Proofs.Script.LimitedOutput
import GradualScript.Proofs.Source.Lookup
import GradualScript.Proofs.Diagnostic.Caret
import GradualScript.Proofs.Value.Admission
import GradualScript.Proofs.Grammar.Forward
