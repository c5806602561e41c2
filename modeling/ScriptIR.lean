import ScriptIR.CommandLine.LogLevel
import ScriptIR.Main
import ScriptIR.Program.Equality
import ScriptIR.Proofs.Lowering.Composition
import ScriptIR.Storage.Directory
import ScriptIR.Proofs.Lowering.Readings
import ScriptIR.Proofs.Scope.Growth
import ScriptIR.Proofs.Scope.Balance
import ScriptIR.Proofs.Diagnostics.Reports
import ScriptIR.Proofs.Lowering.Recovery
import ScriptIR.Proofs.Lowering.Unnamed
import ScriptIR.Proofs.Lowering.Strictness
import ScriptIR.Proofs.Syntax.Preorder
import ScriptIR.Proofs.Lowering.Order
import ScriptIR.Proofs.Scope.Visible
import ScriptIR.Proofs.Lowering.Alike
import ScriptIR.Proofs.Lowering.Lexical
import ScriptIR.Proofs.Lowering.Arguments
import ScriptIR.Proofs.Text.Separators
import ScriptIR.Proofs.Lowering.Frames
import ScriptIR.Proofs.Diagnostics.Recorded
import ScriptIR.Proofs.Lowering.ParameterNames
import ScriptIR.Proofs.Lowering.Flags
import ScriptIR.Proofs.Types.Tokens
import ScriptIR.Proofs.Types.Reading
import ScriptIR.Proofs.Types.Brackets
import ScriptIR.Proofs.Types.Recognition
import ScriptIR.Proofs.Types.Rendering
import ScriptIR.Proofs.Lowering.Unknowns
import ScriptIR.Proofs.Scope.Chronicle
import ScriptIR.Proofs.Lowering.AlikeInScopes
import ScriptIR.Proofs.Lowering.Independence
import ScriptIR.Proofs.Lowering.Wrapping
import ScriptIR.Proofs.Syntax.Loading
import ScriptIR.Proofs.Lowering.Contents
import ScriptIR.Proofs.Lowering.GivingUp
import ScriptIR.Proofs.Lowering.Bindings
import ScriptIR.Proofs.Syntax.Overflow
import ScriptIR.Proofs.Diagnostics.Headings
import ScriptIR.Proofs.Lowering.Retagging
import ScriptIR.Proofs.Syntax.Respelling
import ScriptIR.Proofs.Conversion.Collected
import ScriptIR.Proofs.Conversion.ExitCode
import ScriptIR.Proofs.Conversion.Spellings
import ScriptIR.Proofs.Lowering.Provenance
import ScriptIR.Proofs.Diagnostics.Books
import ScriptIR.Proofs.Text.Letters
import ScriptIR.Proofs.Types.Letters
import ScriptIR.Proofs.Program.Recased
import ScriptIR.Proofs.Lowering.InStep
import ScriptIR.Proofs.Lowering.Recasing
import ScriptIR.Proofs.Lowering.IgnoringCase
import ScriptIR.Proofs.Scope.Enlarged
import ScriptIR.Proofs.Lowering.ScriptBlocks
import ScriptIR.Proofs.Lowering.Visits
import ScriptIR.Proofs.Lowering.Visited
import ScriptIR.Proofs.Lowering.Arity
import ScriptIR.Proofs.Lowering.OperandTypes
import ScriptIR.Proofs.Diagnostics.Attribution
import ScriptIR.Proofs.Syntax.FileNames
import ScriptIR.Proofs.Program.Resemblance
import ScriptIR.Proofs.Lowering.ArrayArguments
import ScriptIR.Proofs.Lowering.Secured
import ScriptIR.Proofs.Lowering.ArgumentOrder
import ScriptIR.Proofs.Syntax.Nulls
import ScriptIR.Proofs.Syntax.Fringe
import ScriptIR.Proofs.Types.Stripping
import ScriptIR.Proofs.Lowering.Parameters
