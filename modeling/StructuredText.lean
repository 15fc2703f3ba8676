import StructuredText.Compile
import StructuredText.Diagnostic
import StructuredText.Exchange.Library
import StructuredText.Lowering.Emitter
import StructuredText.Tree.Build
import StructuredText.Tree.Equality
import StructuredText.Tree.Walk
import StructuredText.Proofs.Outcome
import StructuredText.Proofs.Analysis.Accepted
import StructuredText.Proofs.Types.Origin
import StructuredText.Proofs.Call.Overloads
import StructuredText.Proofs.Analysis.Resolved
import StructuredText.Proofs.Lowering.Limit
import StructuredText.Proofs.Lowering.Call
import StructuredText.Proofs.Lowering.Body
import StructuredText.Proofs.Scope.History
import StructuredText.Proofs.Scope.Unit
import StructuredText.Proofs.Scope.Declaration
import StructuredText.Proofs.Lowering.Library
import StructuredText.Proofs.Analysis.References
import StructuredText.Proofs.Lowering.Run
import StructuredText.Proofs.Lowering.Sequence
import StructuredText.Proofs.Lowering.Names
import StructuredText.Proofs.Call.Binding
import StructuredText.Proofs.Lowering.Protocol
import StructuredText.Proofs.Code.Visible
import StructuredText.Proofs.Code.Switch
import StructuredText.Proofs.Code.Lexer
import StructuredText.Proofs.Code.Grammar
import StructuredText.Proofs.Code.Reading
import StructuredText.Proofs.Lowering.Frame
import StructuredText.Proofs.Lowering.Output
import StructuredText.Proofs.Lowering.Exits
import StructuredText.Proofs.Lowering.Selection
import StructuredText.Proofs.Lowering.Operators
import StructuredText.Proofs.Json.Token
import StructuredText.Proofs.Json.Written
import StructuredText.Proofs.Exchange.Reader
import StructuredText.Proofs.Exchange.Token
import StructuredText.Proofs.Exchange.Declaration
import StructuredText.Proofs.Exchange.Expr
import StructuredText.Proofs.Exchange.Library
import StructuredText.Proofs.Types.Fixpoint
import StructuredText.Proofs.Types.Meaning
import StructuredText.Proofs.Analysis.Independence
import StructuredText.Proofs.Code.Indentation
import StructuredText.Proofs.Spelling.Compile
import StructuredText.Proofs.Analysis.Part
import StructuredText.Proofs.Analysis.Storable
import StructuredText.Proofs.Call.Actual
import StructuredText.Proofs.Call.Output
import StructuredText.Proofs.Analysis.Assignable
import StructuredText.Proofs.Analysis.Constant
import StructuredText.Proofs.Lowering.Invocation
import StructuredText.Proofs.Lowering.StoreType
import StructuredText.Proofs.Code.Mangling
import StructuredText.Proofs.Lowering.Distinct
import StructuredText.Proofs.Code.Outline
import StructuredText.Proofs.Lowering.TypeOrder
import StructuredText.Proofs.Lowering.DeclarationOrder
import StructuredText.Proofs.Code.Pointer
import StructuredText.Proofs.Lowering.Passing
import StructuredText.Proofs.Lowering.Hardware
import StructuredText.Proofs.Lowering.Negation
import StructuredText.Proofs.Lowering.NullPointer
import StructuredText.Proofs.Call.Distribution
import StructuredText.Proofs.Analysis.Closed
import StructuredText.Proofs.Code.Leaf
import StructuredText.Proofs.Lowering.Growth
import StructuredText.Proofs.Lowering.Leaf
import StructuredText.Proofs.Code.Routine
import StructuredText.Proofs.Lowering.HelperNames
import StructuredText.Proofs.Lowering.EnumConstants
import StructuredText.Proofs.Call.Conservation
import StructuredText.Proofs.Call.Choice
import StructuredText.Proofs.Call.Literal
import StructuredText.Proofs.Lowering.Rearrangement
import StructuredText.Proofs.Code.Nibble
import StructuredText.Proofs.Code.Number
import StructuredText.Proofs.Lowering.Temporal
import StructuredText.Proofs.Lowering.Counting
import StructuredText.Proofs.Code.Quoted
import StructuredText.Proofs.Code.Duration
import StructuredText.Proofs.Types.Compatible
import StructuredText.Proofs.Types.InlineName
import StructuredText.Proofs.Lowering.ArrayDeclaration
import StructuredText.Proofs.Lowering.InlineShape
import StructuredText.Proofs.Lowering.InlineOrder
import StructuredText.Proofs.Lowering.TypeMeaning
import StructuredText.Proofs.Lowering.Addressing
import StructuredText.Proofs.Tree.Tour
import StructuredText.Proofs.Token.Address
import StructuredText.Proofs.Token.Integer
import StructuredText.Proofs.Lowering.Emission
