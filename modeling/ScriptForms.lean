import ScriptForms.Command.Arguments
import ScriptForms.Command.Files
import ScriptForms.Command.Path
import ScriptForms.Command.Run
import ScriptForms.Form.Basic
import ScriptForms.Form.Json
import ScriptForms.Form.Printer
import ScriptForms.Json.Basic
import ScriptForms.Json.Decode
import ScriptForms.Lowering.Basic
import ScriptForms.Lowering.Expression
import ScriptForms.Lowering.Program
import ScriptForms.Lowering.Statement
import ScriptForms.Main
import ScriptForms.Node.Access
import ScriptForms.Node.Basic
import ScriptForms.Node.Branch
import ScriptForms.Node.Json
import ScriptForms.Proofs.Acceptance.Basic
import ScriptForms.Proofs.Acceptance.Convert
import ScriptForms.Proofs.Acceptance.Expression
import ScriptForms.Proofs.Acceptance.Statement
import ScriptForms.Proofs.Access
import ScriptForms.Proofs.Agreement.Basic
import ScriptForms.Proofs.Agreement.Convert
import ScriptForms.Proofs.Agreement.Expression
import ScriptForms.Proofs.Agreement.Statement
import ScriptForms.Proofs.Command.Boundary
import ScriptForms.Proofs.Command.Files
import ScriptForms.Proofs.Command.Overwriting
import ScriptForms.Proofs.Comment
import ScriptForms.Proofs.Condition
import ScriptForms.Proofs.Conversion
import ScriptForms.Proofs.Form.Balance
import ScriptForms.Proofs.Form.Compact
import ScriptForms.Proofs.Form.Free
import ScriptForms.Proofs.Form.Literal
import ScriptForms.Proofs.Form.Serialization
import ScriptForms.Proofs.Form.Shape
import ScriptForms.Proofs.Form.Subform
import ScriptForms.Proofs.Form.Word
import ScriptForms.Proofs.Gauge.Basic
import ScriptForms.Proofs.Gauge.Convert
import ScriptForms.Proofs.Gauge.Count
import ScriptForms.Proofs.Gauge.Expression
import ScriptForms.Proofs.Gauge.Statement
import ScriptForms.Proofs.Host
import ScriptForms.Proofs.Hygiene
import ScriptForms.Proofs.Json.Text
import ScriptForms.Proofs.Json.Tree
import ScriptForms.Proofs.Json.Value
import ScriptForms.Proofs.Legibility
import ScriptForms.Proofs.Literal
import ScriptForms.Proofs.Locality
import ScriptForms.Proofs.Lowering.Basic
import ScriptForms.Proofs.Lowering.Depth
import ScriptForms.Proofs.Lowering.Expression
import ScriptForms.Proofs.Lowering.Program
import ScriptForms.Proofs.Lowering.Statement
import ScriptForms.Proofs.Module
import ScriptForms.Proofs.Nesting
import ScriptForms.Proofs.Node.Accepted
import ScriptForms.Proofs.Node.Chain
import ScriptForms.Proofs.Node.Free
import ScriptForms.Proofs.Node.Grammar
import ScriptForms.Proofs.Node.Kept
import ScriptForms.Proofs.Node.Place
import ScriptForms.Proofs.Node.Proper
import ScriptForms.Proofs.Node.Shape
import ScriptForms.Proofs.Node.Subtree
import ScriptForms.Proofs.Node.Text
import ScriptForms.Proofs.Object
import ScriptForms.Proofs.Outcome
import ScriptForms.Proofs.Precedence
import ScriptForms.Proofs.Qualification
import ScriptForms.Proofs.Rebinding
import ScriptForms.Proofs.Receiver
import ScriptForms.Proofs.Recursion
import ScriptForms.Proofs.Repetition
import ScriptForms.Proofs.Return
import ScriptForms.Proofs.Shadowing
import ScriptForms.Proofs.Shape.Basic
import ScriptForms.Proofs.Shape.Convert
import ScriptForms.Proofs.Shape.Expression
import ScriptForms.Proofs.Shape.Statement
import ScriptForms.Proofs.Source.Chunk
import ScriptForms.Proofs.Source.Comment
import ScriptForms.Proofs.Source.Escape
import ScriptForms.Proofs.Source.Template
import ScriptForms.Proofs.Spread
import ScriptForms.Proofs.Switch.Break
import ScriptForms.Proofs.Switch.Constant
import ScriptForms.Proofs.Switch.Dispatch
import ScriptForms.Proofs.Switch.Group
import ScriptForms.Proofs.Switch.Reach
import ScriptForms.Proofs.Text.Parser
import ScriptForms.Proofs.Threading
import ScriptForms.Proofs.Token.Diagnosis
import ScriptForms.Proofs.Token.Layout
import ScriptForms.Proofs.Token.Lexeme
import ScriptForms.Proofs.Token.Reading
import ScriptForms.Proofs.Tree.Basic
import ScriptForms.Proofs.Tree.Grammar
import ScriptForms.Rule.Access
import ScriptForms.Rule.Basic
import ScriptForms.Rule.Convert
import ScriptForms.Rule.Element
import ScriptForms.Rule.Fault
import ScriptForms.Rule.Literal
import ScriptForms.Rule.Module
import ScriptForms.Rule.Statement
import ScriptForms.Scope
import ScriptForms.Settings
import ScriptForms.Source.Class
import ScriptForms.Source.Comment
import ScriptForms.Source.Element
import ScriptForms.Source.Escape
import ScriptForms.Source.Expression
import ScriptForms.Source.Function
import ScriptForms.Source.Grammar
import ScriptForms.Source.Lexeme
import ScriptForms.Source.Literal
import ScriptForms.Source.Module
import ScriptForms.Source.Operator
import ScriptForms.Source.Pattern
import ScriptForms.Source.Program
import ScriptForms.Source.Semicolon
import ScriptForms.Source.Statement
import ScriptForms.Source.Token
import ScriptForms.Text.Blank
import ScriptForms.Text.Hex
import ScriptForms.Text.Letter
import ScriptForms.Text.Lexeme
import ScriptForms.Text.Parser
import ScriptForms.Text.Quoted
import ScriptForms.Token.Basic
import ScriptForms.Token.Layout
import ScriptForms.Toml.Basic
import ScriptForms.Toml.Parser
import ScriptForms.Transform
import ScriptForms.Tree.Basic
