import Stepwise.Script.Basic
import Stepwise.Number.Text

/-!
Scripts as text. Every operator is written with its own parentheses, so the
text shows how an expression was understood. Text in quotes is written as it
is, without escapes.
-/
namespace Stepwise

mutual

/-- The text of an expression. -/
def Expr.render : Expr → String
  | .name path => path
  | .number value => Number.render value
  | .string text => "\"" ++ text ++ "\""
  | .bool value => if value then "true" else "false"
  | .unary op operand => "(" ++ op.symbol ++ operand.render ++ ")"
  | .binary left op right => "(" ++ left.render ++ " " ++ op.symbol ++ " " ++ right.render ++ ")"
  | .call callee arguments => callee.render ++ "(" ++ ", ".intercalate (renderEach arguments) ++ ")"

/-- The texts of the arguments of a call. -/
def Expr.renderEach : List Expr → List String
  | [] => []
  | e :: es => e.render :: renderEach es

end

/-- The head of a declaration, up to the type. -/
def renderDeclared (name : String) (type : TypeName) : String :=
  "let " ++ name ++ ": " ++ type.keyword

mutual

/-- The text of a statement. -/
def Stmt.render : Stmt → String
  | .declare _ name type (some value) => renderDeclared name type ++ " = " ++ value.render ++ ";"
  | .declare _ name type none => renderDeclared name type ++ ";"
  | .assign _ name value => name ++ " = " ++ value.render ++ ";"
  | .giveBack _ value => "return " ++ value.render ++ ";"
  | .evaluate _ value => value.render
  | .block body => body.render
  | .branch _ condition consequence none =>
    "if (" ++ condition.render ++ ") " ++ consequence.render
  | .branch _ condition consequence (some alternative) =>
    "if (" ++ condition.render ++ ") " ++ consequence.render ++ " else " ++ alternative.render
  | .loop _ condition body => "while (" ++ condition.render ++ ") " ++ body.render
  | .define _ name parameters body =>
    "func " ++ name ++ "(" ++ ", ".intercalate parameters ++ ") " ++ body.render

/-- The text of a block. -/
def Block.render : Block → String
  | .mk _ statements => "\x7b" ++ Block.renderBody statements ++ " \x7d"

/-- The statements of a block, each with a blank in front. -/
def Block.renderBody : List Stmt → String
  | [] => ""
  | s :: rest => " " ++ s.render ++ Block.renderBody rest

end

/-- The text of a whole script, one statement a line. -/
def renderScript (script : List Stmt) : String :=
  "\n".intercalate (script.map Stmt.render)

end Stepwise
