import Stepwise.Position

/-!
The scripts of the language: expressions, statements and braced blocks. Every
statement knows where it begins. The tags of values are here too, since a
declaration names one of them.
-/
namespace Stepwise

/-- The tag that tells what kind of value a value is. -/
inductive Tag where
  | number | string | bool | null | returned | error | builtin
deriving DecidableEq, Repr, Inhabited

/-- The name of a tag in messages. -/
def Tag.name : Tag → String
  | number => "NUMBER"
  | string => "STRING"
  | bool => "BOOL"
  | null => "NULL"
  | returned => "RETURN_VALUE"
  | error => "ERROR"
  | builtin => "BUILTIN"

/-- The types a variable can be declared with. -/
inductive TypeName where
  | number | string | bool
deriving DecidableEq, Repr, Inhabited

/-- The word that declares a type. -/
def TypeName.keyword : TypeName → String
  | number => "number"
  | string => "string"
  | bool => "bool"

/-- The tag that values of a declared type carry. -/
def TypeName.tag : TypeName → Tag
  | number => .number
  | string => .string
  | bool => .bool

/-- The operators in front of one operand. -/
inductive UnaryOp where
  | not | negate
deriving DecidableEq, Repr, Inhabited

/-- How a unary operator is written. -/
def UnaryOp.symbol : UnaryOp → String
  | not => "!"
  | negate => "-"

/-- The operators between two operands. -/
inductive BinaryOp where
  | add | subtract | multiply | divide
  | equal | notEqual | less | lessEqual | greater | greaterEqual
deriving DecidableEq, Repr, Inhabited

/-- How a binary operator is written. -/
def BinaryOp.symbol : BinaryOp → String
  | add => "+"
  | subtract => "-"
  | multiply => "*"
  | divide => "/"
  | equal => "=="
  | notEqual => "!="
  | less => "<"
  | lessEqual => "<="
  | greater => ">"
  | greaterEqual => ">="

/-- Expressions. A name may be a path of words joined by dots. -/
inductive Expr where
  | name (path : String)
  | number (value : Float)
  | string (text : String)
  | bool (value : Bool)
  | unary (op : UnaryOp) (operand : Expr)
  | binary (left : Expr) (op : BinaryOp) (right : Expr)
  | call (callee : Expr) (arguments : List Expr)
deriving Repr, Inhabited

mutual

/-- Statements, each with the place of the token that begins it. -/
inductive Stmt where
  | declare (position : Position) (name : String) (type : TypeName) (value : Option Expr)
  | assign (position : Position) (name : String) (value : Expr)
  | giveBack (position : Position) (value : Expr)
  | evaluate (position : Position) (value : Expr)
  | block (body : Block)
  | branch (position : Position) (condition : Expr) (consequence : Block) (alternative : Option Block)
  | loop (position : Position) (condition : Expr) (body : Block)
  | define (position : Position) (name : String) (parameters : List String) (body : Block)

/-- Statements in braces, with the place of the opening brace. -/
inductive Block where
  | mk (position : Position) (statements : List Stmt)

end

deriving instance Repr for Stmt, Block

instance : Inhabited Block := ⟨.mk default []⟩

instance : Inhabited Stmt := ⟨.block default⟩

namespace Block

/-- The place of the opening brace. -/
def position : Block → Position
  | mk p _ => p

/-- The statements between the braces. -/
def statements : Block → List Stmt
  | mk _ body => body

end Block

/-- The place where a statement begins. -/
def Stmt.position : Stmt → Position
  | declare p _ _ _ | assign p _ _ | giveBack p _ | evaluate p _ => p
  | branch p _ _ _ | loop p _ _ | define p _ _ _ => p
  | block body => body.position

end Stepwise
