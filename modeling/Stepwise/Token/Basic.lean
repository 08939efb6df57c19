import Stepwise.Position

/-!
The tokens of a script: their kinds, the words diagnostics use for them, and
how strongly each kind binds when it stands between two expressions.
-/
namespace Stepwise

/-- What a token is. -/
inductive Kind where
  | leftParen | rightParen | leftBrace | rightBrace | leftBracket | rightBracket
  | comma | colon | dot | minus | plus | semicolon | slash | star
  | bang | bangEqual | equal | equalEqual | greater | greaterEqual | less | lessEqual
  | identifier | string | number
  | elseWord | falseWord | funcWord | ifWord | letWord | returnWord | trueWord | whileWord
  | numberType | stringType | boolType
  | illegal | eof
deriving DecidableEq, Repr, Inhabited

namespace Kind

/-- The word for a kind of token in diagnostics. -/
def describe : Kind → String
  | leftParen => "("
  | rightParen => ")"
  | leftBrace => "\x7b"
  | rightBrace => "\x7d"
  | leftBracket => "["
  | rightBracket => "]"
  | comma => ","
  | colon => ":"
  | dot => "."
  | minus => "-"
  | plus => "+"
  | semicolon => ";"
  | slash => "/"
  | star => "*"
  | bang => "!"
  | bangEqual => "!="
  | equal => "="
  | equalEqual => "=="
  | greater => ">"
  | greaterEqual => ">="
  | less => "<"
  | lessEqual => "<="
  | identifier => "IDENT"
  | string => "STRING"
  | number => "NUMBER"
  | elseWord => "else"
  | falseWord => "false"
  | funcWord => "func"
  | ifWord => "if"
  | letWord => "let"
  | returnWord => "return"
  | trueWord => "true"
  | whileWord => "while"
  | numberType => "number"
  | stringType => "string"
  | boolType => "bool"
  | illegal => "ILLEGAL"
  | eof => "EOF"

/-- The kind of a word: one of the eleven reserved words, else a name. -/
def ofWord (word : String) : Kind :=
  match word with
  | "else" => elseWord
  | "false" => falseWord
  | "func" => funcWord
  | "if" => ifWord
  | "let" => letWord
  | "return" => returnWord
  | "true" => trueWord
  | "while" => whileWord
  | "number" => numberType
  | "string" => stringType
  | "bool" => boolType
  | _ => identifier

end Kind

/-- How strongly an operator binds, weakest first. -/
inductive Precedence where
  | lowest | equality | comparison | sum | product | unary | call
deriving DecidableEq, Repr, Inhabited

namespace Precedence

/-- The place of a precedence in the order from weak to strong. -/
def rank : Precedence → Nat
  | lowest => 0
  | equality => 1
  | comparison => 2
  | sum => 3
  | product => 4
  | unary => 5
  | call => 6

instance : LT Precedence := ⟨fun p q => p.rank < q.rank⟩

instance (p q : Precedence) : Decidable (p < q) :=
  inferInstanceAs (Decidable (p.rank < q.rank))

end Precedence

/-- How strongly a token binds to an expression in front of it. -/
def Kind.precedence : Kind → Precedence
  | .equalEqual | .bangEqual => .equality
  | .less | .lessEqual | .greater | .greaterEqual => .comparison
  | .plus | .minus => .sum
  | .star | .slash => .product
  | .leftParen => .call
  | _ => .lowest

/-- A token: its kind, the text it stands for and where it begins. The literal
    of a string token leaves out the quotes. -/
structure Token where
  kind : Kind
  literal : String
  position : Position
deriving DecidableEq, Repr, Inhabited

/-- The width of a token in characters, at least one. -/
def Token.width (t : Token) : Nat :=
  max 1 t.literal.length

end Stepwise
