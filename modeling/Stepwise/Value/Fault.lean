import Stepwise.Script.Basic

/-!
The faults that end a run, by their causes, and their wording.
-/
namespace Stepwise

/-- Why a run went wrong. The last cause is a message of the host's own. -/
inductive Fault where
  | notFound (name : String)
  | wrongType (got expected : Tag)
  | operandMismatch (left : Tag) (op : BinaryOp) (right : Tag)
  | unknownUnary (op : UnaryOp) (operand : Tag)
  | unknownBinary (left : Tag) (op : BinaryOp) (right : Tag)
  | wrongArguments (want got : Nat)
  | tooDeep
  | noCallee
  | notFunction (tag : Tag)
  | raised (message : String)
deriving DecidableEq, Repr, Inhabited

/-- The wording of a fault. -/
def Fault.message : Fault → String
  | notFound name => name ++ " is not found"
  | wrongType got expected => "type mismatch: got=" ++ got.name ++ ", expected=" ++ expected.name
  | operandMismatch left op right =>
    "type mismatch: " ++ left.name ++ " " ++ op.symbol ++ " " ++ right.name
  | unknownUnary op operand => "unknown operator: " ++ op.symbol ++ operand.name
  | unknownBinary left op right =>
    "unknown operator: " ++ left.name ++ " " ++ op.symbol ++ " " ++ right.name
  | wrongArguments want got =>
    "wrong number of arguments: want=" ++ want.repr ++ ", got=" ++ got.repr
  | tooDeep => "maximum call depth exceeded"
  | noCallee => "cannot match node"
  | notFunction tag => "not a function: " ++ tag.name
  | raised message => message

end Stepwise
