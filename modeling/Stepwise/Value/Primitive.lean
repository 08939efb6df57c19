import Stepwise.Value.Basic

/-!
The plain data that goes between a script and its host, and the results of
operators, which are plain data too. A plain text has no identity yet; it gets
one when it becomes a value.
-/
namespace Stepwise

/-- Plain data. -/
inductive Primitive where
  | string (text : String)
  | number (value : Float)
  | bool (value : Bool)
  | null
deriving DecidableEq, Repr, Inhabited

namespace Primitive

/-- What the host sees of a value. -/
def ofValue : Value → Primitive
  | .number x => number x
  | .string text _ => string text
  | .bool b => bool b
  | .null => null
  | .returned payload => ofValue payload
  | .error fault => string (Value.error fault).render
  | .builtin b => string (Value.builtin b).render

/-- Plain data as a value, a text with the given identity. -/
def toValue (identity : Identity) : Primitive → Value
  | string text => .string text identity
  | number x => .number x
  | bool b => .bool b
  | null => .null

/-- Plain data as the host shows it. -/
def render : Primitive → String
  | string text => text
  | number x => Number.render x
  | bool b => Value.boolText b
  | null => "null"

end Primitive

/-- What a unary operator makes of a value. Everything but true counts as false
    for a negation, except that null negates to true. -/
def UnaryOp.apply : UnaryOp → Value → Except Fault Primitive
  | not, .bool b => .ok (.bool !b)
  | not, .null => .ok (.bool true)
  | not, _ => .ok (.bool false)
  | negate, .number x => .ok (.number (-x))
  | negate, v => .error (.unknownUnary negate v.tag)

/-- What a binary operator makes of two numbers. -/
def BinaryOp.applyNumbers (op : BinaryOp) (x y : Float) : Primitive :=
  match op with
  | add => .number (x + y)
  | subtract => .number (x - y)
  | multiply => .number (x * y)
  | divide => .number (x / y)
  | equal => .bool (x == y)
  | notEqual => .bool (x != y)
  | less => .bool (decide (x < y))
  | lessEqual => .bool (decide (x ≤ y))
  | greater => .bool (decide (y < x))
  | greaterEqual => .bool (decide (y ≤ x))

/-- What a binary operator makes of two values that are not both numbers. Any two
    values can be compared for equality; nothing else is known of values with
    different tags, and texts can be joined and ordered. -/
def BinaryOp.applyOthers (op : BinaryOp) (left right : Value) : Except Fault Primitive :=
  match op, left, right with
  | equal, _, _ => .ok (.bool (left.identical right))
  | notEqual, _, _ => .ok (.bool !left.identical right)
  | add, .string s _, .string t _ => .ok (.string (s ++ t))
  | less, .string s _, .string t _ => .ok (.bool (decide (s < t)))
  | greater, .string s _, .string t _ => .ok (.bool (decide (t < s)))
  | _, _, _ =>
    if left.tag = right.tag then .error (.unknownBinary left.tag op right.tag)
    else .error (.operandMismatch left.tag op right.tag)

/-- What a binary operator makes of two values. -/
def BinaryOp.apply (op : BinaryOp) : Value → Value → Except Fault Primitive
  | .number x, .number y => .ok (op.applyNumbers x y)
  | left, right => op.applyOthers left right

end Stepwise
