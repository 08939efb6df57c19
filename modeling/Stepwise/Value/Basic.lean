import Stepwise.Value.Fault
import Stepwise.Number.Text
import Stepwise.Text.Quoted

/-!
The values of a run. A value that goes back from a function or that reports a
fault is a control value: it ends the statements around it. Texts and native
functions are instances: two of them are the same for a script only if one is a
copy of the other, which their identity tells.
-/
namespace Stepwise

/-- Who made an instance. -/
inductive Maker where
  | program | host
deriving DecidableEq, Repr, Inhabited

/-- The identity of a text or a native function. -/
structure Identity where
  maker : Maker
  serial : Nat
deriving DecidableEq, Repr, Inhabited

/-- A function that the host offers. -/
structure Native where
  name : String
  identity : Identity
deriving DecidableEq, Repr, Inhabited

/-- The callable values. -/
inductive Builtin where
  | println
  | input
  | native (f : Native)
deriving DecidableEq, Repr, Inhabited

namespace Builtin

/-- The name of a callable value. -/
def name : Builtin → String
  | println => "Println"
  | input => "Input"
  | native f => f.name

/-- The callable values that every script knows by name. -/
def ofName? : String → Option Builtin
  | "Println" => some println
  | "Input" => some input
  | _ => none

/-- Two callable values are the same if they are the same instance. -/
def same : Builtin → Builtin → Bool
  | println, println => true
  | input, input => true
  | native f, native g => f.identity = g.identity
  | _, _ => false

/-- A callable value as it is inspected. -/
def inspect : Builtin → String
  | println => "Println"
  | input => "Input"
  | native f => "Native(NativeFunction \x7b name: " ++ Text.quote f.name ++ ", .. \x7d)"

end Builtin

/-- Values. -/
inductive Value where
  | number (value : Float)
  | string (text : String) (identity : Identity)
  | bool (value : Bool)
  | null
  | returned (payload : Value)
  | error (fault : Fault)
  | builtin (b : Builtin)
deriving DecidableEq, Repr, Inhabited

namespace Value

/-- The tag of a value. -/
def tag : Value → Tag
  | number _ => .number
  | string _ _ => .string
  | bool _ => .bool
  | null => .null
  | returned _ => .returned
  | error _ => .error
  | builtin _ => .builtin

/-- Whether a value reports a fault. -/
def isError : Value → Bool
  | error _ => true
  | _ => false

/-- Whether a value ends the statements around it. -/
def isControl : Value → Bool
  | returned _ | error _ => true
  | _ => false

/-- Whether a value is the truth value true. -/
def isTrue : Value → Bool
  | bool b => b
  | _ => false

/-- The text of a truth value. -/
def boolText (b : Bool) : String :=
  if b then "true" else "false"

/-- A value as a script shows it. -/
def render : Value → String
  | number x => Number.render x
  | string text _ => text
  | bool b => boolText b
  | null => "null"
  | returned payload => payload.render
  | error fault => "ERROR: " ++ fault.message
  | builtin b => "builtin function " ++ b.name

/-- A value as it is inspected. -/
def inspect : Value → String
  | number x => "Number(" ++ Number.inspect x ++ ")"
  | string text _ => "String(" ++ Text.quote text ++ ")"
  | bool b => "Boolean(" ++ boolText b ++ ")"
  | null => "Null"
  | returned payload => "Return(" ++ payload.inspect ++ ")"
  | error fault => "Error(" ++ Text.quote fault.message ++ ")"
  | builtin b => "Builtin(" ++ b.inspect ++ ")"

/-- The equality of scripts: numbers by value, truth values and null by what they
    are, texts and callable values by instance. Control values equal nothing. -/
def identical : Value → Value → Bool
  | number x, number y => x == y
  | string _ i, string _ j => i = j
  | bool a, bool b => a = b
  | null, null => true
  | builtin a, builtin b => a.same b
  | _, _ => false

/-- Equality by content, for hosts: texts and faults by what they say. A number
    that is none differs from itself here too. -/
def alike : Value → Value → Bool
  | number x, number y => x == y
  | string s _, string t _ => s = t
  | bool a, bool b => a = b
  | null, null => true
  | returned v, returned w => v.alike w
  | error f, error g => f.message = g.message
  | builtin a, builtin b => a.same b
  | _, _ => false

end Value

end Stepwise
