import Stepwise.Store.Table
import Stepwise.Text.Segments
import Stepwise.Value.Basic

/-!
The native functions that a host offers, found by dotted names. The word in
front of the first dot chooses a resolver: a fixed table, which always hands out
the same function for a name, a maker, which makes a new function every time it
is asked, or any other rule.
-/
namespace Stepwise

/-- Whether a name has more than one segment. -/
def isDotted (name : String) : Bool :=
  name.toList.contains '.'

/-- What finds the functions of one host library. A maker tells from the path
    whether there is a function, and what it is called. A rule goes by the path and
    by the identity that a function made now would get. -/
inductive Resolver where
  | table (functions : Table Native)
  | maker (name? : List String → Option String)
  | rule (function? : List String → Identity → Option Native)

/-- A table of functions, by their own names; a later one replaces an earlier one
    of its name. -/
def Resolver.ofFunctions (functions : List Native) : Resolver :=
  .table (functions.foldl (fun t f => t.insert f.name f) .empty)

/-- The function at a path, `fresh` being the identity of one made now. -/
def Resolver.resolve (path : List String) (fresh : Identity) : Resolver → Option Native
  | table functions => functions.get? (".".intercalate path)
  | maker name? => (name? path).map fun name => ⟨name, fresh⟩
  | rule function? => function? path fresh

/-- The resolvers of a host, by the first word of the names they know. -/
structure Registry where
  resolvers : Table Resolver

namespace Registry

/-- The registry that knows nothing. -/
def empty : Registry := ⟨.empty⟩

instance : Inhabited Registry := ⟨empty⟩

/-- Whether nothing is registered. -/
def isEmpty (r : Registry) : Bool :=
  r.resolvers.entries.isEmpty

/-- Registers a resolver under a first word, in place of any earlier one. -/
def register (r : Registry) (word : String) (resolver : Resolver) : Registry :=
  ⟨r.resolvers.insert word resolver⟩

/-- The function of a dotted name, `fresh` being the identity of one made now. -/
def resolve (r : Registry) (name : String) (fresh : Identity) : Option Native :=
  let path := (Text.segments '.' name.toList).map String.ofList
  match path with
  | [] => none
  | word :: _ => (r.resolvers.get? word).bind (·.resolve path fresh)

/-- A registry as it is inspected. -/
def inspect (r : Registry) : String :=
  "BuiltinRegistry \x7b prefixes: [" ++ ", ".intercalate (r.resolvers.names.map Text.quote) ++ "] \x7d"

end Registry

end Stepwise
