import Stepwise.Store.Table
import Stepwise.Value.Basic

/-!
The store: all scopes of a run, called frames. A frame binds names to values and
to functions, and lies inside other frames. A name means what the innermost
frame around it says. Frames are never removed and never move, so a handle on a
frame stays good and shows later changes.
-/
namespace Stepwise

/-- A function that a script defines. -/
structure Function where
  name : String
  parameters : List String
  body : Block
deriving Repr, Inhabited

/-- A handle on a frame. -/
abbrev FrameId := Nat

/-- A scope: the frames around it from the inside out, the values it binds and the
    functions it defines. -/
structure Frame where
  outers : List FrameId
  bindings : Table Value
  functions : Table Function
deriving Repr

/-- A frame that binds nothing. -/
def Frame.inside (outers : List FrameId) : Frame :=
  ⟨outers, .empty, .empty⟩

/-- All frames of a run. -/
structure Store where
  frames : Array Frame
deriving Repr

namespace Store

/-- The store without frames. -/
def empty : Store := ⟨#[]⟩

instance : Inhabited Store := ⟨empty⟩

/-- The frames around a frame, from the inside out. -/
def outers (s : Store) (f : FrameId) : List FrameId :=
  match s.frames[f]? with
  | some frame => frame.outers
  | none => []

/-- A frame and the frames around it, from the inside out. -/
def chain (s : Store) (f : FrameId) : List FrameId :=
  f :: s.outers f

/-- What a frame binds by itself. -/
def bindings (s : Store) (f : FrameId) : Table Value :=
  match s.frames[f]? with
  | some frame => frame.bindings
  | none => .empty

/-- What a frame defines by itself. -/
def functions (s : Store) (f : FrameId) : Table Function :=
  match s.frames[f]? with
  | some frame => frame.functions
  | none => .empty

/-- The frame directly around a frame. -/
def outer? (s : Store) (f : FrameId) : Option FrameId :=
  (s.outers f).head?

/-- How many frames lie around a frame. -/
def depth (s : Store) (f : FrameId) : Nat :=
  (s.outers f).length

/-- The handle on the next frame that is made. -/
def next (s : Store) : FrameId :=
  s.frames.size

/-- The store with a new frame inside the given ones. -/
def push (s : Store) (outers : List FrameId) : Store :=
  ⟨s.frames.push (.inside outers)⟩

/-- A new frame with no frame around it. -/
def root (s : Store) : Store × FrameId :=
  let f := s.next
  (s.push [], f)

/-- A new frame inside a frame. -/
def enclose (s : Store) (f : FrameId) : Store × FrameId :=
  let g := s.next
  let outers := s.chain f
  (s.push outers, g)

/-- The value of a name in a frame, as the innermost frame that binds it says. -/
def get? (s : Store) (f : FrameId) (name : String) : Option Value :=
  (s.chain f).findSome? fun g => (s.bindings g).get? name

/-- The function of a name in a frame, as the innermost frame that defines it says. -/
def function? (s : Store) (f : FrameId) (name : String) : Option Function :=
  (s.chain f).findSome? fun g => (s.functions g).get? name

/-- Binds a name in a frame itself. -/
def set (s : Store) (f : FrameId) (name : String) (value : Value) : Store :=
  ⟨s.frames.modify f fun frame => { frame with bindings := frame.bindings.insert name value }⟩

/-- Defines a function in a frame itself. -/
def define (s : Store) (f : FrameId) (function : Function) : Store :=
  ⟨s.frames.modify f fun frame =>
    { frame with functions := frame.functions.insert function.name function }⟩

/-- The innermost frame that binds a name. -/
def owner? (s : Store) (f : FrameId) (name : String) : Option FrameId :=
  (s.chain f).find? fun g => (s.bindings g).contains name

/-- The frame in which a name may take another value, seen from a frame. The tag
    has to stay, unless the name is bound to null. -/
def slot (s : Store) (f : FrameId) (name : String) (value : Value) : Except Fault FrameId :=
  match s.owner? f name, s.get? f name with
  | some g, some old =>
    if old.tag = .null ∨ old.tag = value.tag then .ok g else .error (.wrongType value.tag old.tag)
  | _, _ => .error (.notFound name)

/-- Gives a name another value in the frame that binds it. -/
def update (s : Store) (f : FrameId) (name : String) (value : Value) : Except Fault Store :=
  (s.slot f name value).map fun g => s.set g name value

/-- Binds names to values in a frame, in the order given. -/
def setEach (s : Store) (f : FrameId) : List (String × Value) → Store
  | [] => s
  | (name, value) :: rest => (s.set f name value).setEach f rest

/-- What can be seen from a frame, in the order of the names. -/
def visible (s : Store) (f : FrameId) : Table Value :=
  (s.chain f).foldr (fun g seen => (s.bindings g).overlay seen) .empty

end Store

end Stepwise
