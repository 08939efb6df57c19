import Stepwise.Script.Basic

/-!
The outline of a script: its statements and blocks in preorder, each with its
depth. A block that stands for itself is one node, not a statement with a block
below it.
-/
namespace Stepwise

/-- What a block is to the statement it belongs to. -/
inductive Role where
  | own | consequence | alternative | body
deriving DecidableEq, Repr

/-- A node of an outline. -/
inductive Node where
  | statement (s : Stmt)
  | block (role : Role) (b : Block)
deriving Repr

/-- A node and its depth, the whole script being at depth zero. -/
structure Entry where
  depth : Nat
  node : Node
deriving Repr

mutual

/-- The outline of a statement at a depth. -/
def Stmt.outline (depth : Nat) : Stmt → List Entry
  | .block body => body.outline depth .own
  | .branch p condition consequence none =>
    ⟨depth, .statement (.branch p condition consequence none)⟩ ::
      consequence.outline (depth + 1) .consequence
  | .branch p condition consequence (some alternative) =>
    ⟨depth, .statement (.branch p condition consequence (some alternative))⟩ ::
      (consequence.outline (depth + 1) .consequence ++ alternative.outline (depth + 1) .alternative)
  | .loop p condition body =>
    ⟨depth, .statement (.loop p condition body)⟩ :: body.outline (depth + 1) .body
  | .define p name parameters body =>
    ⟨depth, .statement (.define p name parameters body)⟩ :: body.outline (depth + 1) .body
  | .declare p name type value => [⟨depth, .statement (.declare p name type value)⟩]
  | .assign p name value => [⟨depth, .statement (.assign p name value)⟩]
  | .giveBack p value => [⟨depth, .statement (.giveBack p value)⟩]
  | .evaluate p value => [⟨depth, .statement (.evaluate p value)⟩]

/-- The outline of a block at a depth. -/
def Block.outline (depth : Nat) (role : Role) : Block → List Entry
  | .mk p statements =>
    ⟨depth, .block role (.mk p statements)⟩ :: outlineEach (depth + 1) statements

/-- The outlines of statements in a row. -/
def outlineEach (depth : Nat) : List Stmt → List Entry
  | [] => []
  | s :: rest => s.outline depth ++ outlineEach depth rest

end

end Stepwise
