import Stepwise.Proofs.Layout
import Stepwise.Proofs.Reading

/-!
Reading the same tokens at other places. Readers look at what their tokens are and never at where
they stand, and what they give is made of the contents of the tokens. So wherever the tokens are
moved, the outcome is the same but for its places (`Moves`): an expression stays as it is
(`moves_readExpr`), a statement and the failures in it are moved (`moves_readStatement`).
-/
namespace Stepwise

/-! ## Other places -/

section

variable (f : Position → Position)

/-- A token at another place. -/
def Token.move (t : Token) : Token :=
  ⟨t.kind, t.literal, f t.position⟩

/-- A failure on tokens at other places. -/
def Failure.move (x : Failure) : Failure :=
  ⟨x.complaint, x.entered.map (Token.move f), x.ahead.map (Token.move f)⟩

mutual

/-- A statement at other places. -/
def Stmt.move : Stmt → Stmt
  | .declare p name type value => .declare (f p) name type value
  | .assign p name value => .assign (f p) name value
  | .giveBack p value => .giveBack (f p) value
  | .evaluate p value => .evaluate (f p) value
  | .block body => .block (body.move)
  | .branch p condition consequence none => .branch (f p) condition consequence.move none
  | .branch p condition consequence (some alternative) =>
    .branch (f p) condition consequence.move (some alternative.move)
  | .loop p condition body => .loop (f p) condition body.move
  | .define p name parameters body => .define (f p) name parameters body.move

/-- A block at other places. -/
def Block.move : Block → Block
  | .mk p statements => .mk (f p) (moveEach statements)

/-- Statements in a row at other places. -/
def moveEach : List Stmt → List Stmt
  | [] => []
  | s :: rest => s.move :: moveEach rest

end

-- By cases, so that what is decided about a kind is rewritten together with the kind.
@[simp] theorem kind_move (t : Token) : (t.move f).kind = t.kind := by
  cases t
  rfl

@[simp] theorem literal_move (t : Token) : (t.move f).literal = t.literal := by
  cases t
  rfl

@[simp] theorem moveEach_eq_map (statements : List Stmt) : moveEach f statements = statements.map (Stmt.move f) := by
  induction statements with
  | nil => rfl
  | cons s rest ih => rw [moveEach, ih, List.map_cons]

@[simp] theorem move_mk (p : Position) (statements : List Stmt) :
    (Block.mk p statements).move f = .mk (f p) (statements.map (Stmt.move f)) := by
  rw [Block.move, moveEach_eq_map]

@[simp] theorem nextKind_move (ts : List Token) : Failure.nextKind (ts.map (Token.move f)) = Failure.nextKind ts := by
  cases ts <;> rfl

theorem move_unexpected (what : String) (ts : List Token) :
    (Failure.unexpected what ts).move f = .unexpected what (ts.map (Token.move f)) := by
  simp [Failure.unexpected, Failure.move]

theorem move_noExpression (ts : List Token) :
    (Failure.noExpression ts).move f = .noExpression (ts.map (Token.move f)) := by
  cases ts <;> rfl

@[simp] theorem skipStatement_move (depth : Nat) (ts : List Token) :
    skipStatement depth (ts.map (Token.move f)) = (skipStatement depth ts).map (Token.move f) := by
  induction ts generalizing depth with
  | nil => rfl
  | cons t ahead ih =>
    rw [List.map_cons, skipStatement, skipStatement, kind_move]
    by_cases ends : depth = 0 ∧ t.kind.isBoundary = true
    · rw [if_pos ends, if_pos ends, List.map_cons]
    · rw [if_neg ends, if_neg ends]
      cases t.kind.passed depth with
      | none => rfl
      | some depth' => exact ih depth'

/-- Reading goes on behind the same token. -/
theorem recover_move (x : Failure) : (x.move f).recover = x.recover.map (Token.move f) := by
  obtain ⟨complaint, entered, ahead⟩ := x
  cases entered with
  | none => exact skipStatement_move f 0 ahead
  | some t =>
    simp only [Failure.move, Failure.recover, Option.map_some, kind_move]
    cases t.kind.passed 0 with
    | none => rfl
    | some depth => exact skipStatement_move f depth ahead

end

/-! ## What scripts are made of -/

section

variable (W : Kind × String → Prop)

/-- A name of words with dots between them. -/
inductive Path : String → Prop where
  | word {word : String} (known : W (.identifier, word)) : Path word
  | dot {path word : String} (front : Path path) (known : W (.identifier, word)) : Path (path ++ "." ++ word)

/-- Expressions that are made of known contents. -/
inductive Expr.Uses : Expr → Prop where
  | name {path : String} (words : Path W path) : Uses (.name path)
  | number {digits : String} (known : W (.number, digits)) : Uses (.number (Number.ofDigitRun digits.toList))
  | string {text : String} (known : W (.string, text)) : Uses (.string text)
  | bool (value : Bool) : Uses (.bool value)
  | unary (op : UnaryOp) {operand : Expr} (inside : Uses operand) : Uses (.unary op operand)
  | binary {left right : Expr} (op : BinaryOp) (first : Uses left) (second : Uses right) :
      Uses (.binary left op right)
  | call {callee : Expr} {arguments : List Expr} (callee' : Uses callee) (each : ∀ e ∈ arguments, Uses e) :
      Uses (.call callee arguments)

/-- Statements that are made of known contents. -/
inductive Stmt.Uses : Stmt → Prop where
  | declare {p : Position} {name : String} {type : TypeName} {value : Option Expr} (known : W (.identifier, name))
      (initial : ∀ e ∈ value, e.Uses W) : Uses (.declare p name type value)
  | assign {p : Position} {name : String} {value : Expr} (known : W (.identifier, name)) (assigned : value.Uses W) :
      Uses (.assign p name value)
  | giveBack {p : Position} {value : Expr} (given : value.Uses W) : Uses (.giveBack p value)
  | evaluate {p : Position} {value : Expr} (evaluated : value.Uses W) : Uses (.evaluate p value)
  | block {body : Block} (inside : ∀ s ∈ body.statements, Uses s) : Uses (.block body)
  | branch {p : Position} {condition : Expr} {consequence : Block} {alternative : Option Block}
      (tested : condition.Uses W) (first : ∀ s ∈ consequence.statements, Uses s)
      (second : ∀ b ∈ alternative, ∀ s ∈ b.statements, Uses s) : Uses (.branch p condition consequence alternative)
  | loop {p : Position} {condition : Expr} {body : Block} (tested : condition.Uses W)
      (inside : ∀ s ∈ body.statements, Uses s) : Uses (.loop p condition body)
  | define {p : Position} {name : String} {parameters : List String} {body : Block} (known : W (.identifier, name))
      (each : ∀ x ∈ parameters, W (.identifier, x)) (inside : ∀ s ∈ body.statements, Uses s) :
      Uses (.define p name parameters body)

theorem uses_literal {t : Token} {e : Expr} (known : W t.content) (literal : t.literal? = some e) : e.Uses W := by
  obtain ⟨kind, text, position⟩ := t
  simp only [Token.literal?] at literal
  split at literal
  · cases literal
    exact .number known
  · cases literal
    exact .string known
  · cases literal
    exact .bool true
  · cases literal
    exact .bool false
  · cases literal

end

/-! ## Outcomes -/

section

variable {f : Position → Position} {W : Kind × String → Prop} {α β : Type}

/-- Tokens of known contents and the same tokens at other places. -/
structure Elsewhere (f : Position → Position) (W : Kind × String → Prop) (ts ts' : List Token) : Prop where
  moved : ts' = ts.map (Token.move f)
  known : ∀ t ∈ ts, W t.content

/-- The outcomes of reading at two places: the things read differ by `g`, and are `good`. -/
inductive Moves (f : Position → Position) (W : Kind × String → Prop) (good : α → Prop) (g : α → α) :
    Except Failure (α × List Token) → Except Failure (α × List Token) → Prop where
  | ok {a : α} {ts ts' : List Token} (fits : good a) (elsewhere : Elsewhere f W ts ts') :
      Moves f W good g (.ok (a, ts)) (.ok (g a, ts'))
  | error {x : Failure} (known : ∀ t ∈ x.ahead, W t.content) : Moves f W good g (.error x) (.error (x.move f))

theorem elsewhere_of_cons {t : Token} {ahead ts' : List Token} (elsewhere : Elsewhere f W (t :: ahead) ts') :
    ∃ ahead', ts' = t.move f :: ahead' ∧ W t.content ∧ Elsewhere f W ahead ahead' := by
  obtain ⟨rfl, known⟩ := elsewhere
  obtain ⟨first, later⟩ := List.forall_mem_cons.mp known
  exact ⟨_, rfl, first, rfl, later⟩

theorem moves_unexpected {good : α → Prop} {g : α → α} {ts ts' : List Token} (what : String)
    (elsewhere : Elsewhere f W ts ts') :
    Moves f W good g (.error (.unexpected what ts)) (.error (.unexpected what ts')) := by
  obtain ⟨rfl, known⟩ := elsewhere
  rw [← move_unexpected]
  exact .error known

theorem moves_noExpression {good : α → Prop} {g : α → α} {ts ts' : List Token} (elsewhere : Elsewhere f W ts ts') :
    Moves f W good g (.error (.noExpression ts)) (.error (.noExpression ts')) := by
  obtain ⟨rfl, known⟩ := elsewhere
  rw [← move_noExpression]
  refine .error fun t member => known t ?_
  cases ts with
  | nil => exact member
  | cons u ahead => exact List.mem_cons_of_mem u member

variable {whole whole' : List Token} {good : α → Prop} {good' : β → Prop} {g : α → α} {g' : β → β}

/-- Reading at two places. -/
def Reading.Moves (f : Position → Position) (W : Kind × String → Prop) (good : α → Prop) (g : α → α)
    (x : Reading α whole) (x' : Reading α whole') : Prop :=
  Stepwise.Moves f W good g x.plain x'.plain

theorem Reading.Moves.ok {a : α} {r : Rest whole} {r' : Rest whole'} (fits : good a)
    (elsewhere : Elsewhere f W r.tokens r'.tokens) :
    Reading.Moves f W good g (.ok (a, r) : Reading α whole) (.ok (g a, r') : Reading α whole') :=
  Stepwise.Moves.ok fits elsewhere

theorem Reading.Moves.of_ok {a : α} {r : Rest whole} {x' : Reading α whole'}
    (moves : Reading.Moves f W good g (.ok (a, r) : Reading α whole) x') :
    ∃ r', x' = .ok (g a, r') ∧ good a ∧ Elsewhere f W r.tokens r'.tokens := by
  unfold Reading.Moves at moves
  cases x' with
  | error s => cases moves
  | ok found =>
    obtain ⟨a', r'⟩ := found
    cases moves with
    | ok fits elsewhere => exact ⟨r', rfl, fits, elsewhere⟩

theorem Reading.Moves.of_error {s : Stuck whole} {x' : Reading α whole'}
    (moves : Reading.Moves f W good g (.error s : Reading α whole) x') :
    ∃ s', x' = .error s' ∧ s'.failure = s.failure.move f ∧ ∀ t ∈ s.failure.ahead, W t.content := by
  unfold Reading.Moves at moves
  cases x' with
  | ok found => cases moves
  | error s' =>
    obtain ⟨y, within⟩ := s'
    cases moves with
    | error known => exact ⟨⟨_, within⟩, rfl, rfl, known⟩

theorem Reading.Moves.bind {x : Reading α whole} {x' : Reading α whole'} {k : α × Rest whole → Reading β whole}
    {k' : α × Rest whole' → Reading β whole'} (moves : x.Moves f W good g x')
    (next : ∀ a r r', good a → Elsewhere f W r.tokens r'.tokens → (k (a, r)).Moves f W good' g' (k' (g a, r'))) :
    Reading.Moves (α := β) f W good' g' (x >>= k) (x' >>= k') := by
  cases x with
  | error s =>
    obtain ⟨s', rfl, moved, known⟩ := moves.of_error
    show Stepwise.Moves f W good' g' (.error s.failure) (.error s'.failure)
    rw [moved]
    exact .error known
  | ok found =>
    obtain ⟨a, r⟩ := found
    obtain ⟨r', rfl, fits, elsewhere⟩ := moves.of_ok
    exact next a r r' fits elsewhere

theorem plain_inside {r : Rest whole} (x : Reading α r.tokens) : (Reading.inside r x).plain = x.plain := by
  cases x <;> rfl

theorem Reading.Moves.inside {r : Rest whole} {r' : Rest whole'} {x : Reading α r.tokens} {x' : Reading α r'.tokens}
    (moves : x.Moves f W good g x') : (Reading.inside r x).Moves f W good g (Reading.inside r' x') := by
  unfold Reading.Moves
  rw [plain_inside, plain_inside]
  exact moves

/-- Reading on behind something read in the rest of a whole. -/
theorem Reading.Moves.bind_inside {r : Rest whole} {r' : Rest whole'} {x : Reading α r.tokens}
    {x' : Reading α r'.tokens} {k : α × Rest whole → Reading β whole} {k' : α × Rest whole' → Reading β whole'}
    (moves : x.Moves f W good g x')
    (next : ∀ a (inner : Rest r.tokens) (inner' : Rest r'.tokens), good a → Elsewhere f W inner.tokens inner'.tokens →
      (k (a, r.within inner)).Moves f W good' g' (k' (g a, r'.within inner'))) :
    Reading.Moves (α := β) f W good' g' (Reading.inside r x >>= k) (Reading.inside r' x' >>= k') := by
  cases x with
  | error s =>
    obtain ⟨s', rfl, moved, known⟩ := moves.of_error
    show Stepwise.Moves f W good' g' (.error s.failure) (.error s'.failure)
    rw [moved]
    exact .error known
  | ok found =>
    obtain ⟨a, inner⟩ := found
    obtain ⟨inner', rfl, fits, elsewhere⟩ := moves.of_ok
    exact next a inner inner' fits elsewhere

/-! ## Single tokens -/

section

variable {r : Rest whole} {r' : Rest whole'} (elsewhere : Elsewhere f W r.tokens r'.tokens)

include elsewhere

theorem moves_expect (k : Kind) :
    (r.expect k).Moves f W (fun t => t.kind = k ∧ W t.content) (Token.move f) (r'.expect k) := by
  obtain ⟨tokens, shorter⟩ := r
  obtain ⟨tokens', shorter'⟩ := r'
  cases tokens with
  | nil =>
    obtain rfl : tokens' = [] := elsewhere.moved
    exact moves_unexpected k.describe elsewhere
  | cons t ahead =>
    obtain ⟨ahead', rfl, known, later⟩ := elsewhere_of_cons elsewhere
    simp only [Rest.expect, kind_move]
    by_cases same : t.kind = k
    · rw [if_pos same, if_pos same]
      exact .ok ⟨same, known⟩ later
    · rw [if_neg same, if_neg same]
      exact moves_unexpected k.describe elsewhere

theorem moves_typeName : r.typeName.Moves f W (fun _ => True) id r'.typeName := by
  obtain ⟨tokens, shorter⟩ := r
  obtain ⟨tokens', shorter'⟩ := r'
  cases tokens with
  | nil =>
    obtain rfl : tokens' = [] := elsewhere.moved
    exact moves_unexpected "TYPE" elsewhere
  | cons t ahead =>
    obtain ⟨ahead', rfl, known, later⟩ := elsewhere_of_cons elsewhere
    simp only [Rest.typeName, kind_move]
    cases t.kind.typeName? with
    | none => exact moves_unexpected "TYPE" elsewhere
    | some type => exact .ok (g := id) trivial later

theorem elsewhere_skipSemicolon : Elsewhere f W r.skipSemicolon.tokens r'.skipSemicolon.tokens := by
  obtain ⟨tokens, shorter⟩ := r
  obtain ⟨tokens', shorter'⟩ := r'
  cases tokens with
  | nil =>
    obtain rfl : tokens' = [] := elsewhere.moved
    exact elsewhere
  | cons t ahead =>
    obtain ⟨ahead', rfl, known, later⟩ := elsewhere_of_cons elsewhere
    simp only [Rest.skipSemicolon, kind_move]
    by_cases same : t.kind = .semicolon
    · rw [if_pos same, if_pos same]
      exact later
    · rw [if_neg same, if_neg same]
      exact elsewhere

theorem nextKind_elsewhere : Failure.nextKind r'.tokens = Failure.nextKind r.tokens := by
  rw [elsewhere.moved, nextKind_move]

end

/-! ## Names -/

theorem moves_readPath {path : String} {ts ts' : List Token} (front : Path W path) (elsewhere : Elsewhere f W ts ts') :
    Moves f W (Path W) id (readPath path ts) (readPath path ts') := by
  fun_induction readPath path ts generalizing ts' with
  | case1 path =>
    obtain rfl : ts' = [] := elsewhere.moved
    exact .ok (g := id) front elsewhere
  | case2 path d isDot =>
    obtain ⟨ahead', rfl, -, later⟩ := elsewhere_of_cons elsewhere
    obtain rfl : ahead' = [] := later.moved
    simp only [readPath, kind_move, if_pos isDot]
    exact moves_unexpected _ later
  | case3 path d isDot t ahead isWord ih =>
    obtain ⟨_, rfl, -, later⟩ := elsewhere_of_cons elsewhere
    obtain ⟨ahead', rfl, known, later⟩ := elsewhere_of_cons later
    simp only [readPath, kind_move, if_pos isDot, if_pos isWord]
    have word : W (.identifier, t.literal) := by
      rw [← isWord]
      exact known
    exact ih (.dot front word) later
  | case4 path d isDot t ahead notWord =>
    obtain ⟨_, rfl, -, later⟩ := elsewhere_of_cons elsewhere
    obtain ⟨ahead', rfl, -, -⟩ := elsewhere_of_cons later
    simp only [readPath, kind_move, if_pos isDot, if_neg notWord]
    exact moves_unexpected _ later
  | case5 path d ahead notDot =>
    obtain ⟨ahead', rfl, -, -⟩ := elsewhere_of_cons elsewhere
    rw [readPath.eq_def]
    simp only [kind_move, if_neg notDot]
    exact .ok (g := id) front elsewhere

theorem moves_readNames {ts ts' : List Token} (elsewhere : Elsewhere f W ts ts') :
    Moves f W (fun names => ∀ x ∈ names, W (.identifier, x)) id (readNames ts) (readNames ts') := by
  have word {t : Token} (isName : t.kind = .identifier) (known : W t.content) : W (.identifier, t.literal) := by
    rw [← isName]
    exact known
  fun_induction readNames ts generalizing ts' with
  | case1 =>
    obtain rfl : ts' = [] := elsewhere.moved
    exact moves_unexpected _ elsewhere
  | case2 t isName =>
    obtain ⟨ahead', rfl, -, later⟩ := elsewhere_of_cons elsewhere
    obtain rfl : ahead' = [] := later.moved
    simp only [readNames, kind_move, if_pos isName]
    exact moves_unexpected _ later
  | case3 t isName c ahead isComma x failed ih =>
    obtain ⟨_, rfl, -, later⟩ := elsewhere_of_cons elsewhere
    obtain ⟨ahead', rfl, -, later⟩ := elsewhere_of_cons later
    have more := ih later
    simp only [readNames, kind_move, if_pos isName, if_pos isComma]
    rw [failed] at more
    generalize readNames ahead' = result at more
    cases more with
    | error known => exact .error known
  | case4 t isName c ahead isComma names rest read ih =>
    obtain ⟨_, rfl, first, later⟩ := elsewhere_of_cons elsewhere
    obtain ⟨ahead', rfl, -, later⟩ := elsewhere_of_cons later
    have more := ih later
    simp only [readNames, kind_move, if_pos isName, if_pos isComma]
    rw [read] at more
    generalize readNames ahead' = result at more
    cases more with
    | ok known elsewhere' =>
      exact .ok (g := id) (List.forall_mem_cons.mpr ⟨word isName first, known⟩) elsewhere'
  | case5 t isName c ahead notComma isParen =>
    obtain ⟨_, rfl, first, later⟩ := elsewhere_of_cons elsewhere
    obtain ⟨ahead', rfl, -, later⟩ := elsewhere_of_cons later
    simp only [readNames, kind_move, literal_move, if_pos isName, if_neg notComma, if_pos isParen]
    exact .ok (g := id) (List.forall_mem_singleton.mpr (word isName first)) later
  | case6 t isName c ahead notComma notParen =>
    obtain ⟨_, rfl, -, later⟩ := elsewhere_of_cons elsewhere
    obtain ⟨ahead', rfl, -, -⟩ := elsewhere_of_cons later
    simp only [readNames, kind_move, if_pos isName, if_neg notComma, if_neg notParen]
    exact moves_unexpected _ later
  | case7 t ahead notName =>
    obtain ⟨ahead', rfl, -, -⟩ := elsewhere_of_cons elsewhere
    rw [readNames.eq_def]
    simp only [kind_move, if_neg notName]
    exact moves_unexpected _ elsewhere

section

variable {r : Rest whole} {r' : Rest whole'}

theorem plain_path (r : Rest whole) (word : String) : (r.path word).plain = readPath word r.tokens := by
  rw [Rest.path]
  split <;> next read => exact read.symm

theorem moves_path {word : String} (front : Path W word) (elsewhere : Elsewhere f W r.tokens r'.tokens) :
    (r.path word).Moves f W (Path W) id (r'.path word) := by
  unfold Reading.Moves
  rw [plain_path, plain_path]
  exact moves_readPath front elsewhere

theorem moves_parameters (elsewhere : Elsewhere f W r.tokens r'.tokens) :
    r.parameters.Moves f W (fun names => ∀ x ∈ names, W (.identifier, x)) id r'.parameters := by
  rw [Rest.parameters, Rest.parameters]
  have next := nextKind_elsewhere elsewhere
  by_cases closes : Failure.nextKind r.tokens = .rightParen
  · rw [if_pos closes, if_pos (next.trans closes)]
    refine (moves_expect elsewhere .rightParen).bind ?_
    intro _ r r' _ elsewhere
    exact .ok (g := id) (by simp) elsewhere
  · rw [if_neg closes, if_neg (next ▸ closes)]
    have moves := moves_readNames elsewhere
    unfold Reading.Moves
    split <;> next read => split <;> next read' => rw [read, read'] at moves; exact moves

end

end

/-! ## Expressions -/

section

variable (f : Position → Position) (W : Kind × String → Prop)

/-- The readers of expressions at two places, as long as there are fewer than `n` tokens. -/
structure Moving (n : Nat) : Prop where
  expression : ∀ {ts ts' : List Token} (minimum : Precedence), ts.length < n → Elsewhere f W ts ts' →
    (readExpr minimum ts).Moves f W (Expr.Uses W) id (readExpr minimum ts')
  operators : ∀ {whole whole' : List Token} {r : Rest whole} {r' : Rest whole'} {left : Expr} (minimum : Precedence),
    r.tokens.length < n → left.Uses W → Elsewhere f W r.tokens r'.tokens →
    (readOperators minimum left r).Moves f W (Expr.Uses W) id (readOperators minimum left r')
  arguments : ∀ {ts ts' : List Token}, ts.length < n → Elsewhere f W ts ts' →
    (readArguments ts).Moves f W (fun es => ∀ e ∈ es, e.Uses W) id (readArguments ts')
  items : ∀ {ts ts' : List Token}, ts.length < n → Elsewhere f W ts ts' →
    (readItems ts).Moves f W (fun es => ∀ e ∈ es, e.Uses W) id (readItems ts')

end

section

variable {f : Position → Position} {W : Kind × String → Prop} {n : Nat} {ts ts' : List Token}

theorem moves_expression (moving : Moving f W n) (minimum : Precedence) (short : ts.length ≤ n)
    (elsewhere : Elsewhere f W ts ts') :
    (readExpr minimum ts).Moves f W (Expr.Uses W) id (readExpr minimum ts') := by
  cases ts with
  | nil =>
    obtain rfl : ts' = [] := elsewhere.moved
    rw [readExpr]
    exact moves_noExpression elsewhere
  | cons t ahead =>
    obtain ⟨ahead', rfl, known, later⟩ := elsewhere_of_cons elsewhere
    by_cases isName : t.kind = .identifier
    · rw [readExpr_name isName, readExpr_name ((kind_move f t).trans isName)]
      have word : W (.identifier, t.literal) := by
        rw [← isName]
        exact known
      refine (moves_path (.word word) later).bind ?_
      intro name r r' path left
      exact moving.operators minimum (Nat.lt_of_lt_of_le r.shorter short) (.name path) left
    by_cases opens : t.kind = .leftParen
    · rw [readExpr_group opens, readExpr_group ((kind_move f t).trans opens)]
      refine (moving.expression .lowest short later).inside.bind ?_
      intro e r r' uses left
      refine (moves_expect left .rightParen).bind ?_
      intro _ r r' _ left
      exact moving.operators minimum (Nat.lt_of_lt_of_le r.shorter short) uses left
    cases found : t.kind.unaryOp? with
    | some op =>
      have found' : (t.move f).kind.unaryOp? = some op := by rw [kind_move, found]
      rw [readExpr_unary found, readExpr_unary found']
      refine (moving.expression .unary short later).inside.bind ?_
      intro e r r' uses left
      exact moving.operators minimum (Nat.lt_of_lt_of_le r.shorter short) (.unary op uses) left
    | none =>
      have literal' : (t.move f).literal? = t.literal? := rfl
      cases literal : t.literal? with
      | some e =>
        rw [readExpr_literal literal, readExpr_literal (literal'.trans literal)]
        exact moving.operators minimum short (uses_literal W known literal) later
      | none =>
        have found' : (t.move f).kind.unaryOp? = none := by rw [kind_move, found]
        rw [readExpr, if_neg isName, if_neg opens, found, literal, readExpr, if_neg (kind_move f t ▸ isName),
          if_neg (kind_move f t ▸ opens), found', literal', literal]
        exact moves_noExpression elsewhere

theorem moves_operators (moving : Moving f W n) {whole whole' : List Token} {r : Rest whole} {r' : Rest whole'}
    {left : Expr} (minimum : Precedence) (short : r.tokens.length ≤ n) (uses : left.Uses W)
    (elsewhere : Elsewhere f W r.tokens r'.tokens) :
    (readOperators minimum left r).Moves f W (Expr.Uses W) id (readOperators minimum left r') := by
  have next := nextKind_elsewhere elsewhere
  by_cases stronger : minimum < (Failure.nextKind r.tokens).precedence
  swap
  · have weaker' : ¬ minimum < (Failure.nextKind r'.tokens).precedence := by rwa [next]
    rw [readOperators_stop left stronger, readOperators_stop left weaker']
    exact .ok (g := id) uses elsewhere
  obtain ⟨tokens, shorter⟩ := r
  obtain ⟨tokens', shorter'⟩ := r'
  cases tokens with
  | nil => exact absurd stronger (Nat.not_lt_zero _)
  | cons t ahead =>
    obtain ⟨ahead', rfl, known, later⟩ := elsewhere_of_cons elsewhere
    have strong : minimum < t.kind.precedence := stronger
    have strong' : minimum < (t.move f).kind.precedence := strong
    cases found : t.kind.binaryOp? with
    | some op =>
      have found' : (t.move f).kind.binaryOp? = some op := found
      rw [readOperators_binary left strong found, readOperators_binary left strong' found', kind_move]
      refine Reading.Moves.bind_inside (moving.expression _ short later) ?_
      intro right inner inner' uses' left'
      have fewer : inner.tokens.length < n := Nat.lt_of_lt_of_le inner.shorter (Nat.le_of_lt short)
      exact moving.operators minimum fewer (.binary op uses uses') left'
    | none =>
      have found' : (t.move f).kind.binaryOp? = none := found
      rw [readOperators_call left strong found, readOperators_call left strong' found']
      refine Reading.Moves.bind_inside (moving.arguments short later) ?_
      intro arguments inner inner' each left'
      have fewer : inner.tokens.length < n := Nat.lt_of_lt_of_le inner.shorter (Nat.le_of_lt short)
      exact moving.operators minimum fewer (.call uses each) left'

theorem moves_items (moving : Moving f W n) (short : ts.length ≤ n) (elsewhere : Elsewhere f W ts ts') :
    (readItems ts).Moves f W (fun es => ∀ e ∈ es, e.Uses W) id (readItems ts') := by
  rw [readItems_eq, readItems_eq]
  refine (moves_expression moving .lowest short elsewhere).bind ?_
  intro e r r' uses left
  have next := nextKind_elsewhere left
  by_cases comma : Failure.nextKind r.tokens = .comma
  · simp only [if_pos comma, if_pos (next.trans comma)]
    refine (moves_expect left .comma).bind ?_
    intro _ r r' _ left
    refine (moving.items (Nat.lt_of_lt_of_le r.shorter short) left).inside.bind ?_
    intro es r r' each left
    exact .ok (g := id) (List.forall_mem_cons.mpr ⟨uses, each⟩) left
  · simp only [if_neg comma, if_neg (next ▸ comma)]
    refine (moves_expect left .rightParen).bind ?_
    intro _ r r' _ left
    exact .ok (g := id) (List.forall_mem_singleton.mpr uses) left

theorem moves_arguments (moving : Moving f W n) (short : ts.length ≤ n) (elsewhere : Elsewhere f W ts ts') :
    (readArguments ts).Moves f W (fun es => ∀ e ∈ es, e.Uses W) id (readArguments ts') := by
  have items := moves_items moving short elsewhere
  cases ts with
  | nil =>
    obtain rfl : ts' = [] := elsewhere.moved
    rw [readArguments]
    exact items
  | cons t ahead =>
    obtain ⟨ahead', rfl, known, later⟩ := elsewhere_of_cons elsewhere
    by_cases closes : t.kind = .rightParen
    · rw [readArguments, if_pos closes, readArguments, if_pos ((kind_move f t).trans closes)]
      exact .ok (g := id) (by simp) later
    · rw [readArguments, if_neg closes, readArguments, if_neg (kind_move f t ▸ closes)]
      exact items

end

theorem moving_all (f : Position → Position) (W : Kind × String → Prop) (n : Nat) : Moving f W n := by
  induction n with
  | zero =>
    constructor
    · exact fun _ short => absurd short (Nat.not_lt_zero _)
    · exact fun _ short => absurd short (Nat.not_lt_zero _)
    · exact fun short => absurd short (Nat.not_lt_zero _)
    · exact fun short => absurd short (Nat.not_lt_zero _)
  | succ n moving =>
    constructor
    · exact fun minimum short => moves_expression moving minimum (Nat.le_of_lt_succ short)
    · exact fun minimum short => moves_operators moving minimum (Nat.le_of_lt_succ short)
    · exact fun short => moves_arguments moving (Nat.le_of_lt_succ short)
    · exact fun short => moves_items moving (Nat.le_of_lt_succ short)

/-- An expression does not depend on where its tokens stand. -/
theorem moves_readExpr {f : Position → Position} {W : Kind × String → Prop} {ts ts' : List Token}
    (minimum : Precedence) (elsewhere : Elsewhere f W ts ts') :
    (readExpr minimum ts).Moves f W (Expr.Uses W) id (readExpr minimum ts') :=
  (moving_all f W (ts.length + 1)).expression minimum (Nat.lt_succ_self _) elsewhere

end Stepwise
