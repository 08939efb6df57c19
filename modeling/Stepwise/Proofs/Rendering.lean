import Stepwise.Proofs.Legible
import Stepwise.Proofs.Scripts

/-!
The text of a script is read back as the script (`rendering_read_back`). The text shows no places,
so the script read back is the same but for them. What is asked of the script is that its numbers
are finite, since infinity is no word of the language, and that no expression stands in front of a
statement whose text begins with a parenthesis, since no semicolon is written between them and the
parenthesis would go on with the expression.
-/
namespace Stepwise

attribute [local simp] Stmt.render Block.render Block.renderBody renderDeclared Kind.describe

/-! ## What is asked of scripts -/

mutual

/-- The numbers that are written in a statement. -/
def Stmt.numbers : Stmt → List Float
  | .declare _ _ _ none => []
  | .declare _ _ _ (some value) | .assign _ _ value | .giveBack _ value | .evaluate _ value => value.numbers
  | .block body => body.numbers
  | .branch _ condition consequence none => condition.numbers ++ consequence.numbers
  | .branch _ condition consequence (some alternative) =>
    condition.numbers ++ (consequence.numbers ++ alternative.numbers)
  | .loop _ condition body => condition.numbers ++ body.numbers
  | .define _ _ _ body => body.numbers

/-- The numbers that are written in a block. -/
def Block.numbers : Block → List Float
  | .mk _ statements => numbersEach statements

/-- The numbers that are written in statements in a row. -/
def numbersEach : List Stmt → List Float
  | [] => []
  | s :: rest => s.numbers ++ numbersEach rest

end

/-- A statement that is an expression. -/
def Stmt.isEvaluation : Stmt → Bool
  | .evaluate _ _ => true
  | _ => false

/-- An expression in front of a statement whose text begins with a parenthesis. -/
def Stmt.runsInto (s : Stmt) : List Stmt → Bool
  | [] => false
  | next :: _ => s.isEvaluation && next.render.toList.head? == some '('

mutual

/-- In a statement no expression runs into the statement behind it. -/
def Stmt.separate : Stmt → Bool
  | .declare _ _ _ _ | .assign _ _ _ | .giveBack _ _ | .evaluate _ _ => true
  | .block body => body.separate
  | .branch _ _ consequence none => consequence.separate
  | .branch _ _ consequence (some alternative) => consequence.separate && alternative.separate
  | .loop _ _ body => body.separate
  | .define _ _ _ body => body.separate

/-- In a block no expression runs into the statement behind it. -/
def Block.separate : Block → Bool
  | .mk _ statements => separateEach statements

/-- In and among statements in a row no expression runs into the statement behind it. -/
def separateEach : List Stmt → Bool
  | [] => true
  | s :: rest => s.separate && !s.runsInto rest && separateEach rest

end

theorem numbers_subset {s : Stmt} {statements : List Stmt} (member : s ∈ statements) :
    s.numbers ⊆ numbersEach statements := by
  induction statements with
  | nil => cases member
  | cons d rest ih =>
    rw [numbersEach]
    rcases List.mem_cons.mp member with rfl | later
    · exact List.subset_append_left _ _
    · exact List.subset_append_of_subset_right _ (ih later)

theorem separate_of_mem {s : Stmt} {statements : List Stmt} (member : s ∈ statements)
    (separate : separateEach statements = true) : s.separate = true := by
  induction statements with
  | nil => cases member
  | cons d rest ih =>
    simp only [separateEach, Bool.and_eq_true] at separate
    rcases List.mem_cons.mp member with rfl | later
    · exact separate.1.1
    · exact ih later separate.2

/-! ## What attempts give -/

section

variable {α β : Type} {whole : List Token}

/-- An attempt gives a thing without a failure, and leaves such tokens. -/
def Attempt.Gives (a : Attempt α whole) (x : α) (rest : List Token) : Prop :=
  a.nested = [] ∧ a.outcome.Gives x rest

theorem Attempt.Gives.eq {a : Attempt α whole} {x : α} {rest : List Token} (gives : a.Gives x rest) :
    ∃ r, a = ⟨[], .ok (x, r)⟩ ∧ r.tokens = rest := by
  obtain ⟨nested, outcome⟩ := a
  obtain ⟨rfl, gives⟩ := gives
  obtain ⟨r, rfl, left⟩ := gives.eq
  exact ⟨r, rfl, left⟩

theorem Attempt.Gives.inside {r : Rest whole} {a : Attempt α r.tokens} {x : α} {y : β} {rest : List Token}
    (gives : a.Gives x rest) {f : α → β} (same : f x = y) : (Attempt.inside [] f r a).Gives y rest := by
  obtain ⟨inner, rfl, left⟩ := gives.eq
  subst same
  exact ⟨rfl, congrArg (fun rest => Except.ok (f x, rest)) left⟩

end

/-! ## Parts of statements -/

section

variable {α : Type} {whole : List Token} {r : Rest whole} {rest ts : List Token} {e : Expr}

theorem gives_expr (legible : e.Legible ts) (split : r.tokens = ts ++ rest) (stops : Stops rest) :
    r.expr.Gives e rest := by
  have read := legible.whole (by decide : Precedence.lowest < .call) stops
  rw [← split] at read
  exact read.inside

theorem gives_typeName {t : Token} {type : TypeName} (split : r.tokens = t :: rest)
    (found : t.kind.typeName? = some type) : r.typeName.Gives type rest := by
  obtain ⟨tokens, shorter⟩ := r
  obtain rfl : tokens = t :: rest := split
  simp only [Rest.typeName, found]
  rfl

theorem skipSemicolon_mark (split : r.tokens = Kind.semicolon.mark :: rest) : r.skipSemicolon.tokens = rest := by
  obtain ⟨tokens, shorter⟩ := r
  obtain rfl : tokens = Kind.semicolon.mark :: rest := split
  simp only [Rest.skipSemicolon, kind_mark, ↓reduceIte]

/-- A value to the end of the statement. -/
theorem gives_value (f : Expr → α) (legible : e.Legible ts) (split : r.tokens = ts ++ Kind.semicolon.mark :: rest) :
    Reading.Gives (show Reading α whole from do
      let (value, r) ← r.expr
      pure (f value, r.skipSemicolon)) (f e) rest := by
  refine (gives_expr legible split (stops_mark rfl (by decide) rest)).bind fun r left => ?_
  exact congrArg (fun rest => Except.ok (f e, rest)) (skipSemicolon_mark left)

theorem gives_condition (legible : e.Legible ts)
    (split : r.tokens = Kind.leftParen.mark :: (ts ++ Kind.rightParen.mark :: Kind.leftBrace.mark :: rest)) :
    r.condition.Gives (e, .start) rest := by
  rw [Rest.condition]
  refine (gives_expect split rfl).bind fun r left => ?_
  refine (gives_expr legible left (stops_mark rfl (by decide) _)).bind fun r left => ?_
  refine (gives_expect left rfl).bind fun r left => ?_
  refine (gives_expect left rfl).bind fun r left => ?_
  exact congrArg (fun rest => Except.ok ((e, Position.start), rest)) left

end

/-! ### Parameters -/

theorem legible_names {x : String} {xs : List String} (each : ∀ y ∈ x :: xs, Spellable (.identifier, y)) :
    ∃ ts, (∀ rest, bareTokens ((", ".intercalate (x :: xs)).toList ++ ')' :: rest) =
        nameToken x :: (ts ++ Kind.rightParen.mark :: bareTokens rest)) ∧
      ∀ rest, readNames (nameToken x :: (ts ++ Kind.rightParen.mark :: rest)) = .ok (x :: xs, rest) := by
  induction xs generalizing x with
  | nil =>
    have known := each x List.mem_cons_self
    refine ⟨[], fun rest => ?_, fun rest => rfl⟩
    have closed : bareTokens (')' :: rest) = Kind.rightParen.mark :: bareTokens rest :=
      bareTokens_symbol rfl (by decide) rest
    rw [List.nil_append, ← closed]
    exact known.word (apart_cons rfl rest)
  | cons y ys ih =>
    have known := each x List.mem_cons_self
    obtain ⟨ts, spelled, read⟩ := ih fun z member => each z (List.mem_cons_of_mem x member)
    have rendered : (", ".intercalate (x :: y :: ys)).toList =
        x.toList ++ ',' :: ' ' :: (", ".intercalate (y :: ys)).toList := by simp
    refine ⟨Kind.comma.mark :: nameToken y :: ts, fun rest => ?_, fun rest => ?_⟩
    · simp only [rendered, List.append_assoc, List.cons_append]
      rw [known.word (apart_cons rfl _), bareTokens_symbol rfl (by decide), bareTokens_blank rfl, spelled]
    · have later := read rest
      simp only [List.cons_append, readNames, kind_nameToken, kind_mark, ↓reduceIte, later, literal_nameToken]

theorem legible_parameters {parameters : List String} (each : ∀ x ∈ parameters, Spellable (.identifier, x)) :
    ∃ ts, (∀ rest, bareTokens ((", ".intercalate parameters).toList ++ ')' :: rest) =
        ts ++ Kind.rightParen.mark :: bareTokens rest) ∧
      ∀ {whole rest : List Token} {r : Rest whole}, r.tokens = ts ++ Kind.rightParen.mark :: rest →
        r.parameters.Gives parameters rest := by
  cases parameters with
  | nil =>
    refine ⟨[], fun rest => bareTokens_symbol rfl (by decide) rest, fun {whole rest r} split => ?_⟩
    have next : Failure.nextKind r.tokens = .rightParen := by
      rw [split]
      rfl
    rw [Rest.parameters, if_pos next]
    refine (gives_expect split rfl).bind fun r left => ?_
    exact congrArg (fun rest => Except.ok ([], rest)) left
  | cons x xs =>
    obtain ⟨ts, spelled, read⟩ := legible_names each
    refine ⟨nameToken x :: ts, spelled, fun {whole rest r} split => ?_⟩
    have next : Failure.nextKind r.tokens ≠ .rightParen := by
      rw [split]
      show Kind.identifier ≠ .rightParen
      decide
    have names := read rest
    rw [List.cons_append] at split
    rw [← split] at names
    rw [Rest.parameters, if_neg next]
    split
    · next f failed =>
      rw [names] at failed
      cases failed
    · next names' rest' found =>
      rw [names] at found
      cases found
      rfl

theorem gives_signature {whole : List Token} {r : Rest whole} (name : String) {parameters : List String}
    {rest ts : List Token}
    (given : ∀ {whole rest : List Token} {r : Rest whole}, r.tokens = ts ++ Kind.rightParen.mark :: rest →
      r.parameters.Gives parameters rest)
    (split : r.tokens = nameToken name :: Kind.leftParen.mark ::
      (ts ++ Kind.rightParen.mark :: Kind.leftBrace.mark :: rest)) :
    r.signature.Gives (name, parameters, .start) rest := by
  rw [Rest.signature]
  refine (gives_expect split rfl).bind fun r left => ?_
  refine (gives_expect left rfl).bind fun r left => ?_
  refine (given left).bind fun r left => ?_
  refine (gives_expect left rfl).bind fun r left => ?_
  exact congrArg (fun rest => Except.ok ((name, parameters, Position.start), rest)) left

/-! ## Statements -/

/-- Something stands behind a statement with which it does not go on. -/
structure Stmt.Ends (s : Stmt) (rest : List Token) : Prop where
  fresh : Fresh rest
  stays : s.isEvaluation = true → (Failure.nextKind rest).goesOn = false

/-- The tokens of the text of a statement, which are read as the statement. -/
structure Stmt.Legible (s : Stmt) (ts : List Token) : Prop where
  begins : Begins s.render.toList ts
  spelled : ∀ {rest : List Char}, Apart rest → bareTokens (s.render.toList ++ rest) = ts ++ bareTokens rest
  read : ∃ t ahead, ts = t :: ahead ∧
    ∀ {rest : List Token}, s.Ends rest → (readStatement t (ahead ++ rest)).Gives s.bare rest

/-- The tokens of the text of a block, of which those behind the opening brace are read as its
    statements. -/
structure Block.Legible (b : Block) (ts : List Token) : Prop where
  spelled : ∀ rest, bareTokens (b.render.toList ++ rest) =
    Kind.leftBrace.mark :: (ts ++ Kind.rightBrace.mark :: bareTokens rest)
  read : ∀ rest, (readBody (ts ++ Kind.rightBrace.mark :: rest)).Gives (b.statements.map Stmt.bare) rest

/-! ### Statements without a body -/

theorem bareTokens_declared {name : String} (known : Spellable (.identifier, name)) (type : TypeName) {rest : List Char}
    (apart : Apart rest) :
    bareTokens ((renderDeclared name type).toList ++ rest) =
      Kind.letWord.mark :: nameToken name :: Kind.colon.mark :: type.kind.mark :: bareTokens rest := by
  have rendered : (renderDeclared name type).toList ++ rest =
      Kind.letWord.describe.toList ++ ' ' :: (name.toList ++ ':' :: ' ' :: (type.keyword.toList ++ rest)) := by
    simp
  rw [rendered, bareTokens_reserved rfl rfl (apart_cons rfl _), bareTokens_blank rfl, known.word (apart_cons rfl _),
    bareTokens_symbol rfl (by decide), bareTokens_blank rfl, bareTokens_type type apart]

theorem begins_reserved {k : Kind} {text : List Char} {ts : List Token} {c : Char} (first : text.head? = some c)
    (plain : c ≠ '=') (opens : k.opensStatement = true) (stays : k.goesOn = false) : Begins text (k.mark :: ts) := by
  obtain ⟨text, rfl⟩ := List.head?_eq_some_iff.mp first
  exact .other plain opens stays

theorem legible_declared {p : Position} {name : String} (type : TypeName) (known : Spellable (.identifier, name)) :
    ∃ ts, (Stmt.declare p name type none).Legible ts := by
  refine ⟨Kind.letWord.mark :: [nameToken name, Kind.colon.mark, type.kind.mark, Kind.semicolon.mark], ?_, ?_,
    Kind.letWord.mark, [nameToken name, Kind.colon.mark, type.kind.mark, Kind.semicolon.mark], rfl, ?_⟩
  · exact begins_reserved (c := 'l') (by simp) (by decide) rfl rfl
  · intro rest _
    have rendered : (Stmt.declare p name type none).render.toList ++ rest =
        (renderDeclared name type).toList ++ ';' :: rest := by simp
    rw [rendered, bareTokens_declared known type (apart_cons rfl _), bareTokens_symbol rfl (by decide)]
    rfl
  · intro rest ends
    simp only [readStatement, kind_mark]
    refine ⟨rfl, ?_⟩
    rw [Rest.declaration]
    refine (gives_expect (r := .behind _ _) rfl rfl).bind fun r left => ?_
    refine (gives_expect left rfl).bind fun r left => ?_
    refine (gives_typeName left (typeName?_kind type)).bind fun r left => ?_
    have next : Failure.nextKind r.tokens = .semicolon := by
      rw [left]
      rfl
    simp only [if_pos next]
    exact congrArg (fun rest => Except.ok (Stmt.declare .start name type none, rest)) (skipSemicolon_mark left)

/-- A statement that ends with a value and a semicolon: it is enough to look at what stands in front
    of the value. -/
theorem legible_of_value {s : Stmt} {e : Expr} (front : List Char) (t : Token) (more : List Token)
    (value : ∃ ts, e.Legible ts) (rendered : s.render.toList = front ++ (e.render.toList ++ [';']))
    (begins : Begins front [t]) (spelled : ∀ rest, bareTokens (front ++ rest) = t :: (more ++ bareTokens rest))
    (read : ∀ {ts rest : List Token}, e.Legible ts →
      (readStatement t (more ++ (ts ++ Kind.semicolon.mark :: rest))).Gives s.bare rest) : ∃ ts, s.Legible ts := by
  obtain ⟨ts, legible⟩ := value
  refine ⟨t :: (more ++ (ts ++ [Kind.semicolon.mark])), ?_, ?_, t, more ++ (ts ++ [Kind.semicolon.mark]), rfl, ?_⟩
  · rw [rendered]
    exact begins.append _ _
  · intro rest _
    simp only [rendered, List.append_assoc, List.cons_append, List.nil_append]
    rw [spelled, legible.spelled (apart_cons rfl _), bareTokens_symbol rfl (by decide)]
  · intro rest _
    rw [List.append_assoc, List.append_assoc]
    exact read legible

theorem legible_initialised {p : Position} {name : String} (type : TypeName) (known : Spellable (.identifier, name))
    {e : Expr} (value : ∃ ts, e.Legible ts) : ∃ ts, (Stmt.declare p name type (some e)).Legible ts := by
  refine legible_of_value ((renderDeclared name type).toList ++ [' ', '=', ' ']) Kind.letWord.mark
    [nameToken name, Kind.colon.mark, type.kind.mark, Kind.equal.mark] value ?_ ?_ ?_ ?_
  · simp
  · exact begins_reserved (c := 'l') (by simp) (by decide) rfl rfl
  · intro rest
    simp only [List.append_assoc, List.cons_append, List.nil_append]
    rw [bareTokens_declared known type (apart_cons rfl _), bareTokens_blank rfl, bareTokens_equal (by simp),
      bareTokens_blank rfl]
  · intro ts rest legible
    simp only [readStatement, kind_mark]
    refine ⟨rfl, ?_⟩
    rw [Rest.declaration]
    refine (gives_expect (r := .behind _ _) rfl rfl).bind fun r left => ?_
    refine (gives_expect left rfl).bind fun r left => ?_
    refine (gives_typeName left (typeName?_kind type)).bind fun r left => ?_
    have next : Failure.nextKind r.tokens ≠ .semicolon := by
      rw [left]
      show Kind.equal ≠ .semicolon
      decide
    simp only [if_neg next]
    refine (gives_expect left rfl).bind fun r left => ?_
    exact gives_value (fun value => Stmt.declare .start name type (some value)) legible left

theorem legible_assigned {p : Position} {name : String} (known : Spellable (.identifier, name))
    {e : Expr} (value : ∃ ts, e.Legible ts) : ∃ ts, (Stmt.assign p name e).Legible ts := by
  refine legible_of_value (name.toList ++ [' ', '=', ' ']) (nameToken name) [Kind.equal.mark] value ?_ ?_ ?_ ?_
  · simp
  · exact (begins_name known).append _ []
  · intro rest
    simp only [List.append_assoc, List.cons_append, List.nil_append]
    rw [known.word (apart_cons rfl _), bareTokens_blank rfl, bareTokens_equal (by simp), bareTokens_blank rfl]
  · intro ts rest legible
    have next : Failure.nextKind ([Kind.equal.mark] ++ (ts ++ Kind.semicolon.mark :: rest)) = .equal := rfl
    simp only [readStatement, kind_nameToken, if_pos next]
    refine ⟨rfl, ?_⟩
    rw [Rest.assignment]
    refine (gives_expect (r := .behind _ _) rfl rfl).bind fun r left => ?_
    exact gives_value (fun value => Stmt.assign .start name value) legible left

theorem legible_returned {p : Position} {e : Expr} (value : ∃ ts, e.Legible ts) :
    ∃ ts, (Stmt.giveBack p e).Legible ts := by
  refine legible_of_value (Kind.returnWord.describe.toList ++ [' ']) Kind.returnWord.mark [] value ?_ ?_ ?_ ?_
  · simp
  · exact begins_reserved (c := 'r') rfl (by decide) rfl rfl
  · intro rest
    rw [List.append_assoc, List.singleton_append, bareTokens_reserved rfl rfl (apart_cons rfl _), bareTokens_blank rfl,
      List.nil_append]
  · intro ts rest legible
    simp only [readStatement, kind_mark]
    refine ⟨rfl, ?_⟩
    rw [Rest.returned]
    exact gives_value (fun value => Stmt.giveBack .start value) legible rfl

/-- What is read as an expression is derived as one. -/
theorem derives_of_legible {e : Expr} {ts : List Token} (legible : e.Legible ts) :
    Derives .expression (ts.map Token.kind) := by
  have stops : Stops [] := ⟨rfl, by decide⟩
  obtain ⟨r, read, left⟩ := (legible.whole (by decide : Precedence.lowest < .call) stops).eq
  have takes := takes_readExpr .lowest (ts ++ [])
  rw [read] at takes
  cases takes with
  | ok behind derives =>
    obtain ⟨used, split, rfl⟩ := behind
    rw [left, List.append_nil, List.append_nil] at split
    rwa [split] at derives

theorem legible_evaluated {p : Position} {e : Expr} (value : ∃ ts, e.Legible ts) :
    ∃ ts, (Stmt.evaluate p e).Legible ts := by
  obtain ⟨ts, legible⟩ := value
  have derives := derives_of_legible legible
  obtain ⟨k, kinds, same, opens⟩ := opens_of_expression derives
  obtain ⟨t, more, rfl, rfl, -⟩ := List.map_eq_cons_iff.mp same
  refine ⟨t :: more, legible.begins, legible.spelled, t, more, rfl, fun {rest} ends => ?_⟩
  have stops := stops_of_fresh ends.fresh (ends.stays rfl)
  have unassigned : Failure.nextKind (more ++ rest) ≠ .equal :=
    @next_ne_equal t more [] rest derives (by decide) ends.fresh
  rw [readStatement_of_opens opens fun _ => unassigned]
  refine ⟨rfl, ?_⟩
  rw [readEvaluation]
  refine (legible.whole (by decide : Precedence.lowest < .call) stops).bind fun r left => ?_
  have skipped : r.skipSemicolon.tokens = rest :=
    skipSemicolon_of_ending (show r.tokens = [] ++ rest from left) (by decide) (ends.fresh.ne rfl (by decide))
  have place : t.position = .start := by
    have whole := legible.spelled apart_nil
    have member : t ∈ bareTokens (e.render.toList ++ []) := by
      rw [whole]
      exact List.mem_cons_self
    exact position_of_bareTokens member
  rw [place]
  exact congrArg (fun rest => Except.ok (Stmt.evaluate .start e, rest)) skipped

/-! ### Statements with a body -/

/-- A block without its places. -/
theorem bare_block (b : Block) : Block.mk .start (b.statements.map Stmt.bare) = b.move nowhere := by
  obtain ⟨p, statements⟩ := b
  rw [move_mk]
  rfl

theorem legible_nested {body : Block} (block : ∃ ts, body.Legible ts) : ∃ ts, (Stmt.block body).Legible ts := by
  obtain ⟨ts, legible⟩ := block
  obtain ⟨p, statements⟩ := body
  have rendered : (Stmt.block (.mk p statements)).render.toList = '{' :: ((Block.renderBody statements).toList ++ [' ', '}']) := by
    simp
  refine ⟨Kind.leftBrace.mark :: (ts ++ [Kind.rightBrace.mark]), ?_, ?_, Kind.leftBrace.mark,
    ts ++ [Kind.rightBrace.mark], rfl, ?_⟩
  · rw [rendered]
    exact .other (by decide) rfl rfl
  · intro rest _
    rw [Stmt.render, legible.spelled, List.cons_append, List.append_assoc]
    rfl
  · intro rest _
    rw [List.append_assoc]
    simp only [readStatement, kind_mark]
    exact (legible.read rest).inside (congrArg Stmt.block (bare_block _))

/-- A statement that ends with a block: it is enough to look at what stands in front of the block. -/
theorem legible_of_body {s : Stmt} {body : Block} (front : List Char) (t : Token) (more : List Token)
    (block : ∃ ts, body.Legible ts) (rendered : s.render.toList = front ++ body.render.toList)
    (begins : Begins front [t]) (spelled : ∀ rest, bareTokens (front ++ rest) = t :: (more ++ bareTokens rest))
    (read : ∀ {ts rest : List Token}, body.Legible ts → Failure.nextKind rest ≠ .elseWord →
      (readStatement t (more ++ Kind.leftBrace.mark :: (ts ++ Kind.rightBrace.mark :: rest))).Gives s.bare rest) :
    ∃ ts, s.Legible ts := by
  obtain ⟨ts, legible⟩ := block
  refine ⟨t :: (more ++ Kind.leftBrace.mark :: (ts ++ [Kind.rightBrace.mark])), ?_, ?_, t,
    more ++ Kind.leftBrace.mark :: (ts ++ [Kind.rightBrace.mark]), rfl, ?_⟩
  · rw [rendered]
    exact begins.append _ _
  · intro rest _
    rw [rendered, List.append_assoc, spelled, legible.spelled]
    simp
  · intro rest ends
    rw [List.append_assoc, List.cons_append, List.append_assoc]
    exact read legible (ends.fresh.ne rfl (by decide))

/-- A reserved word with a condition. -/
def headText (k : Kind) (condition : Expr) : List Char :=
  k.describe.toList ++ ' ' :: '(' :: (condition.render.toList ++ [')', ' '])

theorem bareTokens_head {k : Kind} (reserved : Kind.ofWord k.describe = k)
    (letters : k.describe.toList.all Char.isAlpha = true) {e : Expr} {ts : List Token} (legible : e.Legible ts)
    (rest : List Char) : bareTokens (headText k e ++ rest) = k.mark :: (parenthesized ts ++ bareTokens rest) := by
  simp only [headText, List.append_assoc, List.cons_append, List.nil_append]
  rw [bareTokens_reserved reserved letters (apart_cons rfl _), bareTokens_blank rfl, bareTokens_symbol rfl (by decide),
    legible.spelled (apart_cons rfl _), bareTokens_symbol rfl (by decide), bareTokens_blank rfl, parenthesized_append]

section

variable {p : Position} {condition : Expr} {body : Block}

theorem legible_branch (tested : ∃ ts, condition.Legible ts) (block : ∃ ts, body.Legible ts) :
    ∃ ts, (Stmt.branch p condition body none).Legible ts := by
  obtain ⟨ts, legible⟩ := tested
  refine legible_of_body (headText .ifWord condition) Kind.ifWord.mark (parenthesized ts) block ?_ ?_ ?_ ?_
  · simp [headText]
  · exact begins_reserved (c := 'i') rfl (by decide) rfl rfl
  · exact bareTokens_head rfl rfl legible
  · intro ts' rest inner noElse
    rw [parenthesized_append]
    obtain ⟨⟨tokens, less⟩, read, left⟩ := (gives_condition (r := .behind Kind.ifWord.mark _) legible rfl).eq
    obtain rfl : tokens = ts' ++ Kind.rightBrace.mark :: rest := left
    obtain ⟨⟨tokens, less'⟩, found, left⟩ := (inner.read rest).eq
    obtain rfl : tokens = rest := left
    simp only [readStatement, kind_mark, read, found, if_neg noElse]
    refine ⟨rfl, ?_⟩
    rw [bare_block]
    rfl

theorem legible_loop (tested : ∃ ts, condition.Legible ts) (block : ∃ ts, body.Legible ts) :
    ∃ ts, (Stmt.loop p condition body).Legible ts := by
  obtain ⟨ts, legible⟩ := tested
  refine legible_of_body (headText .whileWord condition) Kind.whileWord.mark (parenthesized ts) block ?_ ?_ ?_ ?_
  · simp [headText]
  · exact begins_reserved (c := 'w') rfl (by decide) rfl rfl
  · exact bareTokens_head rfl rfl legible
  · intro ts' rest inner _
    rw [parenthesized_append]
    obtain ⟨⟨tokens, less⟩, read, left⟩ := (gives_condition (r := .behind Kind.whileWord.mark _) legible rfl).eq
    obtain rfl : tokens = ts' ++ Kind.rightBrace.mark :: rest := left
    simp only [readStatement, kind_mark, read]
    exact (inner.read rest).inside (congrArg (Stmt.loop .start condition) (bare_block body))

theorem legible_choice {alternative : Block} (tested : ∃ ts, condition.Legible ts) (block : ∃ ts, body.Legible ts)
    (other : ∃ ts, alternative.Legible ts) : ∃ ts, (Stmt.branch p condition body (some alternative)).Legible ts := by
  obtain ⟨ts, legible⟩ := tested
  obtain ⟨ts', inner⟩ := block
  refine legible_of_body
    (headText .ifWord condition ++ (body.render.toList ++ ' ' :: (Kind.elseWord.describe.toList ++ [' '])))
    Kind.ifWord.mark
    (parenthesized ts ++ Kind.leftBrace.mark :: (ts' ++ [Kind.rightBrace.mark, Kind.elseWord.mark])) other ?_ ?_ ?_ ?_
  · simp [headText]
  · exact begins_reserved (c := 'i') rfl (by decide) rfl rfl
  · intro rest
    simp only [List.append_assoc, List.cons_append, List.nil_append]
    rw [bareTokens_head rfl rfl legible, inner.spelled, bareTokens_blank rfl,
      bareTokens_reserved rfl rfl (apart_cons rfl _), bareTokens_blank rfl]
  · intro ts'' rest inner' _
    rw [List.append_assoc, parenthesized_append, List.cons_append, List.append_assoc, List.cons_append, List.cons_append,
      List.nil_append]
    generalize behind : Kind.elseWord.mark :: Kind.leftBrace.mark :: (ts'' ++ Kind.rightBrace.mark :: rest) = later
    have next : Failure.nextKind later = .elseWord := by rw [← behind]; rfl
    have front : later.drop 1 = Kind.leftBrace.mark :: (ts'' ++ Kind.rightBrace.mark :: rest) := by rw [← behind]; rfl
    obtain ⟨⟨tokens, less⟩, read, left⟩ := (gives_condition (r := .behind Kind.ifWord.mark _) legible rfl).eq
    obtain rfl : tokens = ts' ++ Kind.rightBrace.mark :: later := left
    obtain ⟨⟨tokens, less'⟩, found, left⟩ := (inner.read later).eq
    obtain rfl : tokens = later := left
    obtain ⟨⟨tokens, less''⟩, expected, left⟩ :=
      (gives_expect (r := ⟨_, length_drop_lt less' less⟩) (k := .leftBrace) front rfl).eq
    obtain rfl : tokens = ts'' ++ Kind.rightBrace.mark :: rest := left
    simp only [readStatement, kind_mark, read, found, if_pos next, expected]
    refine (inner'.read rest).inside ?_
    rw [bare_block]
    exact congrArg (fun b => Stmt.branch .start condition (body.move nowhere) (some b)) (bare_block alternative)

theorem legible_define {name : String} {parameters : List String} (known : Spellable (.identifier, name))
    (each : ∀ x ∈ parameters, Spellable (.identifier, x)) (block : ∃ ts, body.Legible ts) :
    ∃ ts, (Stmt.define p name parameters body).Legible ts := by
  obtain ⟨ts, spelled, given⟩ := legible_parameters each
  refine legible_of_body
    (Kind.funcWord.describe.toList ++ ' ' :: (name.toList ++ '(' :: ((", ".intercalate parameters).toList ++ [')', ' '])))
    Kind.funcWord.mark (nameToken name :: parenthesized ts) block ?_ ?_ ?_ ?_
  · simp
  · exact begins_reserved (c := 'f') rfl (by decide) rfl rfl
  · intro rest
    simp only [List.append_assoc, List.cons_append, List.nil_append]
    rw [bareTokens_reserved rfl rfl (apart_cons rfl _), bareTokens_blank rfl, known.word (apart_cons rfl _),
      bareTokens_symbol rfl (by decide), spelled, bareTokens_blank rfl, parenthesized_append]
  · intro ts' rest inner _
    rw [List.cons_append, parenthesized_append]
    obtain ⟨⟨tokens, less⟩, read, left⟩ := (gives_signature (r := .behind Kind.funcWord.mark _) name given rfl).eq
    obtain rfl : tokens = ts' ++ Kind.rightBrace.mark :: rest := left
    simp only [readStatement, kind_mark, read]
    exact (inner.read rest).inside (congrArg (Stmt.define .start name parameters) (bare_block body))

end

/-! ### Statements in a row -/

theorem ends_of_begins {s next : Stmt} {more : List Stmt} {ts : List Token} (begins : Begins next.render.toList ts)
    (parted : s.runsInto (next :: more) = false) (rest : List Token) : s.Ends (ts ++ rest) := by
  refine ⟨.inl (begins.opens rest), fun evaluation => begins.stays ?_ rest⟩
  simpa [Stmt.runsInto, evaluation] using parted

theorem apart_renderBody (statements : List Stmt) (rest : List Char) :
    Apart ((Block.renderBody statements).toList ++ ' ' :: rest) := by
  cases statements with
  | nil => exact apart_cons rfl rest
  | cons s more =>
    simp only [Block.renderBody, String.toList_append, List.append_assoc]
    exact apart_cons rfl _

theorem legible_row {statements : List Stmt} (each : ∀ s ∈ statements, ∃ ts, s.Legible ts)
    (separate : separateEach statements = true) :
    ∃ ts, (∀ rest, bareTokens ((Block.renderBody statements).toList ++ ' ' :: rest) = ts ++ bareTokens rest) ∧
      (∀ rest, (readBody (ts ++ Kind.rightBrace.mark :: rest)).Gives (statements.map Stmt.bare) rest) ∧
      ∀ s : Stmt, s.runsInto statements = false → ∀ rest, s.Ends (ts ++ Kind.rightBrace.mark :: rest) := by
  induction statements with
  | nil =>
    refine ⟨[], fun rest => bareTokens_blank rfl rest, fun rest => ?_, fun s _ rest => ⟨.inr ?_, fun _ => rfl⟩⟩
    · rw [List.nil_append, readBody, if_pos (kind_mark _)]
      exact ⟨rfl, rfl⟩
    · exact List.mem_cons_self
  | cons s more ih =>
    simp only [separateEach, Bool.and_eq_true, Bool.not_eq_true'] at separate
    obtain ⟨ts, begins, spelled, t, ahead, rfl, read⟩ := each s List.mem_cons_self
    obtain ⟨ts', spelled', read', ends⟩ := ih (fun d member => each d (List.mem_cons_of_mem s member)) separate.2
    refine ⟨t :: ahead ++ ts', fun rest => ?_, fun rest => ?_, fun s' parted rest => ?_⟩
    · have rendered : (Block.renderBody (s :: more)).toList ++ ' ' :: rest =
          ' ' :: (s.render.toList ++ ((Block.renderBody more).toList ++ ' ' :: rest)) := by simp
      rw [rendered, bareTokens_blank rfl, spelled (apart_renderBody more rest), spelled', List.append_assoc]
    · have opened : t.kind ≠ .rightBrace := by
        intro closes
        have opens : t.kind.opensStatement = true := begins.opens []
        rw [closes] at opens
        cases opens
      obtain ⟨⟨tokens, less⟩, first, left⟩ := (read (ends s separate.1.2 rest)).eq
      obtain rfl : tokens = ts' ++ Kind.rightBrace.mark :: rest := left
      rw [List.append_assoc, List.cons_append, readBody, if_neg opened, first]
      exact (read' rest).inside rfl
    · rw [List.append_assoc]
      exact ends_of_begins begins parted _

theorem legible_block {p : Position} {statements : List Stmt} (each : ∀ s ∈ statements, ∃ ts, s.Legible ts)
    (separate : separateEach statements = true) : ∃ ts, (Block.mk p statements).Legible ts := by
  obtain ⟨ts, spelled, read, -⟩ := legible_row each separate
  refine ⟨ts, fun rest => ?_, read⟩
  have rendered : (Block.mk p statements).render.toList ++ rest =
      '{' :: ((Block.renderBody statements).toList ++ ' ' :: '}' :: rest) := by simp
  rw [rendered, bareTokens_symbol rfl (by decide), spelled, bareTokens_symbol rfl (by decide)]

theorem legible_script {statements : List Stmt} (each : ∀ s ∈ statements, ∃ ts, s.Legible ts)
    (separate : separateEach statements = true) :
    ∃ ts, bareTokens (renderScript statements).toList = ts ∧ readScript ts = (statements.map Stmt.bare, []) ∧
      ∀ s : Stmt, s.runsInto statements = false → s.Ends ts := by
  induction statements with
  | nil =>
    refine ⟨[], bareTokens_nil, ?_, fun s _ => ⟨.inr ?_, fun _ => rfl⟩⟩
    · rw [readScript]
      rfl
    · decide
  | cons s more ih =>
    simp only [separateEach, Bool.and_eq_true, Bool.not_eq_true'] at separate
    obtain ⟨ts, begins, spelled, t, ahead, rfl, read⟩ := each s List.mem_cons_self
    obtain ⟨ts', spelled', read', ends⟩ := ih (fun d member => each d (List.mem_cons_of_mem s member)) separate.2
    refine ⟨t :: ahead ++ ts', ?_, ?_, fun s' parted => ends_of_begins begins parted ts'⟩
    · cases more with
      | nil =>
        have whole := spelled apart_nil
        rw [List.append_nil] at whole
        rw [← spelled']
        simpa [renderScript] using whole
      | cons next more =>
        have rendered : (renderScript (s :: next :: more)).toList =
            s.render.toList ++ '\n' :: (renderScript (next :: more)).toList := by simp [renderScript]
        rw [rendered, spelled (apart_cons rfl _), bareTokens_blank rfl, spelled']
    · obtain ⟨⟨tokens, less⟩, first, left⟩ := (read (ends s separate.1.2)).eq
      obtain rfl : tokens = ts' := left
      rw [List.cons_append, readScript, first]
      simp only [read', List.map_cons, List.nil_append]

/-! ## Scripts -/

/-- The text of a statement is read as the statement. -/
theorem legible_statement {s : Stmt} (uses : s.Uses Spellable) (finite : ∀ x ∈ s.numbers, Number.isFinite x = true)
    (separate : s.separate = true) : ∃ ts, s.Legible ts := by
  -- Blocks are judged by their statements.
  have block {b : Block}
      (ih : ∀ s ∈ b.statements, (∀ x ∈ s.numbers, Number.isFinite x = true) → s.separate = true → ∃ ts, s.Legible ts)
      (finite : ∀ x ∈ b.numbers, Number.isFinite x = true) (separate : b.separate = true) : ∃ ts, b.Legible ts := by
    obtain ⟨p, statements⟩ := b
    refine legible_block (fun s member => ih s member (fun x inside => ?_) (separate_of_mem member separate)) separate
    exact finite x (numbers_subset member inside)
  induction uses with
  | @declare p name type value known initial =>
    cases value with
    | none => exact legible_declared type known
    | some e => exact legible_initialised type known (legible_of_uses (initial e rfl) finite)
  | assign known assigned => exact legible_assigned known (legible_of_uses assigned finite)
  | giveBack given => exact legible_returned (legible_of_uses given finite)
  | evaluate evaluated => exact legible_evaluated (legible_of_uses evaluated finite)
  | block inside ih => exact legible_nested (block ih finite separate)
  | @branch p condition consequence alternative tested first second ih ih' =>
    cases alternative with
    | none =>
      obtain ⟨left, right⟩ := List.forall_mem_append.mp finite
      exact legible_branch (legible_of_uses tested left) (block ih right separate)
    | some alternative =>
      obtain ⟨left, right⟩ := List.forall_mem_append.mp finite
      obtain ⟨middle, right⟩ := List.forall_mem_append.mp right
      obtain ⟨separate, separate'⟩ := Bool.and_eq_true_iff.mp separate
      exact legible_choice (legible_of_uses tested left) (block ih middle separate)
        (block (ih' alternative rfl) right separate')
  | loop tested inside ih =>
    obtain ⟨left, right⟩ := List.forall_mem_append.mp finite
    exact legible_loop (legible_of_uses tested left) (block ih right separate)
  | define known each inside ih => exact legible_define known each (block ih finite separate)

/-- What was read of a source is spelled with what its tokens stand for. -/
theorem uses_of_parse (source : String) : ∀ s ∈ (parse source).script, s.Uses Spellable := by
  have laid := laid_readAll (.ofSource source)
  exact (moves_readScript (f := nowhere) (spellable_of_laid laid)).2

/-- The text of a script that was read is read back without a diagnostic, and as the same script but
    for the places, provided that its numbers are finite and that no expression runs into the
    statement behind it. -/
theorem rendering_read_back (source : String)
    (finite : ∀ x ∈ numbersEach (parse source).script, Number.isFinite x = true)
    (separate : separateEach (parse source).script = true) :
    (parse (renderScript (parse source).script)).diagnostics = [] ∧
      (parse (renderScript (parse source).script)).script.map Stmt.bare = (parse source).script.map Stmt.bare := by
  have each : ∀ s ∈ (parse source).script, ∃ ts, s.Legible ts := by
    intro s member
    refine legible_statement (uses_of_parse source s member) (fun x inside => ?_) (separate_of_mem member separate)
    exact finite x (numbers_subset member inside)
  obtain ⟨ts, spelled, read, -⟩ := legible_script each separate
  obtain ⟨script, diagnostics⟩ := parse_bare (renderScript (parse source).script)
  rw [← bareTokens_toList, spelled, read] at script diagnostics
  exact ⟨List.map_eq_nil_iff.mp diagnostics, script⟩

/-- A function and a call, with the parentheses and semicolons that rendering adds. -/
theorem rendering_read_back_of_function :
    renderScript (parse "func f(a) \x7b return -a * 2 \x7d print(f(10))").script =
        "func f(a) \x7b return ((-a) * 2); \x7d\nprint(f(10))" ∧
      (parse "func f(a) \x7b return ((-a) * 2); \x7d\nprint(f(10))").diagnostics = [] ∧
      (parse "func f(a) \x7b return ((-a) * 2); \x7d\nprint(f(10))").script.map Stmt.bare =
        (parse "func f(a) \x7b return -a * 2 \x7d print(f(10))").script.map Stmt.bare := by
  have text : renderScript (parse "func f(a) \x7b return -a * 2 \x7d print(f(10))").script =
      "func f(a) \x7b return ((-a) * 2); \x7d\nprint(f(10))" := by decide +kernel
  have back := rendering_read_back "func f(a) \x7b return -a * 2 \x7d print(f(10))" (by decide +kernel)
    (by decide +kernel)
  rw [text] at back
  exact ⟨text, back⟩

/-- Without the semicolon the parentheses go on with the name. -/
example : renderScript (parse "a; (-b)").script = "a\n(-b)" ∧
    renderScript (parse "a\n(-b)").script = "a((-b))" := by decide +kernel

end Stepwise
