import Stepwise.Proofs.Completeness
import Stepwise.Proofs.Digits
import Stepwise.Proofs.Spelling
import Stepwise.Script.Render

/-!
The text of an expression is read back as the expression (`legible_of_uses`). Since every operator
is written with its own parentheses, an expression is one operand with at most calls behind it, so
whatever strength the reader starts with, it comes to the end of the text with the whole expression
in hand (`Expr.Legible`).
-/
namespace Stepwise

attribute [local simp] Expr.render Expr.renderEach

/-! ## What reading gives -/

section

variable {α β : Type} {whole : List Token}

/-- Reading gives a thing and leaves such tokens. -/
def Reading.Gives (x : Reading α whole) (a : α) (rest : List Token) : Prop :=
  x.plain = .ok (a, rest)

theorem Reading.Gives.eq {x : Reading α whole} {a : α} {rest : List Token} (gives : x.Gives a rest) :
    ∃ r, x = .ok (a, r) ∧ r.tokens = rest := by
  cases x with
  | error s => cases gives
  | ok found =>
    obtain ⟨b, r⟩ := found
    cases gives
    exact ⟨r, rfl, rfl⟩

theorem Reading.Gives.bind {x : Reading α whole} {f : α × Rest whole → Reading β whole} {a : α} {b : β}
    {rest rest' : List Token} (gives : x.Gives a rest)
    (next : ∀ r : Rest whole, r.tokens = rest → (f (a, r)).Gives b rest') : Reading.Gives (x >>= f) b rest' := by
  obtain ⟨r, rfl, left⟩ := gives.eq
  exact next r left

theorem Reading.Gives.inside {r : Rest whole} {x : Reading α r.tokens} {a : α} {rest : List Token}
    (gives : x.Gives a rest) : (Reading.inside r x).Gives a rest := by
  unfold Reading.Gives
  rw [plain_inside]
  exact gives

theorem gives_expect {r : Rest whole} {t : Token} {ahead : List Token} {k : Kind} (split : r.tokens = t :: ahead)
    (same : t.kind = k) : (r.expect k).Gives t ahead := by
  obtain ⟨tokens, shorter⟩ := r
  obtain rfl : tokens = t :: ahead := split
  simp only [Rest.expect, if_pos same]
  rfl

end

/-! ## Beginnings -/

/-- How a text and its tokens begin: with a parenthesis, or with something that goes on with no
    expression. -/
inductive Begins : List Char → List Token → Prop where
  | group {text : List Char} {more : List Token} : Begins ('(' :: text) (Kind.leftParen.mark :: more)
  | other {c : Char} {text : List Char} {t : Token} {more : List Token} (plain : c ≠ '=')
      (opens : t.kind.opensStatement = true) (stays : t.kind.goesOn = false) : Begins (c :: text) (t :: more)

section

variable {text : List Char} {ts : List Token} (begins : Begins text ts)

include begins

theorem Begins.append (text' : List Char) (ts' : List Token) : Begins (text ++ text') (ts ++ ts') := by
  cases begins with
  | group => exact .group
  | other plain opens stays => exact .other plain opens stays

theorem Begins.unequal (text' : List Char) : (text ++ text').head? ≠ some '=' := by
  cases begins with
  | group => simp
  | other plain opens stays => simpa using plain

theorem Begins.opens (rest : List Token) : (Failure.nextKind (ts ++ rest)).opensStatement = true := by
  cases begins with
  | group => rfl
  | other plain opens stays => exact opens

theorem Begins.stays (apart : text.head? ≠ some '(') (rest : List Token) :
    (Failure.nextKind (ts ++ rest)).goesOn = false := by
  cases begins with
  | group => exact absurd rfl apart
  | other plain opens stays => exact stays

end

/-! ## Expressions -/

/-- The tokens of the text of an expression, which are read as the expression. -/
structure Expr.Legible (e : Expr) (ts : List Token) : Prop where
  begins : Begins e.render.toList ts
  spelled : ∀ {rest : List Char}, Apart rest → bareTokens (e.render.toList ++ rest) = ts ++ bareTokens rest
  read : ∀ {minimum : Precedence} {rest rest' : List Token} {a : Expr}, minimum < .call →
    Failure.nextKind rest ≠ .dot →
    (∀ {whole : List Token} (r : Rest whole), r.tokens = rest → (readOperators minimum e r).Gives a rest') →
    (readExpr minimum (ts ++ rest)).Gives a rest'

/-- Nothing is taken up in front of a token that stops an expression. -/
theorem gives_stop {whole : List Token} {r : Rest whole} {rest : List Token} (minimum : Precedence) (e : Expr)
    (left : r.tokens = rest) (stops : Stops rest) : (readOperators minimum e r).Gives e rest := by
  subst left
  rw [readOperators_stop e (weaker_of_lowest minimum stops.1)]
  rfl

/-- An expression is read to its end, if what stands behind it does not go on with it. -/
theorem Expr.Legible.whole {e : Expr} {ts rest : List Token} (legible : e.Legible ts) {minimum : Precedence}
    (weak : minimum < .call) (stops : Stops rest) : (readExpr minimum (ts ++ rest)).Gives e rest :=
  legible.read weak stops.2 fun _ left => gives_stop minimum e left stops

theorem stops_mark {k : Kind} (lowest : k.precedence = .lowest) (other : k ≠ .dot) (ahead : List Token) :
    Stops (k.mark :: ahead) :=
  stops_of_kind rfl lowest other ahead

/-! ### Operands -/

theorem legible_of_literal {e : Expr} {t : Token} (literal : t.literal? = some e)
    (begins : Begins e.render.toList [t])
    (spelled : ∀ {rest : List Char}, Apart rest → bareTokens (e.render.toList ++ rest) = t :: bareTokens rest) :
    e.Legible [t] := by
  refine ⟨begins, spelled, fun weak next goes => ?_⟩
  rw [List.singleton_append, readExpr_literal literal]
  exact goes _ rfl

theorem legible_number {digits : List Char} (finite : Number.isFinite (Number.ofDigitRun digits) = true) :
    ∃ ts, (Expr.number (Number.ofDigitRun digits)).Legible ts := by
  have shown := Number.shown_render finite
  generalize text : (Number.render (Number.ofDigitRun digits)).toList = written at shown
  have rendered : (Expr.number (Number.ofDigitRun digits)).render.toList = written := by rw [Expr.render, text]
  refine ⟨[.ofContent (.number, String.ofList written)], legible_of_literal ?_ ?_ ?_⟩
  · show some (Expr.number (Number.ofDigitRun (String.ofList written).toList)) = _
    rw [String.toList_ofList, shown.read]
  · obtain ⟨c, more, split⟩ := List.exists_cons_of_ne_nil shown.some
    have digit := shown.digital c (by rw [split]; exact List.mem_cons_self)
    rw [rendered, split]
    refine .other ?_ rfl rfl
    rintro rfl
    exact absurd digit (by decide)
  · intro rest apart
    rw [rendered]
    exact bareTokens_digits shown.some shown.digital apart

theorem legible_string {text : String} (spellable : Spellable (.string, text)) :
    ∃ ts, (Expr.string text).Legible ts := by
  have rendered (rest : List Char) : (Expr.string text).render.toList ++ rest = '"' :: (text.toList ++ '"' :: rest) := by
    simp
  refine ⟨[.ofContent (.string, text)], legible_of_literal rfl ?_ ?_⟩
  · have whole := rendered []
    rw [List.append_nil] at whole
    rw [whole]
    exact .other (by decide) rfl rfl
  · intro rest _
    rw [rendered]
    exact bareTokens_quoted (spellable.text rfl) rest

theorem legible_bool (value : Bool) : ∃ ts, (Expr.bool value).Legible ts := by
  cases value with
  | true =>
    exact ⟨[Kind.trueWord.mark], legible_of_literal rfl (.other (c := 't') (by decide) rfl rfl)
      (bareTokens_reserved (k := .trueWord) rfl rfl)⟩
  | false =>
    exact ⟨[Kind.falseWord.mark], legible_of_literal rfl (.other (c := 'f') (by decide) rfl rfl)
      (bareTokens_reserved (k := .falseWord) rfl rfl)⟩

theorem begins_name {name : String} (known : Spellable (.identifier, name)) : Begins name.toList [nameToken name] := by
  obtain ⟨some, letters, -⟩ := known.name rfl
  obtain ⟨c, more, split⟩ := List.exists_cons_of_ne_nil some
  have letter := letters c (by rw [split]; exact List.mem_cons_self)
  rw [split]
  refine .other ?_ rfl rfl
  rintro rfl
  exact absurd letter (by decide)

/-- The tokens of a name: a word, and then dots with words. -/
theorem legible_path {path : String} (words : Path Spellable path) :
    ∃ word dots, Begins path.toList [nameToken word] ∧
      (∀ {rest : List Char}, Apart rest →
        bareTokens (path.toList ++ rest) = nameToken word :: (dots ++ bareTokens rest)) ∧
      ∀ rest, readPath word (dots ++ rest) = readPath path rest := by
  induction words with
  | @word word known =>
    exact ⟨word, [], begins_name known, fun apart => known.word apart, fun _ => rfl⟩
  | @dot path word front known ih =>
    obtain ⟨first, dots, begins, spelled, read⟩ := ih
    have rendered (rest : List Char) :
        (path ++ "." ++ word).toList ++ rest = path.toList ++ '.' :: (word.toList ++ rest) := by simp
    refine ⟨first, dots ++ [Kind.dot.mark, nameToken word], ?_, ?_, ?_⟩
    · have longer := begins.append ('.' :: word.toList) []
      rw [← List.append_nil word.toList, ← rendered, List.append_nil] at longer
      exact longer
    · intro rest apart
      rw [rendered, spelled (apart_cons rfl _), bareTokens_symbol rfl (by decide), known.word apart]
      simp
    · intro rest
      rw [List.append_assoc, read]
      rfl

theorem legible_name {path : String} (words : Path Spellable path) : ∃ ts, (Expr.name path).Legible ts := by
  obtain ⟨word, dots, begins, spelled, read⟩ := legible_path words
  have longer := begins.append [] dots
  rw [List.append_nil] at longer
  refine ⟨nameToken word :: dots, longer, spelled, ?_⟩
  intro minimum rest rest' a weak next goes
  rw [List.cons_append, readExpr_name rfl]
  have path : ((Rest.behind (nameToken word) (dots ++ rest)).path word).Gives path rest := by
    rw [Reading.Gives, plain_path]
    show readPath word (dots ++ rest) = _
    rw [read]
    cases rest with
    | nil => rfl
    | cons t ahead =>
      rw [readPath.eq_def]
      exact if_neg next
  exact path.bind goes

/-! ### Groups -/

/-- What stands in parentheses is read as a whole. -/
theorem legible_of_group {e : Expr} (inner : List Char) (ts : List Token)
    (rendered : e.render.toList = '(' :: (inner ++ [')']))
    (spelled : ∀ rest, bareTokens (inner ++ ')' :: rest) = ts ++ Kind.rightParen.mark :: bareTokens rest)
    (read : ∀ rest, (readExpr .lowest (ts ++ Kind.rightParen.mark :: rest)).Gives e (Kind.rightParen.mark :: rest)) :
    ∃ ts, e.Legible ts := by
  refine ⟨parenthesized ts, ?_, ?_, ?_⟩
  · rw [rendered]
    exact .group
  · intro rest _
    rw [rendered, List.cons_append, List.append_assoc, List.singleton_append, bareTokens_symbol rfl (by decide), spelled,
      parenthesized_append]
  · intro minimum rest rest' a weak next goes
    rw [parenthesized_append, readExpr_group rfl]
    refine (read rest).inside.bind fun r left => ?_
    exact (gives_expect left rfl).bind goes

theorem legible_unary (op : UnaryOp) {operand : Expr} (inside : ∃ ts, operand.Legible ts) :
    ∃ ts, (Expr.unary op operand).Legible ts := by
  obtain ⟨ts, legible⟩ := inside
  have closed (rest : List Token) : Stops (Kind.rightParen.mark :: rest) := stops_mark rfl (by decide) rest
  refine legible_of_group (op.symbol.toList ++ operand.render.toList) (op.kind.mark :: ts) ?_ ?_ ?_
  · simp
  · intro rest
    rw [List.append_assoc, bareTokens_unary op (legible.begins.unequal _), legible.spelled (apart_cons rfl _),
      bareTokens_symbol rfl (by decide), List.cons_append]
  · intro rest
    rw [List.cons_append, readExpr_unary (unaryOp?_kind op)]
    refine (legible.whole (by decide) (closed rest)).inside.bind fun r left => ?_
    exact gives_stop .lowest _ left (closed rest)

theorem legible_binary (op : BinaryOp) {left right : Expr} (first : ∃ ts, left.Legible ts)
    (second : ∃ ts, right.Legible ts) : ∃ ts, (Expr.binary left op right).Legible ts := by
  obtain ⟨ts, legible⟩ := first
  obtain ⟨ts', legible'⟩ := second
  have closed (rest : List Token) : Stops (Kind.rightParen.mark :: rest) := stops_mark rfl (by decide) rest
  refine legible_of_group (left.render.toList ++ ' ' :: (op.symbol.toList ++ ' ' :: right.render.toList))
    (ts ++ op.kind.mark :: ts') ?_ ?_ ?_
  · simp
  · intro rest
    simp only [List.append_assoc, List.cons_append]
    rw [legible.spelled (apart_cons rfl _), bareTokens_blank rfl, bareTokens_binary, bareTokens_blank rfl,
      legible'.spelled (apart_cons rfl _), bareTokens_symbol rfl (by decide)]
  · intro rest
    have undotted : op.kind ≠ .dot := by cases op <;> decide
    have stronger : Precedence.lowest < op.kind.precedence := by cases op <;> decide
    have weaker : op.kind.precedence < .call := by cases op <;> decide
    rw [List.append_assoc, List.cons_append]
    refine legible.read (by decide) undotted fun r tokens => ?_
    obtain ⟨_, shorter⟩ := r
    subst tokens
    rw [readOperators_binary left stronger (binaryOp?_kind op)]
    refine (legible'.whole weaker (closed rest)).inside.bind fun r tokens => ?_
    exact gives_stop .lowest _ tokens (closed rest)

/-! ### Calls -/

/-- The tokens of the arguments of a call, which are read as the arguments. -/
structure LegibleArguments (es : List Expr) (ts : List Token) : Prop where
  spelled : ∀ rest, bareTokens ((", ".intercalate (Expr.renderEach es)).toList ++ ')' :: rest) =
    ts ++ Kind.rightParen.mark :: bareTokens rest
  read : ∀ rest, (readArguments (ts ++ Kind.rightParen.mark :: rest)).Gives es rest

theorem readArguments_eq {ts : List Token} (more : Failure.nextKind ts ≠ .rightParen) :
    readArguments ts = readItems ts := by
  rw [readArguments.eq_def]
  cases ts with
  | nil => rfl
  | cons t ahead => exact if_neg more

theorem legible_items {e : Expr} {es : List Expr} (each : ∀ e' ∈ e :: es, ∃ ts, e'.Legible ts) :
    ∃ ts, Begins (", ".intercalate (Expr.renderEach (e :: es))).toList ts ∧
      (∀ rest, bareTokens ((", ".intercalate (Expr.renderEach (e :: es))).toList ++ ')' :: rest) =
        ts ++ Kind.rightParen.mark :: bareTokens rest) ∧
      ∀ rest, (readItems (ts ++ Kind.rightParen.mark :: rest)).Gives (e :: es) rest := by
  induction es generalizing e with
  | nil =>
    obtain ⟨ts, legible⟩ := each e List.mem_cons_self
    refine ⟨ts, legible.begins, fun rest => ?_, fun rest => ?_⟩
    · have closed : bareTokens (')' :: rest) = Kind.rightParen.mark :: bareTokens rest :=
        bareTokens_symbol rfl (by decide) rest
      rw [← closed]
      exact legible.spelled (apart_cons rfl _)
    · rw [readItems_eq]
      refine (legible.whole (by decide) (stops_mark rfl (by decide) rest)).bind fun r left => ?_
      have next : Failure.nextKind r.tokens ≠ .comma := by
        rw [left]
        show Kind.rightParen ≠ .comma
        decide
      simp only [if_neg next]
      exact (gives_expect left rfl).bind fun r left => congrArg (fun rest => Except.ok ([e], rest)) left
  | cons e' es ih =>
    obtain ⟨ts, legible⟩ := each e List.mem_cons_self
    obtain ⟨ts', -, spelled, read⟩ := ih fun d member => each d (List.mem_cons_of_mem e member)
    have rendered : (", ".intercalate (Expr.renderEach (e :: e' :: es))).toList =
        e.render.toList ++ ',' :: ' ' :: (", ".intercalate (Expr.renderEach (e' :: es))).toList := by
      simp
    refine ⟨ts ++ Kind.comma.mark :: ts', ?_, fun rest => ?_, fun rest => ?_⟩
    · rw [rendered]
      exact legible.begins.append _ _
    · simp only [rendered, List.append_assoc, List.cons_append]
      rw [legible.spelled (apart_cons rfl _), bareTokens_symbol rfl (by decide), bareTokens_blank rfl, spelled]
    · rw [readItems_eq, List.append_assoc, List.cons_append]
      refine (legible.whole (by decide) (stops_mark rfl (by decide) _)).bind fun r left => ?_
      have next : Failure.nextKind r.tokens = .comma := by
        rw [left]
        rfl
      simp only [if_pos next]
      refine (gives_expect left rfl).bind fun r left => ?_
      have more := read rest
      rw [← left] at more
      exact more.inside.bind fun r left => congrArg (fun rest => Except.ok (e :: e' :: es, rest)) left

theorem legible_arguments {es : List Expr} (each : ∀ e ∈ es, ∃ ts, e.Legible ts) : ∃ ts, LegibleArguments es ts := by
  cases es with
  | nil =>
    refine ⟨[], fun rest => bareTokens_symbol rfl (by decide) rest, fun rest => ?_⟩
    rw [List.nil_append, readArguments, if_pos (kind_mark _)]
    rfl
  | cons e es =>
    obtain ⟨ts, begins, spelled, read⟩ := legible_items each
    refine ⟨ts, spelled, fun rest => ?_⟩
    have opens := begins.opens (Kind.rightParen.mark :: rest)
    rw [readArguments_eq]
    · exact read rest
    · intro closes
      rw [closes] at opens
      cases opens

theorem legible_call {callee : Expr} {arguments : List Expr} (called : ∃ ts, callee.Legible ts)
    (each : ∀ e ∈ arguments, ∃ ts, e.Legible ts) : ∃ ts, (Expr.call callee arguments).Legible ts := by
  obtain ⟨ts, legible⟩ := called
  obtain ⟨ts', given⟩ := legible_arguments each
  have rendered : (Expr.call callee arguments).render.toList =
      callee.render.toList ++ '(' :: ((", ".intercalate (Expr.renderEach arguments)).toList ++ [')']) := by
    simp
  refine ⟨ts ++ parenthesized ts', ?_, ?_, ?_⟩
  · rw [rendered]
    exact legible.begins.append _ _
  · intro rest _
    simp only [rendered, List.append_assoc, List.cons_append, List.nil_append]
    rw [legible.spelled (apart_cons rfl _), bareTokens_symbol rfl (by decide), given.spelled, parenthesized_append]
  · intro minimum rest rest' a weak next goes
    rw [List.append_assoc, parenthesized_append]
    refine legible.read weak (show Kind.leftParen ≠ .dot by decide) fun r tokens => ?_
    obtain ⟨_, shorter⟩ := r
    subst tokens
    rw [readOperators_call callee weak rfl]
    exact (given.read rest).inside.bind goes

/-! ### All expressions -/

mutual

/-- The numbers that are written in an expression. -/
def Expr.numbers : Expr → List Float
  | .number value => [value]
  | .name _ | .string _ | .bool _ => []
  | .unary _ operand => operand.numbers
  | .binary left _ right => left.numbers ++ right.numbers
  | .call callee arguments => callee.numbers ++ Expr.numbersEach arguments

/-- The numbers that are written in the arguments of a call. -/
def Expr.numbersEach : List Expr → List Float
  | [] => []
  | e :: es => e.numbers ++ numbersEach es

end

theorem numbers_subset_numbersEach {e : Expr} {es : List Expr} (member : e ∈ es) :
    e.numbers ⊆ Expr.numbersEach es := by
  induction es with
  | nil => cases member
  | cons d es ih =>
    rw [Expr.numbersEach]
    rcases List.mem_cons.mp member with rfl | later
    · exact List.subset_append_left _ _
    · exact List.subset_append_of_subset_right _ (ih later)

/-- The text of an expression is read as the expression. -/
theorem legible_of_uses {e : Expr} (uses : e.Uses Spellable) (finite : ∀ x ∈ e.numbers, Number.isFinite x = true) :
    ∃ ts, e.Legible ts := by
  induction uses with
  | name words => exact legible_name words
  | number known => exact legible_number (finite _ (List.mem_singleton_self _))
  | string known => exact legible_string known
  | bool value => exact legible_bool value
  | unary op inside ih => exact legible_unary op (ih finite)
  | binary op first second ih ih' =>
    obtain ⟨left, right⟩ := List.forall_mem_append.mp finite
    exact legible_binary op (ih left) (ih' right)
  | call called each ih ih' =>
    obtain ⟨left, right⟩ := List.forall_mem_append.mp finite
    refine legible_call (ih left) fun e member => ih' e member fun x inside => ?_
    exact right x (numbers_subset_numbersEach member inside)

end Stepwise
