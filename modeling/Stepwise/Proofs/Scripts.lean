import Stepwise.Proofs.Completeness
import Stepwise.Proofs.Statements

/-!
What is derived is read: scripts. A statement is read to its end if nothing behind it could go
on with it (`complete_statement`), as long as bodies shorter than it are read to their closing
brace. A script can be cut into statements that stand apart like this (`cut_of_script`), so by
induction on how many tokens there are bodies and scripts are read without a failure
(`complete_bodies`, `complete_script`).
-/
namespace Stepwise

/-! ## Parts of statements -/

/-- What can stand behind a statement. -/
def Fresh (rest : List Token) : Prop :=
  (Failure.nextKind rest).opensStatement = true ∨ Failure.nextKind rest ∈ [.rightBrace, .eof]

theorem Fresh.ne {rest : List Token} (fresh : Fresh rest) {k : Kind} (other : k.opensStatement = false)
    (inside : k ∉ [.rightBrace, .eof]) : Failure.nextKind rest ≠ k := by
  rintro rfl
  rcases fresh with opens | outside
  · rw [opens] at other
    cases other
  · exact inside outside

/-- What is behind a statement goes on with no expression, unless it is a minus sign or a
    parenthesis. -/
theorem stops_of_fresh {rest : List Token} (fresh : Fresh rest) (stays : (Failure.nextKind rest).goesOn = false) :
    Stops rest := by
  unfold Fresh at fresh
  unfold Stops
  generalize Failure.nextKind rest = k at fresh stays
  cases k <;> first | exact ⟨rfl, by decide⟩ | exact absurd fresh (by decide) | cases stays

section

variable {α β : Type} {whole : List Token} {P Q : List Token → Prop}

section

variable {r : Rest whole} {used rest : List Token}

theorem leaves_expr (split : r.tokens = used ++ rest) (derives : Derives .expression (used.map Token.kind))
    (stops : Stops rest) : r.expr.Leaves (· = rest) := by
  obtain ⟨tokens, shorter⟩ := r
  obtain rfl : tokens = used ++ rest := split
  obtain ⟨e, inner, read, left⟩ := readExpr_complete derives stops
  exact ⟨e, Rest.within ⟨_, shorter⟩ inner, by rw [Rest.expr, read]; rfl, left⟩

theorem leaves_typeName {t : Token} {ahead : List Token} (split : r.tokens = t :: ahead)
    (named : t.kind ∈ Kind.types) : r.typeName.Leaves (· = ahead) := by
  obtain ⟨tokens, shorter⟩ := r
  obtain rfl : tokens = t :: ahead := split
  have known : ∀ k ∈ Kind.types, k.typeName?.isSome = true := by decide
  obtain ⟨type, found⟩ := Option.isSome_iff_exists.mp (known _ named)
  exact ⟨type, ⟨ahead, length_lt_of_cons shorter⟩, by simp only [Rest.typeName, found], rfl⟩

theorem skipSemicolon_of_ending {ending : List Token} (split : r.tokens = ending ++ rest)
    (ends : ending.map Token.kind ∈ endings) (next : Failure.nextKind rest ≠ .semicolon) :
    r.skipSemicolon.tokens = rest := by
  obtain ⟨tokens, shorter⟩ := r
  obtain rfl : tokens = ending ++ rest := split
  rcases List.mem_cons.mp ends with bare | marked
  · obtain rfl : ending = [] := List.map_eq_nil_iff.mp bare
    cases rest with
    | nil => rfl
    | cons t ahead =>
      have other : t.kind ≠ .semicolon := next
      simp only [List.nil_append, Rest.skipSemicolon, if_neg other]
  · obtain ⟨t, rfl, same⟩ := List.map_eq_singleton_iff.mp (List.mem_singleton.mp marked)
    simp only [List.singleton_append, Rest.skipSemicolon, if_pos same]

theorem readNames_complete {words : List Token} {c : Token} (ahead : List Token)
    (separated : Separated .comma (words.map Token.kind)) (closes : c.kind = .rightParen) :
    ∃ names, readNames (words ++ c :: ahead) = .ok (names, ahead) := by
  generalize kinds : words.map Token.kind = ks at separated
  induction separated generalizing words with
  | word =>
    obtain ⟨t, rfl, isName⟩ := List.map_eq_singleton_iff.mp kinds
    exact ⟨[t.literal], by simp [readNames, isName, closes]⟩
  | more separated ih =>
    obtain ⟨t, words₁, rfl, isName, kinds₁⟩ := List.map_eq_cons_iff.mp kinds
    obtain ⟨s, words₂, rfl, isComma, kinds₂⟩ := List.map_eq_cons_iff.mp kinds₁
    obtain ⟨names, read⟩ := ih kinds₂
    exact ⟨t.literal :: names, by simp [readNames, isName, isComma, read]⟩

theorem leaves_parameters {words ahead : List Token} {c : Token} (split : r.tokens = words ++ c :: ahead)
    (parameters : words.map Token.kind = [] ∨ Separated .comma (words.map Token.kind)) (closes : c.kind = .rightParen) :
    r.parameters.Leaves (· = ahead) := by
  rw [Rest.parameters]
  rcases parameters with none | separated
  · obtain rfl : words = [] := List.map_eq_nil_iff.mp none
    have next : Failure.nextKind r.tokens = .rightParen := by
      rw [split]
      exact closes
    rw [if_pos next]
    refine (leaves_expect split closes).bind ?_
    rintro _ r' left
    exact ⟨_, _, rfl, left⟩
  · have next : Failure.nextKind r.tokens ≠ .rightParen := by
      rw [split]
      cases words with
      | nil => cases separated
      | cons t words =>
        show t.kind ≠ .rightParen
        rw [head_of_separated separated]
        decide
    rw [if_neg next]
    obtain ⟨names, read⟩ := readNames_complete ahead separated closes
    rw [← split] at read
    split
    · next f failed =>
      rw [read] at failed
      cases failed
    · next names' rest' found =>
      rw [read] at found
      cases found
      exact ⟨_, _, rfl, rfl⟩

theorem stops_of_ending {ending : List Token} (ends : ending.map Token.kind ∈ endings) (fresh : Fresh rest)
    (stays : ending = [] → (Failure.nextKind rest).goesOn = false) : Stops (ending ++ rest) := by
  rcases List.mem_cons.mp ends with bare | marked
  · obtain rfl : ending = [] := List.map_eq_nil_iff.mp bare
    exact stops_of_fresh fresh (stays rfl)
  · obtain ⟨t, rfl, same⟩ := List.map_eq_singleton_iff.mp (List.mem_singleton.mp marked)
    exact stops_of_kind same rfl (by decide) rest

/-- A value to the end of the statement. -/
theorem leaves_value {e ending : List Token} (f : Expr → α) (split : r.tokens = e ++ (ending ++ rest))
    (derives : Derives .expression (e.map Token.kind)) (ends : ending.map Token.kind ∈ endings) (fresh : Fresh rest)
    (stays : ending = [] → (Failure.nextKind rest).goesOn = false) :
    Reading.Leaves (show Reading α whole from do
      let (value, r) ← r.expr
      pure (f value, r.skipSemicolon)) (· = rest) := by
  refine (leaves_expr split derives (stops_of_ending ends fresh stays)).bind ?_
  intro value r left
  exact ⟨_, _, rfl, skipSemicolon_of_ending left ends (fresh.ne rfl (by decide))⟩

theorem leaves_condition {front : List Token} {c : List Kind} (split : r.tokens = front ++ rest)
    (condition : Derives .expression c)
    (kinds : front.map Token.kind = .leftParen :: (c ++ [.rightParen, .leftBrace])) : r.condition.Leaves (· = rest) := by
  simp only [List.map_eq_cons_iff, List.map_eq_append_iff, List.map_eq_nil_iff] at kinds
  obtain ⟨o, _, rfl, opens, e, _, rfl, rfl, p, _, rfl, closes, q, _, rfl, brace, rfl⟩ := kinds
  simp only [List.cons_append, List.append_assoc, List.nil_append] at split
  rw [Rest.condition]
  refine (leaves_expect split opens).bind ?_
  intro _ r left
  refine (leaves_expr left condition (stops_of_kind closes rfl (by decide) _)).bind ?_
  intro _ r left
  refine (leaves_expect left closes).bind ?_
  intro _ r left
  refine (leaves_expect left brace).bind ?_
  intro _ r left
  exact ⟨_, _, rfl, left⟩

theorem leaves_signature {front : List Token} {names : List Kind} (split : r.tokens = front ++ rest)
    (parameters : names = [] ∨ Separated .comma names)
    (kinds : front.map Token.kind = .identifier :: .leftParen :: (names ++ [.rightParen, .leftBrace])) :
    r.signature.Leaves (· = rest) := by
  simp only [List.map_eq_cons_iff, List.map_eq_append_iff, List.map_eq_nil_iff] at kinds
  obtain ⟨n, _, rfl, isName, o, _, rfl, opens, words, _, rfl, rfl, p, _, rfl, closes, q, _, rfl, brace, rfl⟩ := kinds
  simp only [List.cons_append, List.append_assoc, List.nil_append] at split
  rw [Rest.signature]
  refine (leaves_expect split isName).bind ?_
  intro _ r left
  refine (leaves_expect left opens).bind ?_
  intro _ r left
  refine (leaves_parameters left parameters closes).bind ?_
  intro _ r left
  refine (leaves_expect left brace).bind ?_
  intro _ r left
  exact ⟨_, _, rfl, left⟩

/-! ## Statements without a body -/

theorem leaves_declared {position : Position} {a b c d : Token} (split : r.tokens = a :: b :: c :: d :: rest)
    (isName : a.kind = .identifier) (isColon : b.kind = .colon) (named : c.kind ∈ Kind.types)
    (ends : d.kind = .semicolon) (fresh : Fresh rest) : (r.declaration position).Leaves (· = rest) := by
  rw [Rest.declaration]
  refine (leaves_expect split isName).bind ?_
  intro name r left
  refine (leaves_expect left isColon).bind ?_
  intro _ r left
  refine (leaves_typeName left named).bind ?_
  intro type r left
  have next : Failure.nextKind r.tokens = .semicolon := by
    rw [left]
    exact ends
  have marked : [d].map Token.kind ∈ endings := by
    rw [List.map_singleton, ends]
    decide
  simp only [if_pos next]
  exact ⟨_, _, rfl, skipSemicolon_of_ending (show r.tokens = [d] ++ rest from left) marked (fresh.ne rfl (by decide))⟩

section

variable {e ending : List Token} (derives : Derives .expression (e.map Token.kind))
  (ends : ending.map Token.kind ∈ endings) (fresh : Fresh rest)
  (stays : ending = [] → (Failure.nextKind rest).goesOn = false)

include derives ends fresh stays

theorem leaves_initialised {position : Position} {a b c d : Token}
    (split : r.tokens = a :: b :: c :: d :: (e ++ (ending ++ rest))) (isName : a.kind = .identifier)
    (isColon : b.kind = .colon) (named : c.kind ∈ Kind.types) (equals : d.kind = .equal) :
    (r.declaration position).Leaves (· = rest) := by
  rw [Rest.declaration]
  refine (leaves_expect split isName).bind ?_
  intro name r left
  refine (leaves_expect left isColon).bind ?_
  intro _ r left
  refine (leaves_typeName left named).bind ?_
  intro type r left
  have next : Failure.nextKind r.tokens ≠ .semicolon := by
    rw [left]
    show d.kind ≠ .semicolon
    rw [equals]
    decide
  simp only [if_neg next]
  refine (leaves_expect left equals).bind ?_
  intro _ r left
  exact leaves_value (fun value => Stmt.declare position name.literal type (some value)) left derives ends fresh stays

theorem leaves_assignment {name a : Token} (split : r.tokens = a :: (e ++ (ending ++ rest)))
    (equals : a.kind = .equal) : (r.assignment name).Leaves (· = rest) := by
  rw [Rest.assignment]
  refine (leaves_expect split equals).bind ?_
  intro _ r left
  exact leaves_value _ left derives ends fresh stays

theorem leaves_returned {position : Position} (split : r.tokens = e ++ (ending ++ rest)) :
    (r.returned position).Leaves (· = rest) := by
  rw [Rest.returned]
  exact leaves_value _ split derives ends fresh stays

end

end

/-- An attempt succeeds without a failure and leaves such tokens. -/
def Attempt.Leaves (a : Attempt α whole) (P : List Token → Prop) : Prop :=
  a.nested = [] ∧ a.outcome.Leaves P

theorem Attempt.Leaves.eq {a : Attempt α whole} (leaves : a.Leaves P) :
    ∃ x r, a = ⟨[], .ok (x, r)⟩ ∧ P r.tokens := by
  obtain ⟨nested, outcome⟩ := a
  obtain ⟨rfl, x, r, rfl, left⟩ := leaves
  exact ⟨x, r, rfl, left⟩

theorem leaves_inside {f : α → β} {r : Rest whole} {a : Attempt α r.tokens} (leaves : a.Leaves P) :
    (Attempt.inside [] f r a).Leaves P := by
  obtain ⟨nested, outcome⟩ := a
  obtain ⟨rfl, x, inner, rfl, left⟩ := leaves
  exact ⟨rfl, f x, r.within inner, rfl, left⟩

end

/-- A statement that ends with an expression, and could not go on with what is behind it. -/
theorem stays_of_parted (front : List Kind) {e : List Kind} {rest : List Token} (derives : Derives .expression e)
    (parted : Parted (front ++ e) (rest.map Token.kind)) : (Failure.nextKind rest).goesOn = false := by
  rcases parted with sealed | apart
  · obtain ⟨k, more, rfl, -⟩ := opens_of_expression derives
    have last := List.getLast?_eq_some_getLast (List.cons_ne_nil k more)
    have sealing := sealed ((k :: more).getLast (by simp)) (by
      rw [List.getLast?_append_of_ne_nil front (List.cons_ne_nil k more)]
      exact last)
    have inside := admits_of_derives derives _ (List.getLast_mem (List.cons_ne_nil k more))
    generalize (k :: more).getLast _ = l at sealing inside
    cases l <;> first | exact absurd sealing (by decide) | exact absurd inside (by decide)
  · cases rest with
    | nil => rfl
    | cons t ahead => exact apart t.kind rfl

/-! ## Statements and bodies -/

/-- What begins like an expression is read as one, unless it is a name that is assigned to. -/
theorem readStatement_of_opens {t : Token} {ahead : List Token} (opens : t.kind.opensExpression = true)
    (next : t.kind = .identifier → Failure.nextKind ahead ≠ .equal) :
    readStatement t ahead = ⟨[], readEvaluation t ahead⟩ := by
  cases same : t.kind with
  | identifier => simp only [readStatement, same, if_neg (next same)]
  | number | string | trueWord | falseWord | leftParen | bang | minus => simp only [readStatement, same]
  | _ =>
    rw [same] at opens
    cases opens

/-- No name is assigned to in an expression. -/
theorem next_ne_equal {t : Token} {more ending rest : List Token}
    (derives : Derives .expression ((t :: more).map Token.kind)) (ends : ending.map Token.kind ∈ endings)
    (fresh : Fresh rest) : Failure.nextKind (more ++ (ending ++ rest)) ≠ .equal := by
  cases more with
  | nil =>
    rcases List.mem_cons.mp ends with bare | marked
    · obtain rfl : ending = [] := List.map_eq_nil_iff.mp bare
      exact fresh.ne rfl (by decide)
    · obtain ⟨u, rfl, same⟩ := List.map_eq_singleton_iff.mp (List.mem_singleton.mp marked)
      show u.kind ≠ .equal
      rw [same]
      decide
  | cons u more =>
    show u.kind ≠ .equal
    have inside := admits_of_derives derives u.kind (by simp)
    rintro equals
    rw [equals] at inside
    cases inside

theorem leaves_evaluation {t : Token} {more ending rest : List Token}
    (derives : Derives .expression ((t :: more).map Token.kind)) (ends : ending.map Token.kind ∈ endings)
    (fresh : Fresh rest) (stays : ending = [] → (Failure.nextKind rest).goesOn = false) :
    (readEvaluation t (more ++ (ending ++ rest))).Leaves (· = rest) := by
  rw [readEvaluation]
  refine (readExpr_complete derives (stops_of_ending ends fresh stays)).bind ?_
  intro value r left
  exact ⟨_, _, rfl, skipSemicolon_of_ending left ends (fresh.ne rfl (by decide))⟩

/-- The tokens of a statement that ends with a block: those up to its opening brace, and the rest. -/
theorem tokens_of_block {front b : List Kind} {t : Token} {used : List Token}
    (kinds : (t :: used).map Token.kind = front ++ b) (block : Derives .block b) : ∃ opening body s,
      used = opening ++ body ∧ (t :: opening).map Token.kind = front ++ [.leftBrace] ∧ Derives .script s ∧
        body.map Token.kind = s ++ [.rightBrace] := by
  cases block with
  | @braces s script =>
    rw [List.append_assoc, ← List.append_assoc] at kinds
    obtain ⟨opening, body, split, opens, closes⟩ := List.map_eq_append_iff.mp kinds
    cases opening with
    | nil => simp at opens
    | cons u opening =>
      rw [List.cons_append] at split
      obtain ⟨rfl, rfl⟩ := List.cons_eq_cons.mp split
      exact ⟨opening, body, s, rfl, opens, script, closes⟩

section

variable {n : Nat}

/-- Bodies that are not longer than `n`, with their closing brace, are read to it. -/
def Bodies (n : Nat) : Prop :=
  ∀ {body : List Token} {s : List Kind} (rest : List Token), body.length ≤ n → Derives .script s →
    body.map Token.kind = s ++ [.rightBrace] → (readBody (body ++ rest)).Leaves (· = rest)

section

variable {t : Token} {opening body rest : List Token} {s : List Kind}

/-- A statement that is a header and one body. -/
theorem complete_single (bodies : Bodies n) {ks : List Kind} (header : Header ks)
    (opens : (t :: opening).map Token.kind = ks ++ [.leftBrace]) (script : Derives .script s)
    (closes : body.map Token.kind = s ++ [.rightBrace]) (short : body.length ≤ n)
    (noElse : Failure.nextKind rest ≠ .elseWord) : (readStatement t (opening ++ (body ++ rest))).Leaves (· = rest) := by
  have inner := bodies rest short script closes
  cases header with
  | block =>
    obtain ⟨begins, none⟩ := List.cons_eq_cons.mp opens
    obtain rfl : opening = [] := List.map_eq_nil_iff.mp none
    simp only [readStatement, begins]
    exact leaves_inside inner
  | @branch c condition =>
    obtain ⟨begins, kinds⟩ := List.cons_eq_cons.mp opens
    obtain ⟨⟨value, position⟩, ⟨tokens, less⟩, read, left⟩ :=
      leaves_condition (r := .behind t _) rfl condition (by simpa using kinds)
    obtain rfl : tokens = body ++ rest := left
    obtain ⟨statements, ⟨tokens, less'⟩, found, left⟩ := inner.eq
    obtain rfl : tokens = rest := left
    simp only [readStatement, begins, read, found, if_neg noElse]
    exact ⟨rfl, _, _, rfl, rfl⟩
  | @loop c condition =>
    obtain ⟨begins, kinds⟩ := List.cons_eq_cons.mp opens
    obtain ⟨⟨value, position⟩, ⟨tokens, less⟩, read, left⟩ :=
      leaves_condition (r := .behind t _) rfl condition (by simpa using kinds)
    obtain rfl : tokens = body ++ rest := left
    simp only [readStatement, begins, read]
    exact leaves_inside inner
  | @define names parameters =>
    obtain ⟨begins, kinds⟩ := List.cons_eq_cons.mp opens
    obtain ⟨⟨name, parameters', position⟩, ⟨tokens, less⟩, read, left⟩ :=
      leaves_signature (r := .behind t _) rfl parameters (by simpa using kinds)
    obtain rfl : tokens = body ++ rest := left
    simp only [readStatement, begins, read]
    exact leaves_inside inner

theorem complete_choice (bodies : Bodies n) {c s' : List Kind} {between body' : List Token} (begins : t.kind = .ifWord)
    (condition : Derives .expression c)
    (opens : opening.map Token.kind = .leftParen :: (c ++ [.rightParen, .leftBrace])) (script : Derives .script s)
    (closes : body.map Token.kind = s ++ [.rightBrace]) (short : body.length ≤ n)
    (otherwise : between.map Token.kind = [.elseWord, .leftBrace]) (script' : Derives .script s')
    (closes' : body'.map Token.kind = s' ++ [.rightBrace]) (short' : body'.length ≤ n) :
    (readStatement t (opening ++ (body ++ (between ++ (body' ++ rest))))).Leaves (· = rest) := by
  obtain ⟨x, _, rfl, isElse, kinds⟩ := List.map_eq_cons_iff.mp otherwise
  obtain ⟨q, rfl, brace⟩ := List.map_eq_singleton_iff.mp kinds
  obtain ⟨⟨value, position⟩, ⟨tokens, less⟩, read, left⟩ :=
    leaves_condition (r := .behind t _) rfl condition opens
  obtain rfl : tokens = body ++ ([x, q] ++ (body' ++ rest)) := left
  obtain ⟨statements, ⟨tokens, less'⟩, found, left⟩ := (bodies ([x, q] ++ (body' ++ rest)) short script closes).eq
  obtain rfl : tokens = [x, q] ++ (body' ++ rest) := left
  have next : Failure.nextKind ([x, q] ++ (body' ++ rest)) = .elseWord := isElse
  have front : List.drop 1 ([x, q] ++ (body' ++ rest)) = q :: (body' ++ rest) := rfl
  obtain ⟨_, ⟨tokens, less''⟩, expected, left⟩ := leaves_expect (r := ⟨_, length_drop_lt less' less⟩) front brace
  obtain rfl : tokens = body' ++ rest := left
  simp only [readStatement, begins, read, found, if_pos next, expected]
  exact leaves_inside (bodies rest short' script' closes')

end

theorem complete_statement (bodies : Bodies n) {t : Token} {used rest : List Token} (short : used.length ≤ n)
    (derives : Derives .statement ((t :: used).map Token.kind)) (fresh : Fresh rest)
    (parted : Parted ((t :: used).map Token.kind) (rest.map Token.kind)) :
    (readStatement t (used ++ rest)).Leaves (· = rest) := by
  generalize kinds : (t :: used).map Token.kind = ks at derives parted
  have noElse : Failure.nextKind rest ≠ .elseWord := fresh.ne rfl (by decide)
  have single {front b : List Kind} (header : Header front) (block : Derives .block b)
      (kinds : (t :: used).map Token.kind = front ++ b) : (readStatement t (used ++ rest)).Leaves (· = rest) := by
    obtain ⟨opening, body, s, rfl, opens, script, closes⟩ := tokens_of_block kinds block
    rw [List.length_append] at short
    rw [List.append_assoc]
    exact complete_single bodies header opens script closes (by omega) noElse
  cases derives with
  | @declare type named =>
    simp only [List.map_cons, List.cons.injEq, List.map_eq_cons_iff, List.map_eq_nil_iff] at kinds
    obtain ⟨begins, a, _, rfl, isName, b, _, rfl, isColon, c, _, rfl, rfl, d, _, rfl, ends, rfl⟩ := kinds
    simp only [readStatement, begins]
    exact ⟨rfl, leaves_declared rfl isName isColon named ends fresh⟩
  | @initialise type e ending named value ends =>
    simp only [List.map_cons, List.cons_append, List.nil_append, List.cons.injEq, List.map_eq_cons_iff,
      List.map_eq_append_iff] at kinds
    obtain ⟨begins, a, _, rfl, isName, b, _, rfl, isColon, c, _, rfl, rfl, d, _, rfl, equals, es, fs, rfl, rfl, rfl⟩ :=
      kinds
    have stays : fs = [] → (Failure.nextKind rest).goesOn = false := by
      rintro rfl
      exact stays_of_parted [.letWord, .identifier, .colon, c.kind, .equal] value (by simpa using parted)
    simp only [readStatement, begins]
    exact ⟨rfl, leaves_initialised value ends fresh stays (by simp [Rest.behind]) isName isColon named equals⟩
  | @assign e ending value ends =>
    simp only [List.map_cons, List.cons_append, List.nil_append, List.cons.injEq, List.map_eq_cons_iff,
      List.map_eq_append_iff] at kinds
    obtain ⟨begins, a, _, rfl, equals, es, fs, rfl, rfl, rfl⟩ := kinds
    have stays : fs = [] → (Failure.nextKind rest).goesOn = false := by
      rintro rfl
      exact stays_of_parted [.identifier, .equal] value (by simpa using parted)
    have next : Failure.nextKind (a :: (es ++ fs) ++ rest) = .equal := equals
    simp only [readStatement, begins, if_pos next]
    exact ⟨rfl, leaves_assignment value ends fresh stays (by simp [Rest.behind]) equals⟩
  | @giveBack e ending value ends =>
    simp only [List.map_cons, List.cons_append, List.nil_append, List.cons.injEq, List.map_eq_append_iff] at kinds
    obtain ⟨begins, es, fs, rfl, rfl, rfl⟩ := kinds
    have stays : fs = [] → (Failure.nextKind rest).goesOn = false := by
      rintro rfl
      exact stays_of_parted [.returnWord] value (by simpa using parted)
    simp only [readStatement, begins]
    exact ⟨rfl, leaves_returned value ends fresh stays (List.append_assoc es fs rest)⟩
  | @evaluate e ending value ends =>
    obtain ⟨es, fs, split, rfl, rfl⟩ := List.map_eq_append_iff.mp kinds
    have stays : fs = [] → (Failure.nextKind rest).goesOn = false := by
      rintro rfl
      exact stays_of_parted [] value (by simpa using parted)
    obtain ⟨k, more, begins, opens⟩ := opens_of_expression value
    obtain ⟨u, es, rfl, rfl, rfl⟩ := List.map_eq_cons_iff.mp begins
    rw [List.cons_append] at split
    obtain ⟨rfl, rfl⟩ := List.cons_eq_cons.mp split
    rw [List.append_assoc, readStatement_of_opens opens fun _ => next_ne_equal value ends fresh]
    exact ⟨rfl, leaves_evaluation value ends fresh stays⟩
  | inner block => exact single .block block kinds
  | branch condition block => exact single (.branch condition) block kinds
  | loop condition block => exact single (.loop condition) block kinds
  | define parameters block => exact single (.define parameters) block kinds
  | @choice c b b' condition block alternative =>
    obtain ⟨_, body', s', rfl, opens', script', closes'⟩ := tokens_of_block kinds alternative
    rw [List.append_assoc] at opens'
    obtain ⟨begins, kinds'⟩ := List.cons_eq_cons.mp opens'
    obtain ⟨first, between, rfl, consequence, otherwise⟩ := List.map_eq_append_iff.mp kinds'
    have kinds'' : (t :: first).map Token.kind = [.ifWord, .leftParen] ++ c ++ [.rightParen] ++ b := by
      rw [List.map_cons, begins, consequence]
      rfl
    obtain ⟨opening, body, s, rfl, opens, script, closes⟩ := tokens_of_block kinds'' block
    obtain ⟨-, front⟩ := List.cons_eq_cons.mp opens
    simp only [List.length_append] at short
    rw [List.append_assoc, List.append_assoc, List.append_assoc]
    exact complete_choice bodies begins condition (by simpa using front) script closes (by omega) otherwise script'
      closes' (by omega)

theorem fresh_of_script {used tail : List Token} (derives : Derives .script (used.map Token.kind))
    (fresh : Fresh tail) : Fresh (used ++ tail) := by
  cases used with
  | nil => exact fresh
  | cons t used => exact .inl (opens_of_script derives)

theorem parted_append {s : List Kind} {used tail : List Token} (parted : Parted s (used.map Token.kind))
    (stays : (Failure.nextKind tail).goesOn = false) : Parted s ((used ++ tail).map Token.kind) := by
  rcases parted with sealed | apart
  · exact .inl sealed
  · refine .inr ?_
    cases used with
    | nil =>
      cases tail with
      | nil => simp
      | cons t tail =>
        have same : t.kind.goesOn = false := stays
        simpa using same
    | cons t used => exact apart

/-- The first statement of a script is read, and what is left of it is a script. -/
theorem complete_first (bodies : Bodies n) {used tail : List Token} (short : used.length ≤ n + 1)
    (derives : Derives .script (used.map Token.kind)) (fresh : Fresh tail)
    (stays : (Failure.nextKind tail).goesOn = false) :
    used = [] ∨ ∃ t front back s, used = t :: (front ++ back) ∧ t.kind.opensStatement = true ∧
      Derives .script (back.map Token.kind) ∧
      ∃ rest less, rest = back ++ tail ∧ readStatement t (front ++ rest) = ⟨[], .ok (s, ⟨rest, less⟩)⟩ := by
  rcases cut_of_script derives with none | ⟨s, rest, kinds, statement, script, parted⟩
  · exact .inl (List.map_eq_nil_iff.mp none)
  · obtain ⟨all, back, rfl, rfl, rfl⟩ := List.map_eq_append_iff.mp kinds
    obtain ⟨k, more, begins, opens⟩ := opens_of_statement statement
    obtain ⟨t, front, rfl, rfl, rfl⟩ := List.map_eq_cons_iff.mp begins
    simp only [List.cons_append, List.length_cons, List.length_append] at short
    obtain ⟨s, ⟨tokens, less⟩, read, left⟩ := (complete_statement bodies (by omega) statement
      (fresh_of_script script fresh) (parted_append parted stays)).eq
    obtain rfl : tokens = back ++ tail := left
    exact .inr ⟨t, front, back, s, rfl, opens, script, _, less, rfl, read⟩

end

theorem complete_bodies (n : Nat) : Bodies n := by
  induction n with
  | zero =>
    intro body s rest short derives kinds
    obtain rfl : body = [] := List.length_eq_zero_iff.mp (Nat.le_zero.mp short)
    simp at kinds
  | succ n bodies =>
    intro body s rest short derives kinds
    obtain ⟨used, last, rfl, rfl, ends⟩ := List.map_eq_append_iff.mp kinds
    obtain ⟨c, rfl, closes⟩ := List.map_eq_singleton_iff.mp ends
    rw [List.length_append, List.length_singleton] at short
    rw [List.append_assoc, List.singleton_append]
    have fresh : Fresh (c :: rest) := by
      refine .inr ?_
      show c.kind ∈ _
      rw [closes]
      decide
    have stays : (Failure.nextKind (c :: rest)).goesOn = false := by
      show c.kind.goesOn = false
      rw [closes]
      rfl
    rcases complete_first bodies (by omega) derives fresh stays with
      rfl | ⟨t, front, back, s, rfl, opens, script, _, less, rfl, read⟩
    · rw [List.nil_append, readBody, if_pos closes]
      exact ⟨rfl, _, _, rfl, rfl⟩
    · have notClosed : t.kind ≠ .rightBrace := by
        rintro same
        rw [same] at opens
        cases opens
      have later : (back ++ [c]).map Token.kind = back.map Token.kind ++ [.rightBrace] := by simp [closes]
      have inner := bodies rest (by simp at short ⊢; omega) script later
      rw [List.append_assoc] at inner
      rw [List.cons_append, List.append_assoc, readBody, if_neg notClosed, read]
      exact leaves_inside inner

theorem complete_script {n : Nat} {ts : List Token} (short : ts.length ≤ n)
    (derives : Derives .script (ts.map Token.kind)) : (readScript ts).2 = [] := by
  induction n generalizing ts with
  | zero =>
    obtain rfl : ts = [] := List.length_eq_zero_iff.mp (Nat.le_zero.mp short)
    rw [readScript]
  | succ n ih =>
    have fresh : Fresh [] := .inr (by decide)
    rcases complete_first (complete_bodies n) short derives fresh rfl with
      rfl | ⟨t, front, back, s, rfl, opens, script, left, less, same, read⟩
    · rw [readScript]
    · rw [List.append_nil] at same
      subst same
      simp only [List.length_cons, List.length_append] at short
      have rest := ih (by omega) script
      rw [readScript, read]
      simpa using rest

end Stepwise
