import Stepwise.Proofs.MovedScripts

/-!
Reading tokens that end with a semicolon, and reading them with more tokens behind. No expression goes past
a semicolon (`extends_readExpr`), and a statement passes one only at its end, so whatever comes behind the
last one, what is read up to there is the same, and so is the failure if there is one (`Extends`).
-/
namespace Stepwise

/-! ## Tokens that end with a semicolon -/

/-- Tokens of known kinds, the last of them a semicolon. -/
structure Sealed (W : Kind → Prop) (ts : List Token) : Prop where
  last : ∃ t ∈ ts.getLast?, t.kind = .semicolon
  known : ∀ t ∈ ts, W t.kind

/-- What may be left behind a statement: nothing, if its semicolon was the last. -/
def Spent (W : Kind → Prop) (ts : List Token) : Prop :=
  Sealed W ts ∨ ts = []

/-- A failure with more tokens behind those ahead of the reader. -/
def Failure.extend (more : List Token) (x : Failure) : Failure :=
  ⟨x.complaint, x.entered, x.ahead ++ more⟩

/-- A failure in front of the last semicolon, or on it. -/
structure Failure.Halted (W : Kind → Prop) (x : Failure) : Prop where
  ahead : Sealed W x.ahead ∨ x.ahead = [] ∧ ∃ t ∈ x.entered, t.kind = .semicolon
  known : ∀ t ∈ x.entered, W t.kind

section

variable {W : Kind → Prop} {ts : List Token}

theorem exists_cons_of_sealed (sealed : Sealed W ts) : ∃ t ahead, ts = t :: ahead ∧ W t.kind := by
  cases ts with
  | nil =>
    obtain ⟨_, nothing, -⟩ := sealed.last
    cases nothing
  | cons t ahead => exact ⟨t, ahead, rfl, sealed.known t List.mem_cons_self⟩

theorem Sealed.tail {t : Token} {ahead : List Token} (sealed : Sealed W (t :: ahead)) :
    Sealed W ahead ∨ ahead = [] ∧ t.kind = .semicolon := by
  cases ahead with
  | nil =>
    obtain ⟨u, last, same⟩ := sealed.last
    cases last
    exact .inr ⟨rfl, same⟩
  | cons u ahead =>
    refine .inl ⟨?_, fun v member => sealed.known v (List.mem_cons_of_mem t member)⟩
    rw [← List.getLast?_cons_cons]
    exact sealed.last

theorem Sealed.behind {t : Token} {ahead : List Token} (sealed : Sealed W (t :: ahead)) {k : Kind} (same : t.kind = k)
    (other : k ≠ .semicolon) : Sealed W ahead := by
  rcases sealed.tail with later | ⟨-, semicolon⟩
  · exact later
  · exact absurd (same.symm.trans semicolon) other

theorem nextKind_extend (sealed : Sealed W ts) (more : List Token) :
    Failure.nextKind (ts ++ more) = Failure.nextKind ts := by
  obtain ⟨t, ahead, rfl, -⟩ := exists_cons_of_sealed sealed
  rfl

end

/-! ## Reading with more tokens behind -/

section

variable {α β : Type} {W : Kind → Prop} {more : List Token}

/-- The outcomes of reading tokens, and of reading them with more tokens behind: the same thing with more
    left, or the same failure with more ahead. -/
inductive Extends (W : Kind → Prop) (more : List Token) (good : α → Prop) (left : List Token → Prop) :
    Except Failure (α × List Token) → Except Failure (α × List Token) → Prop where
  | ok {a : α} {ts ts' : List Token} (fits : good a) (rest : left ts) (longer : ts' = ts ++ more) :
      Extends W more good left (.ok (a, ts)) (.ok (a, ts'))
  | error {x : Failure} (halted : x.Halted W) : Extends W more good left (.error x) (.error (x.extend more))

theorem extends_unexpected {good : α → Prop} {left : List Token → Prop} {ts : List Token} (what : String)
    (sealed : Sealed W ts) :
    Extends W more good left (.error (.unexpected what ts)) (.error (.unexpected what (ts ++ more))) := by
  have longer : (Failure.unexpected what ts).extend more = .unexpected what (ts ++ more) := by
    simp only [Failure.unexpected, Failure.extend, nextKind_extend sealed]
  rw [← longer]
  exact .error ⟨.inl sealed, by simp [Failure.unexpected]⟩

theorem extends_noExpression {good : α → Prop} {left : List Token → Prop} {ts : List Token} (sealed : Sealed W ts) :
    Extends W more good left (.error (.noExpression ts)) (.error (.noExpression (ts ++ more))) := by
  obtain ⟨t, ahead, rfl, known⟩ := exists_cons_of_sealed sealed
  refine .error ⟨?_, by rintro u ⟨⟩; exact known⟩
  rcases sealed.tail with later | ⟨rfl, semicolon⟩
  · exact .inl later
  · exact .inr ⟨rfl, t, rfl, semicolon⟩

variable {whole whole' : List Token} {good : α → Prop} {good' : β → Prop} {left left' : List Token → Prop}

/-- Reading tokens, and reading them with more tokens behind. -/
def Reading.Extends (W : Kind → Prop) (more : List Token) (good : α → Prop) (left : List Token → Prop)
    (x : Reading α whole) (x' : Reading α whole') : Prop :=
  Stepwise.Extends W more good left x.plain x'.plain

theorem Reading.Extends.ok {a : α} {r : Rest whole} {r' : Rest whole'} (fits : good a) (rest : left r.tokens)
    (longer : r'.tokens = r.tokens ++ more) :
    Reading.Extends W more good left (.ok (a, r) : Reading α whole) (.ok (a, r') : Reading α whole') :=
  Stepwise.Extends.ok fits rest longer

theorem Reading.Extends.of_ok {a : α} {r : Rest whole} {x' : Reading α whole'}
    (extends_ : Reading.Extends W more good left (.ok (a, r) : Reading α whole) x') :
    ∃ r', x' = .ok (a, r') ∧ good a ∧ left r.tokens ∧ r'.tokens = r.tokens ++ more := by
  unfold Reading.Extends at extends_
  cases x' with
  | error s => cases extends_
  | ok found =>
    obtain ⟨a', r'⟩ := found
    cases extends_ with
    | ok fits rest longer => exact ⟨r', rfl, fits, rest, longer⟩

theorem Reading.Extends.of_error {s : Stuck whole} {x' : Reading α whole'}
    (extends_ : Reading.Extends W more good left (.error s : Reading α whole) x') :
    ∃ s', x' = .error s' ∧ s'.failure = s.failure.extend more ∧ s.failure.Halted W := by
  unfold Reading.Extends at extends_
  cases x' with
  | ok found => cases extends_
  | error s' =>
    obtain ⟨y, within⟩ := s'
    cases extends_ with
    | error halted => exact ⟨⟨_, within⟩, rfl, rfl, halted⟩

theorem extends_stuck {s : Stuck whole} {s' : Stuck whole'} (longer : s'.failure = s.failure.extend more)
    (halted : s.failure.Halted W) :
    Reading.Extends W more good left (.error s : Reading α whole) (.error s' : Reading α whole') := by
  show Stepwise.Extends W more good left (.error s.failure) (.error s'.failure)
  rw [longer]
  exact .error halted

theorem Reading.Extends.bind {x : Reading α whole} {x' : Reading α whole'} {k : α × Rest whole → Reading β whole}
    {k' : α × Rest whole' → Reading β whole'} (extends_ : x.Extends W more good left x')
    (next : ∀ a r r', good a → left r.tokens → r'.tokens = r.tokens ++ more →
      (k (a, r)).Extends W more good' left' (k' (a, r'))) :
    Reading.Extends (α := β) W more good' left' (x >>= k) (x' >>= k') := by
  cases x with
  | error s =>
    obtain ⟨s', rfl, longer, halted⟩ := extends_.of_error
    exact extends_stuck longer halted
  | ok found =>
    obtain ⟨a, r⟩ := found
    obtain ⟨r', rfl, fits, rest, longer⟩ := extends_.of_ok
    exact next a r r' fits rest longer

theorem Reading.Extends.inside {r : Rest whole} {r' : Rest whole'} {x : Reading α r.tokens} {x' : Reading α r'.tokens}
    (extends_ : x.Extends W more good left x') :
    (Reading.inside r x).Extends W more good left (Reading.inside r' x') := by
  unfold Reading.Extends
  rw [plain_inside, plain_inside]
  exact extends_

/-- What is left is less than there was. -/
theorem Reading.Extends.fewer {x : Reading α whole} {x' : Reading α whole'} (extends_ : x.Extends W more good left x') :
    x.Extends W more good (fun ts => left ts ∧ ts.length < whole.length) x' := by
  cases x with
  | error s =>
    obtain ⟨s', rfl, longer, halted⟩ := extends_.of_error
    exact extends_stuck longer halted
  | ok found =>
    obtain ⟨a, r⟩ := found
    obtain ⟨r', rfl, fits, rest, longer⟩ := extends_.of_ok
    exact .ok fits ⟨rest, r.shorter⟩ longer

end

/-! ## Single tokens and names -/

section

variable {W : Kind → Prop} {more : List Token} {whole whole' : List Token} {r : Rest whole} {r' : Rest whole'}

section

variable (sealed : Sealed W r.tokens) (longer : r'.tokens = r.tokens ++ more)

include sealed longer

theorem extends_expect {k : Kind} (other : k ≠ .semicolon) :
    (r.expect k).Extends W more (fun t => t.kind = k ∧ W k) (Sealed W) (r'.expect k) := by
  obtain ⟨tokens, shorter⟩ := r
  obtain ⟨tokens', shorter'⟩ := r'
  obtain ⟨t, ahead, rfl, known⟩ := exists_cons_of_sealed sealed
  obtain rfl : tokens' = t :: (ahead ++ more) := longer
  simp only [Rest.expect]
  by_cases same : t.kind = k
  · rw [if_pos same, if_pos same]
    exact .ok ⟨same, same ▸ known⟩ (sealed.behind same other) rfl
  · rw [if_neg same, if_neg same]
    exact extends_unexpected k.describe sealed

theorem extends_typeName : r.typeName.Extends W more (fun _ => True) (Sealed W) r'.typeName := by
  obtain ⟨tokens, shorter⟩ := r
  obtain ⟨tokens', shorter'⟩ := r'
  obtain ⟨t, ahead, rfl, known⟩ := exists_cons_of_sealed sealed
  obtain rfl : tokens' = t :: (ahead ++ more) := longer
  simp only [Rest.typeName]
  cases named : t.kind.typeName? with
  | none => exact extends_unexpected "TYPE" sealed
  | some type =>
    have other : t.kind ≠ .semicolon := fun same => by rw [same] at named; cases named
    exact .ok trivial (sealed.behind rfl other) rfl

/-- Nothing may be left behind the last semicolon. -/
theorem left_skipSemicolon :
    Spent W r.skipSemicolon.tokens ∧ r'.skipSemicolon.tokens = r.skipSemicolon.tokens ++ more := by
  obtain ⟨tokens, shorter⟩ := r
  obtain ⟨tokens', shorter'⟩ := r'
  obtain ⟨t, ahead, rfl, known⟩ := exists_cons_of_sealed sealed
  obtain rfl : tokens' = t :: (ahead ++ more) := longer
  simp only [Rest.skipSemicolon]
  by_cases same : t.kind = .semicolon
  · rw [if_pos same, if_pos same]
    exact ⟨sealed.tail.imp id And.left, rfl⟩
  · rw [if_neg same, if_neg same]
    exact ⟨.inl sealed, rfl⟩

theorem nextKind_longer : Failure.nextKind r'.tokens = Failure.nextKind r.tokens := by
  rw [longer, nextKind_extend sealed]

end

theorem extends_readPath {path : String} {ts : List Token} (sealed : Sealed W ts) (more : List Token) :
    Extends W more (fun _ => True) (Sealed W) (readPath path ts) (readPath path (ts ++ more)) := by
  fun_induction readPath path ts with
  | case1 =>
    obtain ⟨t, ahead, nothing, -⟩ := exists_cons_of_sealed sealed
    cases nothing
  | case2 path d isDot =>
    obtain ⟨t, ahead, nothing, -⟩ := exists_cons_of_sealed (sealed.behind isDot (by decide))
    cases nothing
  | case3 path d isDot t ahead isWord ih =>
    have later := (sealed.behind isDot (by decide)).behind isWord (by decide)
    simp only [List.cons_append, readPath, if_pos isDot, if_pos isWord]
    exact ih later
  | case4 path d isDot t ahead notWord =>
    simp only [List.cons_append, readPath, if_pos isDot, if_neg notWord]
    exact extends_unexpected _ (sealed.behind isDot (by decide))
  | case5 path d ahead notDot =>
    rw [List.cons_append, readPath.eq_def]
    simp only [if_neg notDot]
    exact .ok trivial sealed rfl

theorem extends_readNames {ts : List Token} (sealed : Sealed W ts) (more : List Token) :
    Extends W more (fun _ => True) (Sealed W) (readNames ts) (readNames (ts ++ more)) := by
  fun_induction readNames ts with
  | case1 =>
    obtain ⟨t, ahead, nothing, -⟩ := exists_cons_of_sealed sealed
    cases nothing
  | case2 t isName =>
    obtain ⟨t, ahead, nothing, -⟩ := exists_cons_of_sealed (sealed.behind isName (by decide))
    cases nothing
  | case3 t isName c ahead isComma x failed ih =>
    have later := ih ((sealed.behind isName (by decide)).behind isComma (by decide))
    simp only [List.cons_append, readNames, if_pos isName, if_pos isComma]
    rw [failed] at later
    generalize readNames (ahead ++ more) = result at later
    cases later with
    | error halted => exact .error halted
  | case4 t isName c ahead isComma names rest read ih =>
    have later := ih ((sealed.behind isName (by decide)).behind isComma (by decide))
    simp only [List.cons_append, readNames, if_pos isName, if_pos isComma]
    rw [read] at later
    generalize readNames (ahead ++ more) = result at later
    cases later with
    | ok fits rest longer => exact .ok trivial rest longer
  | case5 t isName c ahead notComma isParen =>
    simp only [List.cons_append, readNames, if_pos isName, if_neg notComma, if_pos isParen]
    exact .ok trivial ((sealed.behind isName (by decide)).behind isParen (by decide)) rfl
  | case6 t isName c ahead notComma notParen =>
    simp only [List.cons_append, readNames, if_pos isName, if_neg notComma, if_neg notParen]
    exact extends_unexpected _ (sealed.behind isName (by decide))
  | case7 t ahead notName =>
    rw [List.cons_append, readNames.eq_def]
    simp only [if_neg notName]
    exact extends_unexpected _ sealed

theorem extends_path (word : String) (sealed : Sealed W r.tokens) (longer : r'.tokens = r.tokens ++ more) :
    (r.path word).Extends W more (fun _ => True) (Sealed W) (r'.path word) := by
  unfold Reading.Extends
  rw [plain_path, plain_path, longer]
  exact extends_readPath sealed more

theorem extends_parameters (sealed : Sealed W r.tokens) (longer : r'.tokens = r.tokens ++ more) :
    r.parameters.Extends W more (fun _ => True) (Sealed W) r'.parameters := by
  rw [Rest.parameters, Rest.parameters]
  have next := nextKind_longer sealed longer
  by_cases closes : Failure.nextKind r.tokens = .rightParen
  · rw [if_pos closes, if_pos (next.trans closes)]
    refine (extends_expect sealed longer (by decide)).bind ?_
    intro _ r r' _ rest longer
    exact .ok trivial rest longer
  · rw [if_neg closes, if_neg (next ▸ closes)]
    have names := extends_readNames sealed more
    rw [← longer] at names
    unfold Reading.Extends
    split <;> next read => split <;> next read' => rw [read, read'] at names; exact names

end

/-! ## Expressions -/

/-- The readers of expressions with more tokens behind, as long as there are fewer than `n` tokens. -/
structure Extending (W : Kind → Prop) (more : List Token) (n : Nat) : Prop where
  expression : ∀ {ts : List Token} (minimum : Precedence), ts.length < n → Sealed W ts →
    (readExpr minimum ts).Extends W more (fun _ => True) (Sealed W) (readExpr minimum (ts ++ more))
  operators : ∀ {whole whole' : List Token} {r : Rest whole} {r' : Rest whole'} (minimum : Precedence) (left : Expr),
    r.tokens.length < n → Sealed W r.tokens → r'.tokens = r.tokens ++ more →
    (readOperators minimum left r).Extends W more (fun _ => True) (Sealed W) (readOperators minimum left r')
  arguments : ∀ {ts : List Token}, ts.length < n → Sealed W ts →
    (readArguments ts).Extends W more (fun _ => True) (Sealed W) (readArguments (ts ++ more))
  items : ∀ {ts : List Token}, ts.length < n → Sealed W ts →
    (readItems ts).Extends W more (fun _ => True) (Sealed W) (readItems (ts ++ more))

section

variable {W : Kind → Prop} {more : List Token} {n : Nat} {ts : List Token}

theorem extends_expression (extending : Extending W more n) (minimum : Precedence) (short : ts.length ≤ n)
    (sealed : Sealed W ts) :
    (readExpr minimum ts).Extends W more (fun _ => True) (Sealed W) (readExpr minimum (ts ++ more)) := by
  obtain ⟨t, ahead, rfl, known⟩ := exists_cons_of_sealed sealed
  rw [List.cons_append]
  by_cases isName : t.kind = .identifier
  · rw [readExpr_name isName, readExpr_name isName]
    refine (extends_path t.literal (sealed.behind isName (by decide)) rfl).bind ?_
    intro name r r' _ rest longer
    exact extending.operators minimum _ (Nat.lt_of_lt_of_le r.shorter short) rest longer
  by_cases opens : t.kind = .leftParen
  · rw [readExpr_group opens, readExpr_group opens]
    refine (extending.expression .lowest short (sealed.behind opens (by decide))).inside.bind ?_
    intro e r r' _ rest longer
    refine (extends_expect rest longer (by decide)).bind ?_
    intro _ r r' _ rest longer
    exact extending.operators minimum e (Nat.lt_of_lt_of_le r.shorter short) rest longer
  cases found : t.kind.unaryOp? with
  | some op =>
    have other : t.kind ≠ .semicolon := fun same => by rw [same] at found; cases found
    rw [readExpr_unary found, readExpr_unary found]
    refine (extending.expression .unary short (sealed.behind rfl other)).inside.bind ?_
    intro e r r' _ rest longer
    exact extending.operators minimum _ (Nat.lt_of_lt_of_le r.shorter short) rest longer
  | none =>
    cases literal : t.literal? with
    | some e =>
      have other : t.kind ≠ .semicolon := fun same => by rw [Token.literal?, same] at literal; cases literal
      rw [readExpr_literal literal, readExpr_literal literal]
      exact extending.operators minimum e short (sealed.behind rfl other) rfl
    | none =>
      rw [readExpr, if_neg isName, if_neg opens, found, literal, readExpr, if_neg isName, if_neg opens, found, literal]
      exact extends_noExpression sealed

theorem extends_operators (extending : Extending W more n) {whole whole' : List Token} {r : Rest whole}
    {r' : Rest whole'} (minimum : Precedence) (left : Expr) (short : r.tokens.length ≤ n) (sealed : Sealed W r.tokens)
    (longer : r'.tokens = r.tokens ++ more) :
    (readOperators minimum left r).Extends W more (fun _ => True) (Sealed W) (readOperators minimum left r') := by
  have next := nextKind_longer sealed longer
  by_cases stronger : minimum < (Failure.nextKind r.tokens).precedence
  swap
  · have weaker' : ¬ minimum < (Failure.nextKind r'.tokens).precedence := by rwa [next]
    rw [readOperators_stop left stronger, readOperators_stop left weaker']
    exact .ok trivial sealed longer
  obtain ⟨tokens, shorter⟩ := r
  obtain ⟨tokens', shorter'⟩ := r'
  obtain ⟨t, ahead, rfl, known⟩ := exists_cons_of_sealed sealed
  obtain rfl : tokens' = t :: (ahead ++ more) := longer
  have strong : minimum < t.kind.precedence := stronger
  have other : t.kind ≠ .semicolon := by
    intro same
    rw [same] at strong
    exact absurd strong (Nat.not_lt_zero _)
  have later := sealed.behind rfl other
  cases found : t.kind.binaryOp? with
  | some op =>
    rw [readOperators_binary left strong found, readOperators_binary left strong found]
    refine (extending.expression _ short later).fewer.inside.bind ?_
    rintro right r r' _ ⟨rest, fewer⟩ longer
    exact extending.operators minimum _ (Nat.lt_of_lt_of_le fewer (Nat.le_of_lt short)) rest longer
  | none =>
    rw [readOperators_call left strong found, readOperators_call left strong found]
    refine (extending.arguments short later).fewer.inside.bind ?_
    rintro arguments r r' _ ⟨rest, fewer⟩ longer
    exact extending.operators minimum _ (Nat.lt_of_lt_of_le fewer (Nat.le_of_lt short)) rest longer

theorem extends_items (extending : Extending W more n) (short : ts.length ≤ n) (sealed : Sealed W ts) :
    (readItems ts).Extends W more (fun _ => True) (Sealed W) (readItems (ts ++ more)) := by
  rw [readItems_eq, readItems_eq]
  refine (extends_expression extending .lowest short sealed).bind ?_
  intro e r r' _ rest longer
  have next := nextKind_longer rest longer
  by_cases comma : Failure.nextKind r.tokens = .comma
  · simp only [if_pos comma, if_pos (next.trans comma)]
    refine (extends_expect rest longer (by decide)).bind ?_
    intro _ r r' _ rest longer
    have items := extending.items (Nat.lt_of_lt_of_le r.shorter short) rest
    rw [← longer] at items
    refine items.inside.bind ?_
    intro es r r' _ rest longer
    exact .ok trivial rest longer
  · simp only [if_neg comma, if_neg (next ▸ comma)]
    refine (extends_expect rest longer (by decide)).bind ?_
    intro _ r r' _ rest longer
    exact .ok trivial rest longer

theorem extends_arguments (extending : Extending W more n) (short : ts.length ≤ n) (sealed : Sealed W ts) :
    (readArguments ts).Extends W more (fun _ => True) (Sealed W) (readArguments (ts ++ more)) := by
  have items := extends_items extending short sealed
  obtain ⟨t, ahead, rfl, known⟩ := exists_cons_of_sealed sealed
  rw [List.cons_append] at items ⊢
  by_cases closes : t.kind = .rightParen
  · rw [readArguments, if_pos closes, readArguments, if_pos closes]
    exact .ok trivial (sealed.behind closes (by decide)) rfl
  · rw [readArguments, if_neg closes, readArguments, if_neg closes]
    exact items

end

theorem extending_all (W : Kind → Prop) (more : List Token) (n : Nat) : Extending W more n := by
  induction n with
  | zero =>
    constructor
    · exact fun _ short => absurd short (Nat.not_lt_zero _)
    · exact fun _ _ short => absurd short (Nat.not_lt_zero _)
    · exact fun short => absurd short (Nat.not_lt_zero _)
    · exact fun short => absurd short (Nat.not_lt_zero _)
  | succ n extending =>
    constructor
    · exact fun minimum short => extends_expression extending minimum (Nat.le_of_lt_succ short)
    · exact fun minimum left short => extends_operators extending minimum left (Nat.le_of_lt_succ short)
    · exact fun short => extends_arguments extending (Nat.le_of_lt_succ short)
    · exact fun short => extends_items extending (Nat.le_of_lt_succ short)

/-- No expression goes past a semicolon. -/
theorem extends_readExpr {W : Kind → Prop} {ts : List Token} (sealed : Sealed W ts) (minimum : Precedence)
    (more : List Token) :
    (readExpr minimum ts).Extends W more (fun _ => True) (Sealed W) (readExpr minimum (ts ++ more)) :=
  (extending_all W more (ts.length + 1)).expression minimum (Nat.lt_succ_self _) sealed

/-! ## Statements without their bodies -/

section

variable {W : Kind → Prop} {more : List Token} {whole whole' : List Token} {r : Rest whole} {r' : Rest whole'}

section

variable (sealed : Sealed W r.tokens) (longer : r'.tokens = r.tokens ++ more)

include sealed longer

theorem extends_expr : r.expr.Extends W more (fun _ => True) (Sealed W) r'.expr := by
  have value := extends_readExpr sealed .lowest more
  rw [← longer] at value
  exact value.inside

/-- A statement with its semicolon, if it has one. -/
theorem extends_ending (s : Stmt) :
    Reading.Extends W more (fun _ => True) (Spent W) (.ok (s, r.skipSemicolon) : Reading Stmt whole)
      (.ok (s, r'.skipSemicolon) : Reading Stmt whole') := by
  obtain ⟨rest, longer⟩ := left_skipSemicolon sealed longer
  exact .ok trivial rest longer

theorem extends_declaration (position : Position) :
    (r.declaration position).Extends W more (fun _ => True) (Spent W) (r'.declaration position) := by
  rw [Rest.declaration, Rest.declaration]
  refine (extends_expect sealed longer (by decide)).bind ?_
  intro name r r' _ rest longer
  refine (extends_expect rest longer (by decide)).bind ?_
  intro _ r r' _ rest longer
  refine (extends_typeName rest longer).bind ?_
  intro type r r' _ rest longer
  have next := nextKind_longer rest longer
  by_cases ends : Failure.nextKind r.tokens = .semicolon
  · simp only [if_pos ends, if_pos (next.trans ends)]
    exact extends_ending rest longer _
  · simp only [if_neg ends, if_neg (next ▸ ends)]
    refine (extends_expect rest longer (by decide)).bind ?_
    intro _ r r' _ rest longer
    refine (extends_expr rest longer).bind ?_
    intro value r r' _ rest longer
    exact extends_ending rest longer _

theorem extends_assignment (name : Token) :
    (r.assignment name).Extends W more (fun _ => True) (Spent W) (r'.assignment name) := by
  rw [Rest.assignment, Rest.assignment]
  refine (extends_expect sealed longer (by decide)).bind ?_
  intro _ r r' _ rest longer
  refine (extends_expr rest longer).bind ?_
  intro value r r' _ rest longer
  exact extends_ending rest longer _

theorem extends_returned (position : Position) :
    (r.returned position).Extends W more (fun _ => True) (Spent W) (r'.returned position) := by
  rw [Rest.returned, Rest.returned]
  refine (extends_expr sealed longer).bind ?_
  intro value r r' _ rest longer
  exact extends_ending rest longer _

theorem extends_condition :
    r.condition.Extends W more (fun _ => W .leftBrace) (Sealed W) r'.condition := by
  rw [Rest.condition, Rest.condition]
  refine (extends_expect sealed longer (by decide)).bind ?_
  intro _ r r' _ rest longer
  refine (extends_expr rest longer).bind ?_
  intro condition r r' _ rest longer
  refine (extends_expect rest longer (by decide)).bind ?_
  intro _ r r' _ rest longer
  refine (extends_expect rest longer (by decide)).bind ?_
  rintro brace r r' ⟨-, known⟩ rest longer
  exact .ok known rest longer

theorem extends_signature :
    r.signature.Extends W more (fun _ => W .leftBrace) (Sealed W) r'.signature := by
  rw [Rest.signature, Rest.signature]
  refine (extends_expect sealed longer (by decide)).bind ?_
  intro name r r' _ rest longer
  refine (extends_expect rest longer (by decide)).bind ?_
  intro _ r r' _ rest longer
  refine (extends_parameters rest longer).bind ?_
  intro parameters r r' _ rest longer
  refine (extends_expect rest longer (by decide)).bind ?_
  rintro brace r r' ⟨-, known⟩ rest longer
  exact .ok known rest longer

end

theorem extends_evaluation {t : Token} {ahead : List Token} (sealed : Sealed W (t :: ahead)) (more : List Token) :
    (readEvaluation t ahead).Extends W more (fun _ => True) (Spent W) (readEvaluation t (ahead ++ more)) := by
  rw [readEvaluation, readEvaluation]
  refine (extends_readExpr sealed .lowest more).bind ?_
  intro value r r' _ rest longer
  exact extends_ending rest longer _

end

end Stepwise
