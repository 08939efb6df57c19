import Stepwise.Proofs.Extension
import Stepwise.Proofs.Joined

/-!
A semicolon at the end of a source is a boundary of its statements (`parse_behind_semicolon`). If the source
has no braces, every malformed statement in it ends at a semicolon or in front of a later statement
(`readScript_braceless`); if nothing in it is malformed, its last statement ends there
(`readScript_clean`). Either way the source behind it is read as if it stood alone.
-/
namespace Stepwise

/-! ## Statements without braces -/

theorem extends_braceless {t : Token} {ahead : List Token} (sealed : Sealed (· ≠ .leftBrace) (t :: ahead))
    (more : List Token) :
    ∃ (x : Reading Stmt (t :: ahead)) (x' : Reading Stmt (t :: (ahead ++ more))),
      readStatement t ahead = ⟨[], x⟩ ∧ readStatement t (ahead ++ more) = ⟨[], x'⟩ ∧
        x.Extends (· ≠ .leftBrace) more (fun _ => True) (Spent (· ≠ .leftBrace)) x' := by
  -- a header comes to an end with a brace, and so it never does
  have headless {α : Type} {x : Reading α (t :: ahead)} {x' : Reading α (t :: (ahead ++ more))}
      (header : x.Extends (· ≠ .leftBrace) more (fun _ => Kind.leftBrace ≠ .leftBrace) (Sealed (· ≠ .leftBrace)) x') :
      ∃ s s', x = .error s ∧ x' = .error s' ∧ s'.failure = s.failure.extend more ∧
        s.failure.Halted (· ≠ .leftBrace) := by
    cases x with
    | error s =>
      obtain ⟨s', rfl, longer, halted⟩ := header.of_error
      exact ⟨s, s', rfl, rfl, longer, halted⟩
    | ok found =>
      obtain ⟨r', -, impossible, -⟩ := Reading.Extends.of_ok (a := found.1) (r := found.2) header
      exact absurd rfl impossible
  have longer : (Rest.behind t (ahead ++ more)).tokens = (Rest.behind t ahead).tokens ++ more := rfl
  cases begins : t.kind with
  | letWord =>
    have later := sealed.behind begins (by decide)
    refine ⟨_, _, ?_, ?_, extends_declaration later longer t.position⟩
    · simp only [readStatement, begins]
    · simp only [readStatement, begins]
  | returnWord =>
    have later := sealed.behind begins (by decide)
    refine ⟨_, _, ?_, ?_, extends_returned later longer t.position⟩
    · simp only [readStatement, begins]
    · simp only [readStatement, begins]
  | ifWord | whileWord =>
    have later := sealed.behind begins (by decide)
    obtain ⟨s, s', failed, failed', longer, halted⟩ := headless (extends_condition later longer)
    refine ⟨.error s, .error s', ?_, ?_, extends_stuck longer halted⟩
    · simp only [readStatement, begins, failed]
    · simp only [readStatement, begins, failed']
  | funcWord =>
    have later := sealed.behind begins (by decide)
    obtain ⟨s, s', failed, failed', longer, halted⟩ := headless (extends_signature later longer)
    refine ⟨.error s, .error s', ?_, ?_, extends_stuck longer halted⟩
    · simp only [readStatement, begins, failed]
    · simp only [readStatement, begins, failed']
  | leftBrace => exact absurd begins (sealed.known t List.mem_cons_self)
  | identifier =>
    have later := sealed.behind begins (by decide)
    have next := nextKind_extend later more
    by_cases assigns : Failure.nextKind ahead = .equal
    · refine ⟨_, _, ?_, ?_, extends_assignment later longer t⟩
      · simp only [readStatement, begins, if_pos assigns]
      · simp only [readStatement, begins, next, if_pos assigns]
    · refine ⟨_, _, ?_, ?_, extends_evaluation sealed more⟩
      · simp only [readStatement, begins, if_neg assigns]
      · simp only [readStatement, begins, next, if_neg assigns]
  | _ =>
    refine ⟨_, _, ?_, ?_, extends_evaluation sealed more⟩
    · simp only [readStatement, begins]
    · simp only [readStatement, begins]

/-! ## Statements that are read without a failure -/

section

variable {α β : Type} {whole : List Token}

theorem of_inside {earlier : List Failure} {f : α → β} {r : Rest whole} {a : Attempt α r.tokens} {y : β}
    {q : Rest whole} (read : Attempt.inside earlier f r a = ⟨[], .ok (y, q)⟩) :
    earlier = [] ∧ ∃ x q', a = ⟨[], .ok (x, q')⟩ ∧ f x = y ∧ q'.tokens = q.tokens := by
  obtain ⟨nested, outcome⟩ := a
  obtain ⟨failures, found⟩ := Attempt.mk.inj read
  obtain ⟨rfl, rfl⟩ := List.append_eq_nil_iff.mp failures
  cases outcome with
  | error s => cases found
  | ok pair =>
    obtain ⟨x, q'⟩ := pair
    cases found
    exact ⟨rfl, x, q', rfl, rfl, rfl⟩

end

section

variable (W : Kind → Prop) (more : List Token)

/-- A statement that is read without a failure is read with more tokens behind, too. -/
def ExtendsStatement (t : Token) (ahead : List Token) : Prop :=
  Sealed W (t :: ahead) → ∀ {s : Stmt} {r : Rest (t :: ahead)}, readStatement t ahead = ⟨[], .ok (s, r)⟩ →
    Spent W r.tokens ∧ ∃ r', readStatement t (ahead ++ more) = ⟨[], .ok (s, r')⟩ ∧ r'.tokens = r.tokens ++ more

/-- A body that is read without a failure is read with more tokens behind, too. -/
def ExtendsBody (ts : List Token) : Prop :=
  Sealed W ts → ∀ {ss : List Stmt} {r : Rest ts}, readBody ts = ⟨[], .ok (ss, r)⟩ →
    Sealed W r.tokens ∧ ∃ r', readBody (ts ++ more) = ⟨[], .ok (ss, r')⟩ ∧ r'.tokens = r.tokens ++ more

end

section

variable {W : Kind → Prop} {more : List Token}

/-- A body with the tokens left in front of it, and with more tokens behind these. -/
theorem ExtendsBody.behind {rest rest' : List Token} (body : ExtendsBody W more rest) (sealed : Sealed W rest)
    (longer : rest' = rest ++ more) {ss : List Stmt} {r : Rest rest} (read : readBody rest = ⟨[], .ok (ss, r)⟩) :
    Sealed W r.tokens ∧ ∃ r', readBody rest' = ⟨[], .ok (ss, r')⟩ ∧ r'.tokens = r.tokens ++ more := by
  subst longer
  exact body sealed read

/-- The brace behind the first of the tokens left. -/
theorem extends_behind {whole whole' rest rest' : List Token} (left : Sealed W rest) (longer : rest' = rest ++ more)
    (otherwise : Failure.nextKind rest = .elseWord) (less : (rest.drop 1).length < whole.length)
    (less' : (rest'.drop 1).length < whole'.length) :
    (Rest.expect .leftBrace ⟨rest.drop 1, less⟩).Extends W more (fun t => t.kind = .leftBrace ∧ W .leftBrace) (Sealed W)
      (Rest.expect .leftBrace ⟨rest'.drop 1, less'⟩) := by
  subst longer
  obtain ⟨t, ahead, rfl, -⟩ := exists_cons_of_sealed left
  exact extends_expect (left.behind otherwise (by decide)) rfl (by decide)

/-- A statement without a body. -/
theorem extends_bodiless {whole whole' : List Token} {x : Reading Stmt whole} {x' : Reading Stmt whole'}
    (extends_ : x.Extends W more (fun _ => True) (Spent W) x') {s : Stmt} {r : Rest whole}
    (read : (⟨[], x⟩ : Attempt Stmt whole) = ⟨[], .ok (s, r)⟩) :
    Spent W r.tokens ∧ ∃ r', (⟨[], x'⟩ : Attempt Stmt whole') = ⟨[], .ok (s, r')⟩ ∧ r'.tokens = r.tokens ++ more := by
  obtain ⟨-, rfl⟩ := Attempt.mk.inj read
  obtain ⟨r', rfl, -, rest, longer⟩ := extends_.of_ok
  exact ⟨rest, r', rfl, longer⟩

theorem extends_both : (∀ t ahead, ExtendsStatement W more t ahead) ∧ ∀ ts, ExtendsBody W more ts := by
  have longer (t : Token) (ahead : List Token) :
      (Rest.behind t (ahead ++ more)).tokens = (Rest.behind t ahead).tokens ++ more := rfl
  apply readStatement.mutual_induct
  -- Declarations and returns.
  · intro t ahead begins sealed s r read
    have later := sealed.behind begins (by decide)
    simp only [readStatement, begins] at read ⊢
    exact extends_bodiless (extends_declaration later (longer t ahead) t.position) read
  · intro t ahead begins sealed s r read
    have later := sealed.behind begins (by decide)
    simp only [readStatement, begins] at read ⊢
    exact extends_bodiless (extends_returned later (longer t ahead) t.position) read
  -- Branches: no condition, no body, a body and then nothing, no brace, another body.
  · intro t ahead begins s failed sealed s' r read
    simp only [readStatement, begins, failed] at read
    cases read
  · intro t ahead begins condition brace rest less header nested s failed body sealed s' r read
    simp only [readStatement, begins, header, failed] at read
    cases read
  · intro t ahead begins condition brace rest less header nested body rest' less' done otherwise s failed inner sealed
      s' r read
    simp only [readStatement, begins, header, done, if_pos otherwise, failed] at read
    cases read
  · intro t ahead begins condition brace rest less header nested body rest' less' done otherwise brace' rest'' less''
      found inner alternative sealed s r read
    have later := sealed.behind begins (by decide)
    have head := extends_condition later (longer t ahead)
    rw [header] at head
    obtain ⟨⟨rest₁, less₁⟩, header', -, left, behind⟩ := head.of_ok
    simp only [readStatement, begins, header, done, if_pos otherwise, found] at read
    obtain ⟨rfl, ss, q, last, rfl, tokens⟩ := of_inside read
    obtain ⟨left, ⟨rest₂, less₂⟩, done', behind⟩ := inner.behind left behind done
    have next := (nextKind_longer left behind).trans otherwise
    have brace := extends_behind left behind otherwise (length_drop_lt less' less) (length_drop_lt less₂ less₁)
    rw [found] at brace
    obtain ⟨⟨rest₃, less₃⟩, found', -, left, behind⟩ := brace.of_ok
    obtain ⟨left, q', last', behind⟩ := alternative.behind left behind last
    simp only [readStatement, begins, header', done', if_pos next, found', last']
    rw [tokens] at left behind
    exact ⟨.inl left, _, rfl, behind⟩
  · intro t ahead begins condition brace rest less header nested body rest' less' done otherwise inner sealed s r read
    have later := sealed.behind begins (by decide)
    have head := extends_condition later (longer t ahead)
    rw [header] at head
    obtain ⟨⟨rest₁, less₁⟩, header', -, left, behind⟩ := head.of_ok
    simp only [readStatement, begins, header, done, if_neg otherwise] at read
    cases read
    obtain ⟨left, ⟨rest₂, less₂⟩, done', behind⟩ := inner.behind left behind done
    have next := nextKind_longer left behind
    simp only [readStatement, begins, header', done', if_neg (next ▸ otherwise)]
    exact ⟨.inl left, _, rfl, behind⟩
  -- Loops and definitions: no header, or a body.
  · intro t ahead begins s failed sealed s' r read
    simp only [readStatement, begins, failed] at read
    cases read
  · intro t ahead begins condition brace rest less header body sealed s r read
    have later := sealed.behind begins (by decide)
    have head := extends_condition later (longer t ahead)
    rw [header] at head
    obtain ⟨⟨rest', less'⟩, header', -, left, behind⟩ := head.of_ok
    simp only [readStatement, begins, header] at read
    obtain ⟨-, ss, q, done, rfl, tokens⟩ := of_inside read
    obtain ⟨left, q', done', behind⟩ := body.behind left behind done
    simp only [readStatement, begins, header', done']
    rw [tokens] at left behind
    exact ⟨.inl left, _, rfl, behind⟩
  · intro t ahead begins s failed sealed s' r read
    simp only [readStatement, begins, failed] at read
    cases read
  · intro t ahead begins name parameters brace rest less header body sealed s r read
    have later := sealed.behind begins (by decide)
    have head := extends_signature later (longer t ahead)
    rw [header] at head
    obtain ⟨⟨rest', less'⟩, header', -, left, behind⟩ := head.of_ok
    simp only [readStatement, begins, header] at read
    obtain ⟨-, ss, q, done, rfl, tokens⟩ := of_inside read
    obtain ⟨left, q', done', behind⟩ := body.behind left behind done
    simp only [readStatement, begins, header', done']
    rw [tokens] at left behind
    exact ⟨.inl left, _, rfl, behind⟩
  -- Blocks, assignments, and expressions.
  · intro t ahead begins body sealed s r read
    have later := sealed.behind begins (by decide)
    simp only [readStatement, begins] at read
    obtain ⟨-, ss, q, done, rfl, tokens⟩ := of_inside read
    obtain ⟨left, q', done', behind⟩ := body.behind later (longer t ahead) done
    rw [tokens] at left behind
    refine ⟨.inl left, (Rest.behind t (ahead ++ more)).within q', ?_, behind⟩
    simp only [readStatement, begins]
    exact congrArg (Attempt.inside [] _ (Rest.behind t (ahead ++ more))) done'
  · intro t ahead begins assigns sealed s r read
    have later := sealed.behind begins (by decide)
    have next := nextKind_extend later more
    simp only [readStatement, begins, if_pos assigns] at read
    simp only [readStatement, begins, next, if_pos assigns]
    exact extends_bodiless (extends_assignment later (longer t ahead) t) read
  · intro t ahead begins evaluates sealed s r read
    have later := sealed.behind begins (by decide)
    have next := nextKind_extend later more
    simp only [readStatement, begins, if_neg evaluates] at read
    simp only [readStatement, begins, next, if_neg evaluates]
    exact extends_bodiless (extends_evaluation sealed more) read
  · intro t ahead notLet notReturn notIf notWhile notFunc notBrace notName sealed s r read
    simp only [readStatement] at read ⊢
    exact extends_bodiless (extends_evaluation sealed more) read
  -- Bodies: the end of the source, the closing brace, a statement, a malformed statement.
  · intro sealed ss r read
    rw [readBody] at read
    cases read
  · intro t ahead closes sealed ss r read
    rw [readBody, if_pos closes] at read
    cases read
    rw [List.cons_append, readBody, if_pos closes]
    exact ⟨sealed.behind closes (by decide), _, rfl, rfl⟩
  · intro t ahead opens nested s rest less found statement body sealed ss r read
    rw [readBody, if_neg opens, found] at read
    obtain ⟨rfl, ss', q, done, rfl, tokens⟩ := of_inside read
    obtain ⟨spent, ⟨rest', less'⟩, found', behind⟩ := statement sealed found
    have left : Sealed W rest := by
      rcases spent with left | nothing
      · exact left
      · obtain rfl : rest = [] := nothing
        rw [readBody] at done
        cases done
    obtain ⟨left, q', done', behind⟩ := body.behind left behind done
    rw [List.cons_append, readBody, if_neg opens, found']
    rw [tokens] at left behind
    simp only [done']
    exact ⟨left, _, rfl, behind⟩
  · intro t ahead opens nested x within failed statement body sealed ss r read
    rw [readBody, if_neg opens, failed] at read
    obtain ⟨nothing, -⟩ := of_inside read
    simp at nothing

end

/-! ## Scripts -/

/-- A malformed statement without braces ends with its semicolon. -/
theorem recover_skip {ts : List Token} (sealed : Sealed (· ≠ .leftBrace) ts) (more : List Token) :
    Spent (· ≠ .leftBrace) (skipStatement 0 ts) ∧ skipStatement 0 (ts ++ more) = skipStatement 0 ts ++ more := by
  induction ts with
  | nil =>
    obtain ⟨t, ahead, nothing, -⟩ := exists_cons_of_sealed sealed
    cases nothing
  | cons t ahead ih =>
    rw [List.cons_append]
    by_cases boundary : t.kind.isBoundary = true
    · simp only [skipStatement, boundary, and_self, if_true]
      exact ⟨.inl sealed, rfl⟩
    by_cases ends : t.kind = .semicolon
    · have passed : t.kind.passed 0 = none := by rw [ends]; rfl
      simp only [skipStatement, boundary, passed, Bool.false_eq_true, and_false, if_false]
      exact ⟨sealed.tail.imp id And.left, trivial⟩
    · have known : t.kind ≠ .leftBrace := sealed.known t List.mem_cons_self
      have passed : t.kind.passed 0 = some 0 := by
        generalize t.kind = k at boundary ends known
        cases k <;> first | rfl | exact absurd rfl known | exact absurd rfl ends
      simp only [skipStatement, boundary, passed, Bool.false_eq_true, and_false, if_false]
      exact ih (sealed.behind rfl ends)

theorem recover_extend {x : Failure} (halted : x.Halted (· ≠ .leftBrace)) (more : List Token) :
    Spent (· ≠ .leftBrace) x.recover ∧ (x.extend more).recover = x.recover ++ more := by
  obtain ⟨complaint, entered, ahead⟩ := x
  obtain ⟨stands, known⟩ := halted
  cases entered with
  | none =>
    rcases stands with sealed | ⟨-, t, nothing, -⟩
    · exact recover_skip sealed more
    · cases nothing
  | some t =>
    have unbraced : t.kind ≠ .leftBrace := known t rfl
    by_cases ends : t.kind = .semicolon
    · have passed : t.kind.passed 0 = none := by rw [ends]; rfl
      simp only [Failure.recover, Failure.extend, Option.map_some, passed]
      exact ⟨stands.imp id And.left, trivial⟩
    · have passed : t.kind.passed 0 = some 0 := by
        generalize t.kind = k at ends unbraced
        cases k <;> first | rfl | exact absurd rfl unbraced | exact absurd rfl ends
      simp only [Failure.recover, Failure.extend, Option.map_some, passed]
      rcases stands with sealed | ⟨-, u, same, semicolon⟩
      · exact recover_skip sealed more
      · cases same
        exact absurd semicolon ends

/-- Without braces every malformed statement ends where the next one begins, whatever comes behind. -/
theorem readScript_braceless {ts : List Token} (spent : Spent (· ≠ .leftBrace) ts) (more : List Token) :
    readScript (ts ++ more) = ((readScript ts).1 ++ (readScript more).1,
      (readScript ts).2.map (Failure.extend more) ++ (readScript more).2) ∧
    ∀ x ∈ (readScript ts).2, x.Halted (· ≠ .leftBrace) := by
  fun_induction readScript ts with
  | case1 => simp
  | case2 t ahead nested s rest less read statements failures later ih =>
    obtain ⟨x, x', read₁, read', extends_⟩ := extends_braceless (spent.resolve_right (List.cons_ne_nil t ahead)) more
    obtain ⟨rfl, rfl⟩ := Attempt.mk.inj (read₁.symm.trans read)
    obtain ⟨⟨rest', less'⟩, rfl, -, left, longer⟩ := extends_.of_ok
    obtain rfl : rest' = rest ++ more := longer
    obtain ⟨whole, each⟩ := ih left
    rw [later] at whole each
    refine ⟨?_, each⟩
    rw [List.cons_append, readScript, read']
    simp only [whole, List.nil_append, List.cons_append]
  | case3 t ahead nested x within failed statements failures later ih =>
    obtain ⟨y, y', read, read', extends_⟩ := extends_braceless (spent.resolve_right (List.cons_ne_nil t ahead)) more
    obtain ⟨rfl, rfl⟩ := Attempt.mk.inj (read.symm.trans failed)
    obtain ⟨⟨z, within'⟩, rfl, longer, halted⟩ := extends_.of_error
    obtain rfl : z = x.extend more := longer
    obtain ⟨left, recovered⟩ := recover_extend halted more
    obtain ⟨whole, each⟩ := ih left
    rw [later] at whole each
    refine ⟨?_, List.forall_mem_cons.mpr ⟨halted, each⟩⟩
    rw [List.cons_append, readScript, read']
    simp only [recovered, whole, List.nil_append, List.map_cons, List.cons_append]

/-- A script that is read without a failure is read so with any other script behind it. -/
theorem readScript_clean {W : Kind → Prop} {ts : List Token} (spent : Spent W ts) (clean : (readScript ts).2 = [])
    (more : List Token) :
    readScript (ts ++ more) = ((readScript ts).1 ++ (readScript more).1, (readScript more).2) := by
  fun_induction readScript ts with
  | case1 => simp
  | case2 t ahead nested s rest less read statements failures later ih =>
    obtain ⟨rfl, rfl⟩ := List.append_eq_nil_iff.mp clean
    obtain ⟨left, ⟨rest', less'⟩, read', longer⟩ :=
      extends_both.1 t ahead (spent.resolve_right (List.cons_ne_nil t ahead)) read
    obtain rfl : rest' = rest ++ more := longer
    have whole := ih left (by rw [later])
    rw [later] at whole
    rw [List.cons_append, readScript, read']
    simp only [whole, List.nil_append, List.cons_append]
  | case3 t ahead nested x within failed statements failures later ih => simp at clean

/-! ## Sources -/

/-- A diagnostic at another place. -/
def Diagnostic.move (f : Position → Position) (d : Diagnostic) : Diagnostic :=
  ⟨d.complaint, f d.position, d.width⟩

theorem diagnostic_move (f : Position → Position) (x : Failure) (stop : Token) :
    (x.move f).diagnostic (stop.move f) = (x.diagnostic stop).move f := by
  obtain ⟨complaint, entered, ahead⟩ := x
  cases entered with
  | some t => rfl
  | none => cases ahead <;> rfl

/-- A failure in front of the last semicolon is about a token in front of it, or about the semicolon. -/
theorem diagnostic_extend {W : Kind → Prop} {x : Failure} (halted : x.Halted W) (more : List Token)
    (stop stop' : Token) :
    (x.extend more).diagnostic stop' = x.diagnostic stop := by
  obtain ⟨complaint, entered, ahead⟩ := x
  cases entered with
  | some t => rfl
  | none =>
    rcases halted.ahead with sealed | ⟨-, t, nothing, -⟩
    · obtain ⟨t, ahead, rfl, -⟩ := exists_cons_of_sealed sealed
      rfl
    · cases nothing

theorem parse_eq (source : String) :
    parse source = ⟨(readScript (sourceTokens source)).1,
      (readScript (sourceTokens source)).2.map (·.diagnostic (Scanner.ofSource source).readAll.2)⟩ := rfl

/-- The last token of a source is a semicolon. -/
def EndsStatement (source : String) : Prop :=
  (sourceTokens source).getLast?.map Token.kind = some .semicolon

theorem sealed_of_ends {source : String} (ends : EndsStatement source) {W : Kind → Prop}
    (known : ∀ t ∈ sourceTokens source, W t.kind) : Sealed W (sourceTokens source) := by
  obtain ⟨t, last, semicolon⟩ := Option.map_eq_some_iff.mp ends
  exact ⟨⟨t, last, semicolon⟩, known⟩

theorem readScript_behind {a : String} (ends : EndsStatement a)
    (calm : (∀ t ∈ sourceTokens a, t.kind ≠ .leftBrace) ∨ (parse a).diagnostics = []) (more : List Token) :
    readScript (sourceTokens a ++ more) = ((readScript (sourceTokens a)).1 ++ (readScript more).1,
      (readScript (sourceTokens a)).2.map (Failure.extend more) ++ (readScript more).2) ∧
    ∃ W : Kind → Prop, ∀ x ∈ (readScript (sourceTokens a)).2, x.Halted W := by
  rcases calm with braceless | clean
  · obtain ⟨whole, each⟩ := readScript_braceless (.inl (sealed_of_ends ends braceless)) more
    exact ⟨whole, _, each⟩
  · simp only [parse_eq, List.map_eq_nil_iff] at clean
    have whole := readScript_clean (.inl (sealed_of_ends (W := fun _ => True) ends fun _ _ => trivial)) clean more
    rw [clean]
    exact ⟨whole, fun _ => True, List.forall_mem_nil _⟩

theorem closed_of_ends {source : String} (ends : EndsStatement source) :
    ∀ t ∈ (sourceTokens source).getLast?, t.kind ≠ .illegal := by
  intro t last
  rw [EndsStatement, Option.mem_def.mp last] at ends
  rw [Option.some.inj ends]
  decide

/-- What is read of two sources with a line feed between them. -/
theorem readScript_joined {a : String} (ends : EndsStatement a)
    (calm : (∀ t ∈ sourceTokens a, t.kind ≠ .leftBrace) ∨ (parse a).diagnostics = []) (b : String) :
    readScript (sourceTokens (a ++ "\n" ++ b)) =
      ((readScript (sourceTokens a)).1 ++ (readScript (sourceTokens b)).1.map (Stmt.move (Position.behind a)),
        (readScript (sourceTokens a)).2.map (Failure.extend ((sourceTokens b).map (Token.move (Position.behind a)))) ++
          (readScript (sourceTokens b)).2.map (Failure.move (Position.behind a))) := by
  have joined : sourceTokens (a ++ "\n" ++ b) =
      sourceTokens a ++ (sourceTokens b).map (Token.move (Position.behind a)) :=
    congrArg Prod.fst (readAll_joined (closed_of_ends ends) b)
  obtain ⟨whole, -⟩ := readScript_behind ends calm ((sourceTokens b).map (Token.move (Position.behind a)))
  obtain ⟨moved, -⟩ := @moves_readScript (Position.behind a) (fun _ => True) (sourceTokens b) fun _ _ => trivial
  rw [joined, whole, moved]

/-- A semicolon at the end of a source ends what stands in front of it, even if it is malformed, as long as
    no brace is open: what comes behind it is read as if it stood alone. -/
theorem parse_behind_semicolon {a : String} (ends : EndsStatement a)
    (calm : (∀ t ∈ sourceTokens a, t.kind ≠ .leftBrace) ∨ (parse a).diagnostics = []) (b : String) :
    parse (a ++ "\n" ++ b) =
      ⟨(parse a).script ++ (parse b).script.map (Stmt.move (Position.behind a)),
        (parse a).diagnostics ++ (parse b).diagnostics.map (Diagnostic.move (Position.behind a))⟩ := by
  have stop := congrArg Prod.snd (readAll_joined (closed_of_ends ends) b)
  have whole := readScript_joined ends calm b
  generalize (sourceTokens b).map (Token.move (Position.behind a)) = more at whole
  generalize Position.behind a = f at stop whole
  obtain ⟨-, W, each⟩ := readScript_behind ends calm more
  -- the failures of both sources, each with the end mark of its own
  have first (stop stop' : Token) :
      ((readScript (sourceTokens a)).2.map (Failure.extend more)).map (·.diagnostic stop') =
      (readScript (sourceTokens a)).2.map (·.diagnostic stop) := by
    rw [List.map_map]
    exact List.map_congr_left fun x member => diagnostic_extend (each x member) more stop stop'
  have second (stop : Token) : ((readScript (sourceTokens b)).2.map (Failure.move f)).map (·.diagnostic (stop.move f)) =
      ((readScript (sourceTokens b)).2.map (·.diagnostic stop)).map (Diagnostic.move f) := by
    rw [List.map_map, List.map_map]
    exact List.map_congr_left fun x _ => diagnostic_move f x stop
  rw [parse_eq a, parse_eq b, parse_eq, whole, stop]
  simp only [List.map_append, second]
  rw [first]

/-- A malformed declaration in front of a sound assignment. -/
theorem parse_behind_declaration :
    EndsStatement "let = 1;" ∧ (∀ t ∈ sourceTokens "let = 1;", t.kind ≠ .leftBrace) ∧
      parse ("let = 1;" ++ "\n" ++ "x = ;") =
        ⟨(parse "let = 1;").script ++ (parse "x = ;").script.map (Stmt.move (Position.behind "let = 1;")),
          (parse "let = 1;").diagnostics ++
            (parse "x = ;").diagnostics.map (Diagnostic.move (Position.behind "let = 1;"))⟩ := by
  have ends : EndsStatement "let = 1;" := by unfold EndsStatement; decide +kernel
  have braceless : ∀ t ∈ sourceTokens "let = 1;", t.kind ≠ .leftBrace := by decide +kernel
  exact ⟨ends, braceless, parse_behind_semicolon ends (.inl braceless) "x = ;"⟩

end Stepwise
