import Stepwise.Proofs.Boundary
import Stepwise.Proofs.Offenders
import Stepwise.Proofs.Recovery

/-!
Malformed headers. Where `if`, `while` or `func` begins what is no header, reading gives up on a token of it or
on the brace behind it (`halts_in_header`). Nothing in it ends the statement, so recovery comes to that brace
and passes over the body up to the brace that closes it (`skip_plain`, `skip_body`). What stands behind is read
as if it stood alone (`malformed_header_skipped`).
-/
namespace Stepwise

/-- The words that headers begin with. -/
def Kind.headers : List Kind := [.ifWord, .whileWord, .funcWord]

/-- The kinds that end a malformed statement, begin another one, or open a body. -/
def Kind.limits : List Kind :=
  [.leftBrace, .rightBrace, .semicolon, .letWord, .returnWord, .ifWord, .whileWord, .funcWord]

/-- What begins as a header, but is none. -/
structure Malformed (header : List Token) : Prop where
  begins : ∃ t ∈ header.head?, t.kind ∈ Kind.headers
  plain : ∀ t ∈ header.tail, t.kind ∉ Kind.limits
  illformed : ¬ Header (header.map Token.kind)

/-! ## Passing over a body -/

section

variable {opening closing : Token}

theorem passed_plain {k : Kind} (plain : k ∉ Kind.limits) : k.passed 0 = some 0 ∧ k.isBoundary = false := by
  revert plain
  cases k <;> decide

/-- Outside braces nothing ends a malformed statement up to the brace that opens its body. -/
theorem skip_plain {plain : List Token} (known : ∀ t ∈ plain, t.kind ∉ Kind.limits) (opens : opening.kind = .leftBrace)
    (more : List Token) : skipStatement 0 (plain ++ opening :: more) = skipStatement 1 more := by
  induction plain with
  | nil =>
    rw [List.nil_append, skipStatement, opens]
    rfl
  | cons t plain ih =>
    obtain ⟨first, known⟩ := List.forall_mem_cons.mp known
    obtain ⟨passed, inside⟩ := passed_plain first
    rw [List.cons_append, skipStatement, inside, passed]
    simpa using ih known

theorem passed_inside {k : Kind} (other : k.isBrace = false) (depth : Nat) :
    k.passed (depth + 1) = some (depth + 1) := by
  have same : (k.passed (depth + 1)).getD 0 = depth + 1 := passed_of_level other
  cases passed : k.passed (depth + 1) with
  | none =>
    rw [passed] at same
    cases same
  | some less =>
    rw [passed] at same
    exact congrArg some same

/-- Inside braces a malformed statement ends with the brace that closes the outermost of them, whatever
    stands in front of it. -/
theorem skip_body {body : List Token} {depth : Nat} (balanced : Closes depth (body.map Token.kind))
    (closes : closing.kind = .rightBrace) (rest : List Token) :
    skipStatement (depth + 1) (body ++ closing :: rest) = rest := by
  induction body generalizing depth with
  | nil =>
    obtain rfl := closes_nil.mp balanced
    rw [List.nil_append, skipStatement, closes]
    rfl
  | cons t body ih =>
    have deep : ¬ (depth + 1 = 0 ∧ t.kind.isBoundary = true) := fun outside => Nat.succ_ne_zero depth outside.1
    rw [List.map_cons] at balanced
    rw [List.cons_append, skipStatement, if_neg deep]
    cases brace : t.kind.isBrace with
    | false =>
      rw [passed_inside brace]
      exact ih ((closes_cons brace).mp balanced)
    | true =>
      cases kind : t.kind with
      | leftBrace =>
        rw [kind] at balanced
        exact ih (closes_leftBrace.mp balanced)
      | rightBrace =>
        rw [kind] at balanced
        obtain ⟨less, rfl, balanced⟩ := closes_rightBrace.mp balanced
        exact ih balanced
      | _ =>
        rw [kind] at brace
        cases brace

end

/-! ## Giving up in a header -/

section

variable {header more : List Token} {opening : Token}

theorem level_of_malformed (malformed : Malformed header) : Level (header.map Token.kind) := by
  obtain ⟨t, first, word⟩ := malformed.begins
  obtain ⟨tail, rfl⟩ := List.head?_eq_some_iff.mp first
  have words : ∀ k ∈ Kind.headers, k.isBrace = false := by decide
  have flat : ∀ k : Kind, k ∉ Kind.limits → k.isBrace = false := by
    intro k
    cases k <;> decide
  simp only [Level, List.forall_mem_map, List.forall_mem_cons]
  exact ⟨words _ word, fun u member => flat _ (malformed.plain u member)⟩

/-- The first brace is where it is. -/
theorem eq_of_first_brace {ks ks' rest rest' : List Kind} (level : Level ks) (level' : Level ks')
    (same : ks ++ .leftBrace :: rest = ks' ++ .leftBrace :: rest') : ks = ks' := by
  have front : ∀ {ls more : List Kind}, Level ls → (ls ++ .leftBrace :: more).takeWhile (!·.isBrace) = ls := by
    intro ls more level
    rw [List.takeWhile_append_of_pos (by simpa [Level] using level)]
    simp [Kind.isBrace]
  rw [← front level, same, front level']

/-- What stands behind no brace is in the header, or begins with the brace behind it. -/
theorem split_of_behind {ks : List Kind} {rest : List Token} (behind : Behind (header ++ opening :: more) ks rest)
    (level : Level ks) (opens : opening.kind = .leftBrace) :
    ∃ used left, header = used ++ left ∧ rest = left ++ opening :: more := by
  obtain ⟨used, same, rfl⟩ := behind
  rcases List.append_eq_append_iff.mp same with ⟨left, rfl, rfl⟩ | ⟨between, rfl, behind⟩
  · exact ⟨used, left, rfl, rfl⟩
  · cases between with
    | nil => exact ⟨header, [], by simp, behind.symm⟩
    | cons t between =>
      obtain ⟨rfl, -⟩ := List.cons_eq_cons.mp behind
      have flat := level opening.kind (by simp)
      rw [opens] at flat
      cases flat

/-- What is read up to an opening brace is the header. -/
theorem kinds_of_behind {ks : List Kind} {rest : List Token} (malformed : Malformed header)
    (behind : Behind (header ++ opening :: more) (ks ++ [.leftBrace]) rest) (level : Level ks)
    (opens : opening.kind = .leftBrace) : header.map Token.kind = ks := by
  obtain ⟨used, same, kinds⟩ := behind
  have whole := congrArg (List.map Token.kind) same
  rw [List.map_append, kinds, List.map_append, List.map_cons, opens, List.append_assoc] at whole
  exact (eq_of_first_brace level (level_of_malformed malformed) whole).symm

/-- A reader that ends with the brace of a header gives up before, where there is no header. -/
theorem halts_of_takes {α : Type} {t : Token} {ahead : List Token} {x : Reading α (t :: ahead)}
    {good : α → List Kind → Prop} (takes : Takes good x)
    (none : ∀ a ks, good a ks → ∀ rest, ¬ Behind (t :: ahead) ks rest) :
    ∃ s ks rest, x = .error s ∧ Behind (t :: ahead) ks rest ∧ Level ks ∧ Refused rest s.failure := by
  cases takes with
  | ok behind fits => exact absurd behind (none _ _ fits _)
  | error behind level refused => exact ⟨_, _, _, rfl, behind, level, refused⟩

/-- Reading gives up in a malformed header, or on the brace behind it. -/
theorem halts_in_header {t : Token} {ahead : List Token} (malformed : Malformed header)
    (opens : opening.kind = .leftBrace) (begins : header ++ opening :: more = t :: ahead) :
    ∃ s ks rest, readStatement t ahead = ⟨[], .error s⟩ ∧ Behind (t :: ahead) ks rest ∧ Level ks ∧
      Refused rest s.failure := by
  have word : t.kind ∈ Kind.headers := by
    obtain ⟨u, first, word⟩ := malformed.begins
    obtain ⟨tail, rfl⟩ := List.head?_eq_some_iff.mp first
    obtain ⟨rfl, -⟩ := List.cons_eq_cons.mp begins
    exact word
  have noHeader : ∀ {ks : List Kind} {rest : List Token}, Header ks →
      ¬ Behind (t :: ahead) (ks ++ [.leftBrace]) rest := by
    intro ks rest wellformed behind
    rw [← begins] at behind
    have kinds := kinds_of_behind malformed behind (level_of_header wellformed) opens
    exact malformed.illformed (kinds ▸ wellformed)
  simp only [Kind.headers, List.mem_cons, List.not_mem_nil, or_false] at word
  rcases word with word | word | word
  · obtain ⟨s, ks, rest, failed, behind, level, refused⟩ := halts_of_takes (takes_condition word rfl ahead) (by
      rintro _ _ ⟨c, rfl, condition⟩ rest behind
      exact noHeader (.branch condition) (by simpa using behind))
    exact ⟨s, ks, rest, by simp only [readStatement, word, failed], behind, level, refused⟩
  · obtain ⟨s, ks, rest, failed, behind, level, refused⟩ := halts_of_takes (takes_condition word rfl ahead) (by
      rintro _ _ ⟨c, rfl, condition⟩ rest behind
      exact noHeader (.loop condition) (by simpa using behind))
    exact ⟨s, ks, rest, by simp only [readStatement, word, failed], behind, level, refused⟩
  · obtain ⟨s, ks, rest, failed, behind, level, refused⟩ := halts_of_takes (takes_signature word ahead) (by
      rintro _ _ ⟨names, rfl, parameters⟩ rest behind
      exact noHeader (.define parameters) (by simpa using behind))
    exact ⟨s, ks, rest, by simp only [readStatement, word, failed], behind, level, refused⟩

/-! ## Recovery -/

theorem plain_of_suffix {used left : List Token} (malformed : Malformed (used ++ left)) (some : used ≠ []) :
    ∀ t ∈ left, t.kind ∉ Kind.limits := by
  intro t member
  refine malformed.plain t ?_
  obtain ⟨u, used, rfl⟩ := List.exists_cons_of_ne_nil some
  exact List.mem_append_right _ member

/-- Recovery from a failure in a malformed header goes on behind the body. -/
theorem recover_in_header {x : Failure} {used left : List Token} (malformed : Malformed (used ++ left))
    (opens : opening.kind = .leftBrace) (refused : Refused (left ++ opening :: more) x)
    (within : x.ahead.length < (used ++ left ++ opening :: more).length) : x.recover = skipStatement 1 more := by
  cases refused with
  | unexpected other =>
    have some : used ≠ [] := by
      rintro rfl
      exact Nat.lt_irrefl _ within
    exact skip_plain (plain_of_suffix malformed some) opens more
  | noExpression =>
    cases left with
    | nil =>
      simp only [Failure.recover, Failure.noExpression, List.nil_append, Option.map_some, opens]
      rfl
    | cons t left =>
      -- the refused token is not passed over again, be it the first word of the header or not
      have passed : t.kind.passed 0 = some 0 := by
        cases used with
        | nil =>
          obtain ⟨u, first, word⟩ := malformed.begins
          obtain rfl := Option.some.inj first
          have words : ∀ k ∈ Kind.headers, k.passed 0 = some 0 := by decide
          exact words _ word
        | cons u used => exact (passed_plain (malformed.plain t (by simp))).1
      have later : ∀ u ∈ left, u.kind ∉ Kind.limits := by
        have split : used ++ t :: left = (used ++ [t]) ++ left := by simp
        rw [split] at malformed
        exact plain_of_suffix malformed (by simp)
      simp only [Failure.recover, Failure.noExpression, List.cons_append, Option.map_some, passed]
      exact skip_plain later opens more

/-- A malformed header costs one failure and its body. -/
theorem readScript_malformed {body rest : List Token} {closing : Token} (malformed : Malformed header)
    (opens : opening.kind = .leftBrace) (closes : closing.kind = .rightBrace)
    (balanced : Balanced (body.map Token.kind)) :
    ∃ x : Failure, (∀ stop, x.offender stop ∈ header ++ [opening]) ∧
      readScript (header ++ opening :: (body ++ closing :: rest)) = ((readScript rest).1, x :: (readScript rest).2) := by
  cases begins : header ++ opening :: (body ++ closing :: rest) with
  | nil => simp at begins
  | cons t ahead =>
    obtain ⟨⟨x, within⟩, ks, left, failed, behind, level, refused⟩ := halts_in_header malformed opens begins
    rw [← begins] at behind
    obtain ⟨used, later, rfl, rfl⟩ := split_of_behind behind level opens
    refine ⟨x, fun stop => ?_, ?_⟩
    · rw [offender_eq, tokens_of_refused refused]
      cases later <;> simp
    · have shorter : x.ahead.length < (used ++ later ++ opening :: (body ++ closing :: rest)).length := by
        rw [begins]
        exact Nat.lt_succ_of_le within
      have recovered : x.recover = rest := by
        rw [recover_in_header malformed opens refused shorter]
        exact skip_body ((balanced_iff_closes _).mp balanced) closes rest
      rw [readScript, failed]
      simp only [recovered, List.nil_append]

end

/-! ## Sources -/

/-- Tokens of the same contents are the same tokens at other places. -/
theorem exists_move {ts ts' : List Token} (distinct : (ts.map Token.position).Nodup)
    (same : ts'.map Token.content = ts.map Token.content) : ∃ f, ts.map (Token.move f) = ts' := by
  induction ts generalizing ts' with
  | nil =>
    obtain rfl := List.map_eq_nil_iff.mp same
    exact ⟨id, rfl⟩
  | cons t ts ih =>
    obtain ⟨t', ts', rfl, first, same⟩ := List.map_eq_cons_iff.mp same
    obtain ⟨other, distinct⟩ := List.nodup_cons.mp distinct
    obtain ⟨f, rfl⟩ := ih distinct same
    refine ⟨Function.update f t.position t'.position, ?_⟩
    have moved : t.move (Function.update f t.position t'.position) = t' := by
      obtain ⟨kind, literal, position⟩ := t'
      obtain ⟨rfl, rfl⟩ := Prod.mk.inj first
      simp [Token.move]
    have others : ∀ u ∈ ts, u.move (Function.update f t.position t'.position) = u.move f := by
      intro u member
      have apart : u.position ≠ t.position := fun equal => other (equal ▸ List.mem_map_of_mem member)
      simp [Token.move, Function.update_of_ne apart]
    rw [List.map_cons, moved, List.map_congr_left others]

theorem nodup_positions (source : String) : ((tokenize source).map Token.position).Nodup := by
  have located : Located source.toList 0 _ _ := located_of_laid (laid_readAll (.ofSource source)) [] rfl
  rw [List.nodup_iff_pairwise_ne, List.pairwise_map]
  refine List.Pairwise.imp ?_ located.ordered
  intro a b less same
  rw [same] at less
  exact Nat.lt_irrefl _ less

/-- Where a header is malformed, a single diagnostic is about it or about the brace behind it, nothing of it or
    of its body is kept, whatever the body is, and what stands behind is read as if it stood alone. -/
theorem malformed_header_skipped {header body rest : List Token} {opening closing : Token} (malformed : Malformed header)
    (opens : opening.kind = .leftBrace) (closes : closing.kind = .rightBrace)
    (balanced : Balanced (body.map Token.kind)) :
    ∃ x : Failure, (∀ stop, x.offender stop ∈ header ++ [opening]) ∧
      readScript (header ++ opening :: (body ++ closing :: rest)) = ((readScript rest).1, x :: (readScript rest).2) ∧
      ∀ source own : String, sourceTokens source = header ++ opening :: (body ++ closing :: rest) →
        rest.map Token.content = (sourceTokens own).map Token.content →
        ∃ f, tokenize source = header ++ opening :: (body ++ closing :: (tokenize own).map (Token.move f)) ∧
          parse source = ⟨(parse own).script.map (Stmt.move f),
            x.diagnostic (Scanner.ofSource source).readAll.2 :: (parse own).diagnostics.map (Diagnostic.move f)⟩ := by
  obtain ⟨x, offender, skipped⟩ := @readScript_malformed header opening body rest closing malformed opens closes balanced
  refine ⟨x, offender, skipped, fun source own tokens same => ?_⟩
  have mark : ∀ text : String, (Scanner.ofSource text).readAll.2.content = (.eof, "") :=
    fun text => stop_of_laid (laid_readAll (.ofSource text))
  have contents : (rest ++ [(Scanner.ofSource source).readAll.2]).map Token.content =
      (tokenize own).map Token.content := by
    rw [contents_eq, List.map_append, same, List.map_singleton, mark]
  obtain ⟨f, moved⟩ := exists_move (nodup_positions own) contents
  have parts : (sourceTokens own).map (Token.move f) = rest ∧
      (Scanner.ofSource own).readAll.2.move f = (Scanner.ofSource source).readAll.2 := by
    simpa [tokenize, sourceTokens] using moved
  obtain ⟨inside, stop⟩ := parts
  obtain ⟨elsewhere, -⟩ := @moves_readScript f (fun _ => True) (sourceTokens own) fun _ _ => trivial
  refine ⟨f, ?_, ?_⟩
  · rw [moved]
    show sourceTokens source ++ [_] = _
    rw [tokens]
    simp
  · have each : ((readScript (sourceTokens own)).2.map (Failure.move f)).map
        (·.diagnostic (Scanner.ofSource source).readAll.2) = (parse own).diagnostics.map (Diagnostic.move f) := by
      rw [parse_eq, ← stop, List.map_map, List.map_map]
      exact List.map_congr_left fun y _ => diagnostic_move f y _
    rw [parse_eq source, tokens, skipped, ← inside, elsewhere, List.map_cons, each]
    rfl

/-- A comparison without its second operand, in front of a body with a return that has no value and of an
    assignment that has none. -/
def incompleteComparison : String :=
  "if (x <) \x7b return; \x7d y = ;"

/-- The header and the body of an incomplete comparison cost one diagnostic. -/
theorem malformed_header_skipped_of_comparison :
    Malformed ((sourceTokens incompleteComparison).take 5) ∧
      ∃ (x : Failure) (f : Position → Position),
        (∀ stop, x.offender stop ∈ (sourceTokens incompleteComparison).take 6) ∧
        parse incompleteComparison = ⟨(parse "y = ;").script.map (Stmt.move f),
          x.diagnostic (Scanner.ofSource incompleteComparison).readAll.2 ::
            (parse "y = ;").diagnostics.map (Diagnostic.move f)⟩ := by
  have malformed : Malformed ((sourceTokens incompleteComparison).take 5) := by
    refine ⟨by decide +kernel, by decide +kernel, fun header => ?_⟩
    -- with a body it would be a statement of the language, and reading would not fail on it
    have statement := statement_of_header header (.braces .nothing)
    have kinds : ((sourceTokens incompleteComparison).take 5 ++ sourceTokens "\x7b\x7d").map Token.kind =
        ((sourceTokens incompleteComparison).take 5).map Token.kind ++ [.leftBrace, .rightBrace] := by
      decide +kernel
    have accepted := (readScript_iff_derives ((sourceTokens incompleteComparison).take 5 ++
      sourceTokens "\x7b\x7d")).mpr (by rw [kinds]; simpa using Derives.more statement .nothing)
    exact absurd accepted (by decide +kernel)
  have tokens : sourceTokens incompleteComparison =
      (sourceTokens incompleteComparison).take 5 ++ ⟨.leftBrace, "\x7b", ⟨1, 10, 9⟩⟩ ::
        ([⟨.returnWord, "return", ⟨1, 12, 11⟩⟩, ⟨.semicolon, ";", ⟨1, 18, 17⟩⟩] ++
          ⟨.rightBrace, "\x7d", ⟨1, 20, 19⟩⟩ :: (sourceTokens incompleteComparison).drop 9) := by
    decide +kernel
  have header : (sourceTokens incompleteComparison).take 6 =
      (sourceTokens incompleteComparison).take 5 ++ [⟨.leftBrace, "\x7b", ⟨1, 10, 9⟩⟩] := by
    decide +kernel
  have balanced : Balanced [.returnWord, .semicolon] := by
    rw [balanced_iff_closes]
    rfl
  obtain ⟨x, offender, -, read⟩ := @malformed_header_skipped _
    [⟨.returnWord, "return", ⟨1, 12, 11⟩⟩, ⟨.semicolon, ";", ⟨1, 18, 17⟩⟩] ((sourceTokens incompleteComparison).drop 9)
    ⟨.leftBrace, "\x7b", ⟨1, 10, 9⟩⟩ ⟨.rightBrace, "\x7d", ⟨1, 20, 19⟩⟩ malformed rfl rfl balanced
  obtain ⟨f, -, read⟩ := read _ "y = ;" tokens (by decide +kernel)
  rw [← header] at offender
  exact ⟨malformed, x, f, offender, read⟩

end Stepwise
