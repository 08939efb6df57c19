import Stepwise.Proofs.Acceptance

/-!
Braces in malformed scripts. Recovery passes over a braced body as a whole, so what is left of
a script closes the braces that were open before (`closes_skipStatement`), unless the refused
token was itself a closing brace: that one is lost to the body it was to close
(`closes_recover`). So where the braces of a source balance, a body is found to have no end
exactly if a closing brace was refused as the beginning of an expression
(`unclosed_iff_brace_refused`), and that can happen (`unclosed_of_balanced`).
-/
namespace Stepwise

/-- A body has no end. -/
def Complaint.unclosed : Complaint :=
  .expected Kind.rightBrace.describe .eof

/-- A closing brace stands where an expression had to begin. -/
def Complaint.braceRefused : Complaint :=
  .noExpression .rightBrace

/-- How many closing braces the failures took away from bodies. -/
def lost (failures : List Failure) : Nat :=
  (failures.map Failure.complaint).count .braceRefused

@[simp] theorem lost_append (failures failures' : List Failure) :
    lost (failures ++ failures') = lost failures + lost failures' := by
  simp [lost]

theorem lost_single {f : Failure} (other : f.complaint ≠ .braceRefused) : lost [f] = 0 := by
  simp [lost, List.count_cons_of_ne other]

/-! ## Passing over a malformed statement -/

section

variable {opened depth : Nat}

theorem passed_of_level {k : Kind} (other : k.isBrace = false) : (k.passed depth).getD 0 = depth := by
  cases k with
  | leftBrace | rightBrace => cases other
  | semicolon => by_cases outside : depth = 0 <;> simp [Kind.passed, outside]
  | _ => rfl

theorem passed_rightBrace : (Kind.rightBrace.passed depth).getD 0 = depth - 1 := by
  by_cases outermost : depth = 1 <;> simp [Kind.passed, outermost]

/-- A token of a malformed statement, other than a brace that closes what is around it. -/
theorem closes_passed {k : Kind} {ks : List Kind} (inside : k = .rightBrace → depth ≠ 0)
    (closes : Closes (opened + depth) (k :: ks)) : Closes (opened + (k.passed depth).getD 0) ks := by
  cases brace : k.isBrace with
  | false =>
    rw [passed_of_level brace]
    exact (closes_cons brace).mp closes
  | true =>
    cases k with
    | leftBrace => exact closes_leftBrace.mp closes
    | rightBrace =>
      have within := inside rfl
      obtain ⟨less, same, closes⟩ := closes_rightBrace.mp closes
      have fewer : opened + (depth - 1) = less := by omega
      rwa [passed_rightBrace, fewer]
    | _ => cases brace

/-- What is left behind a malformed statement, `depth` braces into it, closes the braces opened
    before it. -/
theorem closes_skipStatement {ts : List Token} (closes : Closes (opened + depth) (ts.map Token.kind)) :
    Closes opened ((skipStatement depth ts).map Token.kind) := by
  fun_induction skipStatement depth ts with
  | case1 depth =>
    have none := closes_nil.mp closes
    exact closes_nil.mpr (by omega)
  | case2 depth t ahead stops => simpa [stops.1] using closes
  | case3 depth t ahead goesOn ends =>
    have inside : t.kind = .rightBrace → depth ≠ 0 := fun same none => goesOn ⟨none, by rw [same]; rfl⟩
    have left := closes_passed inside closes
    rwa [ends] at left
  | case4 depth t ahead goesOn depth' passed ih =>
    have inside : t.kind = .rightBrace → depth ≠ 0 := fun same none => goesOn ⟨none, by rw [same]; rfl⟩
    have left := closes_passed inside closes
    rw [passed] at left
    exact ih left

end

theorem unclosed_ne_of_refused {rest : List Token} {f : Failure} (refused : Refused rest f) :
    f.complaint ≠ .unclosed := by
  cases refused with
  | unexpected other => exact fun same => other (Complaint.expected.inj same).1
  | noExpression =>
    cases rest with
    | nil => exact Complaint.noConfusion
    | cons t ahead =>
      unfold Failure.noExpression
      dsimp only
      split <;> exact Complaint.noConfusion

theorem lost_noExpression {t : Token} (ahead : List Token) (other : t.kind ≠ .rightBrace) :
    lost [.noExpression (t :: ahead)] = 0 := by
  refine lost_single ?_
  unfold Failure.noExpression
  dsimp only
  split
  · exact Complaint.noConfusion
  · exact fun same => other (Complaint.noExpression.inj same)

/-- Recovery loses the closing brace that was refused, and no other. -/
theorem closes_recover {opened : Nat} {rest : List Token} {f : Failure} (refused : Refused rest f)
    (closes : Closes opened (rest.map Token.kind)) :
    ∃ left, Closes left (f.recover.map Token.kind) ∧ left + lost [f] = opened := by
  cases refused with
  | unexpected other => exact ⟨opened, closes_skipStatement closes, rfl⟩
  | noExpression =>
    cases rest with
    | nil => exact ⟨opened, closes, rfl⟩
    | cons t ahead =>
      by_cases brace : t.kind = .rightBrace
      · rw [List.map_cons, brace] at closes
        obtain ⟨less, rfl, closes⟩ := closes_rightBrace.mp closes
        refine ⟨less, ?_, ?_⟩
        · simp only [Failure.recover, Failure.noExpression, Option.map_some, brace]
          exact closes_skipStatement closes
        · simp [Failure.noExpression, brace, lost, Complaint.braceRefused]
      · have left : Closes (opened + (t.kind.passed 0).getD 0) (ahead.map Token.kind) :=
          closes_passed (fun same => absurd same brace) closes
        refine ⟨opened, ?_, by rw [lost_noExpression ahead brace, Nat.add_zero]⟩
        simp only [Failure.recover, Failure.noExpression, Option.map_some]
        cases passed : t.kind.passed 0 with
        | none => rwa [passed] at left
        | some depth =>
          rw [passed] at left
          exact closes_skipStatement left

/-- What stands behind tokens without braces closes what they close. -/
theorem closes_behind {opened : Nat} {ts rest : List Token} {ks : List Kind} (behind : Behind ts ks rest)
    (level : Level ks) (closes : Closes opened (ts.map Token.kind)) : Closes opened (rest.map Token.kind) := by
  obtain ⟨used, rfl, rfl⟩ := behind
  rw [List.map_append] at closes
  exact (closes_level level).mp closes

/-- What stands behind an opening brace closes it too. -/
theorem closes_inside {opened : Nat} {ts rest : List Token} {ks : List Kind}
    (behind : Behind ts (ks ++ [.leftBrace]) rest) (level : Level ks) (closes : Closes opened (ts.map Token.kind)) :
    Closes (opened + 1) (rest.map Token.kind) := by
  obtain ⟨used, rfl, same⟩ := behind
  rw [List.map_append, same, List.append_assoc, closes_level level] at closes
  exact closes_leftBrace.mp closes

theorem level_of_header {ks : List Kind} (header : Header ks) : Level ks := by
  cases header with
  | block => simp [Level]
  | branch condition => exact level_of_condition rfl condition
  | loop condition => exact level_of_condition rfl condition
  | define parameters => exact level_of_signature parameters

/-! ## Braces in statements and bodies -/

/-- Every body had its end, and what is left closes the braces that were opened, but for those
    that were lost. -/
def Kept (opened : Nat) (failures : List Failure) (rest : List Token) : Prop :=
  .unclosed ∉ failures.map Failure.complaint ∧
    ∃ left, Closes left (rest.map Token.kind) ∧ left + lost failures = opened

/-- How many of the open braces a reader is to close. -/
def Site.depth : Site → Nat
  | statement => 0
  | body => 1

/-- What reading comes to, with so many braces opened before it: the reader closes its own and
    the others are kept, or more braces were lost than there are around the reader. -/
inductive Settled : Site → Nat → List Failure → Except Failure (List Token) → Prop where
  | ok {site : Site} {opened around : Nat} {nested : List Failure} {rest : List Token}
      (own : around + site.depth = opened) (kept : Kept around nested rest) : Settled site opened nested (.ok rest)
  | malformed {opened : Nat} {nested : List Failure} {f : Failure} (kept : Kept opened (nested ++ [f]) f.recover) :
      Settled .statement opened nested (.error f)
  | unclosed {site : Site} {opened : Nat} {nested : List Failure} (short : opened < lost nested + site.depth) :
      Settled site opened nested (.error (.unexpected Kind.rightBrace.describe []))

section

variable {site : Site} {opened : Nat} {nested failures : List Failure} {rest : List Token}
  {result : Except Failure (List Token)}

theorem Kept.after {left : Nat} {rest' : List Token} (closed : .unclosed ∉ failures.map Failure.complaint)
    (kept : Kept left nested rest') : Kept (left + lost failures) (failures ++ nested) rest' := by
  obtain ⟨closed', left', closes', rfl⟩ := kept
  refine ⟨?_, left', closes', ?_⟩
  · rw [List.map_append, List.mem_append]
    exact fun member => member.elim closed closed'
  · rw [lost_append]
    omega

/-- What is read behind failures that kept the braces. -/
theorem Settled.after (first : Kept opened failures rest)
    (next : ∀ left, Closes left (rest.map Token.kind) → Settled site left nested result) :
    Settled site opened (failures ++ nested) result := by
  obtain ⟨closed, left, closes, rfl⟩ := first
  cases next left closes with
  | ok own kept => exact .ok (by omega) (kept.after closed)
  | malformed kept =>
    refine .malformed ?_
    rw [List.append_assoc]
    exact kept.after closed
  | unclosed short =>
    refine .unclosed ?_
    rw [lost_append]
    omega

/-- A statement whose last body closes the brace that was opened for it. -/
theorem Settled.enclosed (body : Settled .body (opened + 1) nested result) :
    Settled .statement opened nested result := by
  cases body with
  | ok own kept =>
    obtain rfl := Nat.add_right_cancel own
    exact .ok rfl kept
  | unclosed short => exact .unclosed (Nat.lt_of_succ_lt_succ short)

theorem settled_of_refused {f : Failure} (refused : Refused rest f) (closes : Closes opened (rest.map Token.kind)) :
    Settled .statement opened [] (.error f) := by
  refine .malformed ⟨?_, closes_recover refused closes⟩
  rw [List.nil_append, List.map_singleton, List.mem_singleton]
  exact (unclosed_ne_of_refused refused).symm

end

/-- Reading keeps the braces, but for those that are refused. -/
theorem settled_of_reads {site : Site} {opened : Nat} {ts : List Token} {nested : List Failure}
    {result : Except Failure (List Token)} (reads : Reads site ts nested result)
    (closes : Closes opened (ts.map Token.kind)) : Settled site opened nested result := by
  induction reads generalizing opened with
  | whole behind bodiless =>
    have left := closes_behind behind bodiless.2 closes
    exact .ok rfl ⟨by simp, opened, left, rfl⟩
  | refused behind level refused => exact settled_of_refused refused (closes_behind behind level closes)
  | unclosed behind header body ih => exact (ih (closes_inside behind (level_of_header header) closes)).enclosed
  | single behind header body ih => exact (ih (closes_inside behind (level_of_header header) closes)).enclosed
  | cut behind condition body otherwise refused ih =>
    cases ih (closes_inside behind (level_of_condition rfl condition) closes) with
    | ok own kept =>
      obtain rfl := Nat.add_right_cancel own
      have settled := Settled.after kept fun left closes =>
        settled_of_refused refused (closes_behind otherwise (level_single rfl) closes)
      rwa [List.append_nil] at settled
  | choice behind condition body otherwise alternative ih ih' =>
    cases ih (closes_inside behind (level_of_condition rfl condition) closes) with
    | ok own kept =>
      obtain rfl := Nat.add_right_cancel own
      have behind' : Behind _ ([.elseWord] ++ [.leftBrace]) _ := otherwise
      exact .after kept fun left closes => (ih' (closes_inside behind' (level_single rfl) closes)).enclosed
  | ended =>
    obtain rfl := closes_nil.mp closes
    exact .unclosed (Nat.zero_lt_one)
  | @closed t ahead ends =>
    rw [List.map_cons, ends] at closes
    obtain ⟨less, rfl, closes⟩ := closes_rightBrace.mp closes
    exact .ok rfl ⟨by simp, less, closes, rfl⟩
  | more other statement body ih ih' =>
    cases ih closes with
    | ok own kept =>
      obtain rfl := own
      exact .after kept fun left closes => ih' closes
  | recovered other statement body ih ih' =>
    cases ih closes with
    | malformed kept => exact .after kept fun left closes => ih' closes
    | unclosed short =>
      have none : Closes 0 ((Failure.unexpected Kind.rightBrace.describe []).recover.map Token.kind) := rfl
      cases ih' none with
      | ok own => exact absurd own (Nat.succ_ne_zero _)
      | unclosed =>
        refine .unclosed ?_
        simp only [Site.depth, lost_append] at short ⊢
        omega

/-! ## Scripts -/

theorem lost_eq_zero_iff (failures : List Failure) :
    lost failures = 0 ↔ .braceRefused ∉ failures.map Failure.complaint :=
  List.count_eq_zero

/-- Where no braces are open, none can be lost. -/
theorem Kept.none {failures : List Failure} {rest : List Token} (kept : Kept 0 failures rest) :
    .unclosed ∉ failures.map Failure.complaint ∧ .braceRefused ∉ failures.map Failure.complaint ∧
      Closes 0 (rest.map Token.kind) := by
  obtain ⟨closed, left, closes, none⟩ := kept
  obtain ⟨rfl, clean⟩ := Nat.add_eq_zero_iff.mp none
  exact ⟨closed, (lost_eq_zero_iff failures).mp clean, closes⟩

theorem unclosed_iff_of_readsAll {ts : List Token} {failures : List Failure} (reads : ReadsAll ts failures)
    (closes : Closes 0 (ts.map Token.kind)) :
    .unclosed ∈ failures.map Failure.complaint ↔ .braceRefused ∈ failures.map Failure.complaint := by
  induction reads with
  | nothing => simp
  | more statement script ih =>
    cases settled_of_reads statement closes with
    | ok own kept =>
      obtain rfl := own
      obtain ⟨closed, clean, closes⟩ := kept.none
      simp only [List.map_append, List.mem_append, closed, clean, false_or]
      exact ih closes
  | @recovered t ahead nested failures f statement script ih =>
    rw [← List.singleton_append, ← List.append_assoc, List.map_append, List.mem_append, List.mem_append]
    cases settled_of_reads statement closes with
    | malformed kept =>
      obtain ⟨closed, clean, closes⟩ := kept.none
      simp only [closed, clean, false_or]
      exact ih closes
    | unclosed short =>
      have refused : .braceRefused ∈ nested.map Failure.complaint := by
        by_contra clean
        rw [(lost_eq_zero_iff nested).mpr clean] at short
        exact Nat.lt_irrefl 0 short
      refine iff_of_true (.inl ?_) (.inl ?_) <;> rw [List.map_append, List.mem_append]
      · exact .inr (List.mem_singleton_self _)
      · exact .inl refused

/-! ## Messages -/

/-- No other word for a kind ends like the one for the end of the source. -/
theorem eof_of_last {before : String} {found : Kind} (same : (before ++ found.describe).toList.getLast? = some 'F') :
    found = .eof := by
  rw [String.toList_append, List.getLast?_append] at same
  cases found <;> first | rfl | exact absurd same (by simp [Kind.describe])

theorem message_eq_unclosed (c : Complaint) : c.message = "expected \x7d, got EOF" ↔ c = .unclosed := by
  have worded : Complaint.unclosed.message = "expected \x7d, got EOF" := by decide
  constructor
  · intro same
    unfold Complaint.message at same
    cases c with
    | expected what found =>
      dsimp only at same
      have last : "expected \x7d, got EOF".toList.getLast? = some 'F' := by decide
      rw [← same] at last
      obtain rfl := eof_of_last last
      rw [← worded] at same
      unfold Complaint.message Complaint.unclosed at same
      rw [String.append_left_inj, String.append_left_inj, String.append_right_inj] at same
      rw [same, Complaint.unclosed]
    | illegal => exact absurd (congrArg String.toList same) (by simp)
    | noExpression => exact absurd (congrArg String.toList same) (by simp)
  · rintro rfl
    exact worded

theorem message_eq_braceRefused (c : Complaint) :
    c.message = "no prefix parse function for \x7d found" ↔ c = .braceRefused := by
  have worded : Complaint.braceRefused.message = "no prefix parse function for \x7d found" := by decide
  constructor
  · intro same
    unfold Complaint.message at same
    cases c with
    | expected => exact absurd (congrArg String.toList same) (by simp)
    | illegal => exact absurd (congrArg String.toList same) (by simp)
    | noExpression found =>
      rw [← worded] at same
      unfold Complaint.message Complaint.braceRefused at same
      rw [String.append_left_inj, String.append_right_inj] at same
      have brace : found = .rightBrace := by_contra fun other => describe_ne_brace other same
      rw [brace, Complaint.braceRefused]
  · rintro rfl
    exact worded

/-- The diagnostics of a source have the complaints of the failures in its script. -/
theorem mem_messages {source message : String} {c : Complaint} (worded : ∀ c', c'.message = message ↔ c' = c) :
    message ∈ (parse source).diagnostics.map Diagnostic.message ↔
      c ∈ (readScript (Scanner.ofSource source).readAll.1).2.map Failure.complaint := by
  simp [parse, Failure.diagnostic, Diagnostic.message, worded]

/-- Where the braces of a source balance, whatever else is malformed in it, a body is found to
    have no end exactly if a closing brace was refused as the beginning of an expression. -/
theorem unclosed_iff_brace_refused (source : String) (balanced : Balanced (sourceKinds source)) :
    "expected \x7d, got EOF" ∈ (parse source).diagnostics.map Diagnostic.message ↔
      "no prefix parse function for \x7d found" ∈ (parse source).diagnostics.map Diagnostic.message := by
  rw [mem_messages message_eq_unclosed, mem_messages message_eq_braceRefused]
  rw [balanced_iff_closes, sourceKinds_eq] at balanced
  exact unclosed_iff_of_readsAll (reads_script _) balanced

/-- A value that is missing in front of a semicolon, and a name that is missing in front of the
    closing brace, leave the block its brace. -/
theorem closed_around_malformed :
    Balanced (sourceKinds "\x7b return; let \x7d x = 1") ∧
      "expected \x7d, got EOF" ∉ (parse "\x7b return; let \x7d x = 1").diagnostics.map Diagnostic.message := by
  have kinds : sourceKinds "\x7b return; let \x7d x = 1" =
      [.leftBrace, .returnWord, .semicolon, .letWord, .rightBrace, .identifier, .equal, .number] := by decide +kernel
  have balanced : Balanced (sourceKinds "\x7b return; let \x7d x = 1") := by
    rw [balanced_iff_closes, kinds]
    rfl
  have kept : "no prefix parse function for \x7d found" ∉
      (parse "\x7b return; let \x7d x = 1").diagnostics.map Diagnostic.message := by decide +kernel
  exact ⟨balanced, mt (unclosed_iff_brace_refused _ balanced).mp kept⟩

/-- A block whose last statement wants an expression in front of the closing brace loses it. -/
theorem unclosed_of_balanced :
    ¬ ∀ source, Balanced (sourceKinds source) →
      "expected \x7d, got EOF" ∉ (parse source).diagnostics.map Diagnostic.message := by
  intro closed
  have kinds : sourceKinds "\x7b return \x7d" = [.leftBrace, .returnWord, .rightBrace] := by decide +kernel
  refine closed "\x7b return \x7d" ?_ (by decide +kernel)
  rw [balanced_iff_closes, kinds]
  rfl

end Stepwise
