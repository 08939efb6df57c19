import Stepwise.Proofs.Layout
import Stepwise.Proofs.Scripts
import Stepwise.Proofs.Statements

/-!
What is accepted. A script is read without any failure exactly if the grammar derives the kinds
of its tokens (`accepted_iff_derives`): what is read without a failure is derived
(`derives_of_readsAll`), and what is derived is read (`complete_script`).
-/
namespace Stepwise

/-! ## What is read is derived -/

theorem statement_of_header {ks b : List Kind} (header : Header ks) (body : Derives .block b) :
    Derives .statement (ks ++ b) := by
  cases header with
  | block => exact .inner body
  | branch condition => exact .branch condition body
  | loop condition => exact .loop condition body
  | define parameters => exact .define parameters body

/-- The kinds of what was read without a failure: a statement, or what is in a body with its
    closing brace. -/
def Site.Taken (ts rest : List Token) : Site → Prop
  | statement => ∃ ks, Behind ts ks rest ∧ Derives .statement ks
  | body => ∃ ks, Behind ts (ks ++ [.rightBrace]) rest ∧ Derives .script ks

theorem taken_of_reads {site : Site} {ts rest : List Token} {nested : List Failure}
    {result : Except Failure (List Token)} (reads : Reads site ts nested result) (clean : nested = [])
    (ok : result = .ok rest) : site.Taken ts rest := by
  induction reads generalizing rest with
  | whole behind bodiless =>
    cases ok
    exact ⟨_, behind, bodiless.1⟩
  | refused => cases ok
  | unclosed => cases ok
  | @single ts inner rest' ks nested behind header body ih =>
    cases ok
    obtain ⟨s, behind', script⟩ := ih clean rfl
    refine ⟨ks ++ ([.leftBrace] ++ s ++ [.rightBrace]), ?_, statement_of_header header (.braces script)⟩
    simpa using behind.trans behind'
  | cut => cases ok
  | @choice ts inner middle inner' c nested nested' result behind condition body otherwise alternative ih ih' =>
    obtain ⟨rfl, rfl⟩ := List.append_eq_nil_iff.mp clean
    obtain ⟨s, behind', script⟩ := ih rfl rfl
    obtain ⟨s', behind'', script'⟩ := ih' rfl ok
    refine ⟨_, ?_, .choice condition (.braces script) (.braces script')⟩
    simpa using behind.trans (behind'.trans (otherwise.trans behind''))
  | ended => cases ok
  | @closed t ahead closes =>
    cases ok
    exact ⟨[], behind_first closes ahead, .nothing⟩
  | more other statement body ih ih' =>
    obtain ⟨rfl, rfl⟩ := List.append_eq_nil_iff.mp clean
    obtain ⟨s, behind, derives⟩ := ih rfl rfl
    obtain ⟨ks, behind', script⟩ := ih' rfl ok
    refine ⟨s ++ ks, ?_, .more derives script⟩
    simpa using behind.trans behind'
  | recovered => simp at clean

theorem derives_of_readsAll {ts : List Token} {failures : List Failure} (reads : ReadsAll ts failures)
    (clean : failures = []) : Derives .script (ts.map Token.kind) := by
  induction reads with
  | nothing => exact .nothing
  | more statement script ih =>
    obtain ⟨rfl, rfl⟩ := List.append_eq_nil_iff.mp clean
    obtain ⟨ks, ⟨used, split, rfl⟩, derives⟩ := taken_of_reads statement rfl rfl
    rw [← split, List.map_append]
    exact .more derives (ih rfl)
  | recovered => simp at clean

/-! ## What is derived is read -/

/-- A script is read without a failure exactly if it is derived. -/
theorem readScript_iff_derives (ts : List Token) : (readScript ts).2 = [] ↔ Derives .script (ts.map Token.kind) := by
  constructor
  · exact derives_of_readsAll (reads_script ts)
  · exact complete_script (Nat.le_refl _)

/-! ## Sources -/

/-- The kinds of the tokens of a source, up to its end. -/
def sourceKinds (source : String) : List Kind :=
  ((tokenize source).map Token.kind).takeWhile (· ≠ .eof)

theorem sourceKinds_eq (source : String) :
    sourceKinds source = (Scanner.ofSource source).readAll.1.map Token.kind := by
  have laid := laid_readAll (.ofSource source)
  have stop : (Scanner.ofSource source).readAll.2.kind = .eof := congrArg Prod.fst (stop_of_laid laid)
  simp only [sourceKinds, tokenize, List.map_append, List.map_singleton, stop]
  rw [List.takeWhile_append_of_pos]
  · simp
  · simpa using inside_of_laid laid

/-- A source is accepted exactly if the grammar derives its tokens, and then there are none
    that do not belong in a script, and its braces are balanced. -/
theorem accepted_iff_derives (source : String) :
    ((parse source).diagnostics = [] ↔ Derives .script (sourceKinds source)) ∧
      ((parse source).diagnostics = [] →
        (∀ k ∈ [.illegal, .leftBracket, .rightBracket], k ∉ sourceKinds source) ∧ Balanced (sourceKinds source)) := by
  have accepted : (parse source).diagnostics = [] ↔ Derives .script (sourceKinds source) := by
    rw [sourceKinds_eq, ← readScript_iff_derives]
    simp [parse]
  refine ⟨accepted, fun clean => ?_⟩
  have derives := accepted.mp clean
  refine ⟨?_, balanced_of_derives derives⟩
  intro k strange member
  have outside : ∀ k ∈ [Kind.illegal, .leftBracket, .rightBracket], k.inScript = false := by decide
  have inside : k.inScript = true := admits_of_derives derives k member
  rw [outside k strange] at inside
  cases inside

end Stepwise
