import Stepwise.Proofs.MovedRuns
import Stepwise.Proofs.MovedScripts
import Stepwise.Proofs.Respacing
import Stepwise.Rehearsal.Host

/-!
Layout does not matter (`layout_irrelevant`). Other layout gives tokens of the same contents, and
what is read of a source, and what running it does, depends on nothing else: with all places taken
away (`nowhere`), sources of the same contents are read and run alike.
-/
namespace Stepwise

/-- No place in particular. -/
def nowhere (_ : Position) : Position :=
  .start

/-- A statement without its places. -/
def Stmt.bare (s : Stmt) : Stmt :=
  s.move nowhere

/-- What a diagnostic says, wherever it is shown. -/
def Diagnostic.wording (d : Diagnostic) : String × Nat :=
  (d.message, d.width)

/-- Two sources are read alike: the same statements at whatever places, and diagnostics of the same
    wording. -/
structure Parsed.Alike (p p' : Parsed) : Prop where
  script : p'.script.map Stmt.bare = p.script.map Stmt.bare
  diagnostics : p'.diagnostics.map Diagnostic.wording = p.diagnostics.map Diagnostic.wording

/-- Two runs end alike: in the same way and with the same host, and with memories that differ at most
    in the places of functions. -/
structure Evaluation.Alike {σ : Type} (e e' : Evaluation σ) : Prop where
  state : e'.state = e.state
  ending : e'.ending = e.ending
  bindings : ∀ f, e'.memory.store.bindings f = e.memory.store.bindings f
  depth : e'.memory.depth = e.memory.depth
  memory : e'.memory.move nowhere = e.memory.move nowhere

/-! ## Reading -/

/-- A token of some content, nowhere in particular. -/
def Token.ofContent (c : Kind × String) : Token :=
  ⟨c.1, c.2, .start⟩

theorem map_ofContent (ts : List Token) : (ts.map Token.content).map Token.ofContent = ts.map (Token.move nowhere) := by
  rw [List.map_map]
  rfl

theorem wording_move (f : Position → Position) (x : Failure) (stop : Token) :
    ((x.move f).diagnostic (stop.move f)).wording = (x.diagnostic stop).wording := by
  obtain ⟨complaint, entered, ahead⟩ := x
  cases entered with
  | some t => rfl
  | none => cases ahead <;> rfl

/-- The end mark of a source, wherever it is. -/
def Token.mark : Token :=
  ⟨.eof, "", .start⟩

/-- What is read of a source, without its places. -/
theorem parse_bare (source : String) :
    (parse source).script.map Stmt.bare = (readScript ((sourceTokens source).map (Token.move nowhere))).1 ∧
      (parse source).diagnostics.map Diagnostic.wording =
        (readScript ((sourceTokens source).map (Token.move nowhere))).2.map fun x =>
          (x.diagnostic .mark).wording := by
  have laid := laid_readAll (.ofSource source)
  have mark : (Scanner.ofSource source).readAll.2.move nowhere = .mark :=
    congrArg Token.ofContent (stop_of_laid laid)
  obtain ⟨moved, -⟩ := @moves_readScript nowhere (fun _ => True) (sourceTokens source) fun _ _ => trivial
  rw [moved]
  refine ⟨rfl, ?_⟩
  simp only [parse, List.map_map, sourceTokens]
  refine List.map_congr_left fun x _ => ?_
  have same := wording_move nowhere x (Scanner.ofSource source).readAll.2
  rw [mark] at same
  exact same.symm

theorem alike_parse {source source' : String}
    (same : (tokenize source').map Token.content = (tokenize source).map Token.content) :
    (parse source).Alike (parse source') := by
  rw [contents_eq, contents_eq] at same
  have tokens := congrArg (List.map Token.ofContent) (List.append_cancel_right same)
  rw [map_ofContent, map_ofContent] at tokens
  obtain ⟨script, diagnostics⟩ := parse_bare source
  obtain ⟨script', diagnostics'⟩ := parse_bare source'
  rw [tokens] at script' diagnostics'
  exact ⟨script'.trans script.symm, diagnostics'.trans diagnostics.symm⟩

/-! ## Running -/

theorem alike_execute {σ ι : Type} (host : Host σ ι) (setting : Setting) (fuel : Nat) (state : σ) (memory : Memory)
    {script script' : List Stmt} (scope : FrameId) (same : script'.map Stmt.bare = script.map Stmt.bare) :
    (execute host setting fuel state memory script scope).Alike
      (execute host setting fuel state memory script' scope) := by
  have first := execute_move nowhere host setting fuel state memory script scope
  have second := execute_move nowhere host setting fuel state memory script' scope
  have scripts : script'.map (Stmt.move nowhere) = script.map (Stmt.move nowhere) := same
  rw [scripts] at second
  have whole := second.symm.trans first
  generalize execute host setting fuel state memory script scope = e at whole
  generalize execute host setting fuel state memory script' scope = e' at whole
  have memories : e'.memory.move nowhere = e.memory.move nowhere := congrArg Evaluation.memory whole
  have state := congrArg Evaluation.state whole
  have ending := congrArg Evaluation.ending whole
  have depth := congrArg Memory.depth memories
  refine ⟨state, ending, fun f => ?_, depth, memories⟩
  have frames := congrArg (fun m => m.store.bindings f) memories
  simpa only [Memory.move, bindings_move] using frames

/-- Layout does not matter: tokens that stay apart keep their contents in any other layout, and
    sources whose tokens have the same contents are read alike and, if nothing in them is
    malformed, run alike. -/
theorem layout_irrelevant :
    (∀ source source' : String, (∀ t ∈ tokenize source, ¬ t.Unterminated) →
      Respaced ((sourceTokens source).map Token.spelling) source'.toList →
      (tokenize source').map Token.content = (tokenize source).map Token.content) ∧
    ∀ source source' : String, (tokenize source').map Token.content = (tokenize source).map Token.content →
      (parse source).Alike (parse source') ∧
      ((parse source).diagnostics = [] → ∀ {σ ι : Type} (host : Host σ ι) (setting : Setting) (fuel : Nat) (state : σ)
        (memory : Memory) (scope : FrameId), ∃ e e',
          evaluate host setting fuel state memory source scope = .ok e ∧
            evaluate host setting fuel state memory source' scope = .ok e' ∧ e.Alike e') := by
  refine ⟨fun source source' => contents_respaced, fun source source' same => ?_⟩
  have alike := alike_parse same
  refine ⟨alike, fun clean σ ι host setting fuel state memory scope => ?_⟩
  have clean' : (parse source').diagnostics = [] := by
    have none := alike.diagnostics
    rw [clean] at none
    exact List.map_eq_nil_iff.mp none
  refine ⟨_, _, ?_, ?_, alike_execute host setting fuel state memory scope alike.script⟩
  · simp only [evaluate, clean, List.isEmpty_nil, if_pos]
  · simp only [evaluate, clean', List.isEmpty_nil, if_pos]

/-- A comment between a number and the semicolon behind it. -/
theorem layout_irrelevant_of_comment :
    (tokenize " 1 // one\n;").map Token.content = (tokenize "1;").map Token.content ∧
      (parse "1;").Alike (parse " 1 // one\n;") ∧
      ∃ e e', evaluate Rehearsal.host ⟨1000, .empty⟩ 9 (.start none) Memory.start.1 "1;" Memory.start.2 = .ok e ∧
        evaluate Rehearsal.host ⟨1000, .empty⟩ 9 (.start none) Memory.start.1 " 1 // one\n;" Memory.start.2 = .ok e' ∧
        e.Alike e' := by
  have spellings : (sourceTokens "1;").map Token.spelling = [['1'], [';']] := by decide +kernel
  have text : " 1 // one\n;".toList =
      [' '] ++ (['1'] ++ ((' ' :: '/' :: '/' :: (" one".toList ++ ['\n'])) ++ ([';'] ++ []))) := by decide
  have respaced : Respaced ((sourceTokens "1;").map Token.spelling) " 1 // one\n;".toList := by
    have comment : Layout (' ' :: '/' :: '/' :: (" one".toList ++ ['\n'])) := .blank rfl (.comment (by decide) .none)
    rw [spellings, text]
    refine .next (.blank rfl .none) ?_ (.next comment ?_ (.last (.closed .none)))
    · simp [isBlank]
    · simp
  have same := layout_irrelevant.1 "1;" " 1 // one\n;" (by decide +kernel) respaced
  obtain ⟨alike, running⟩ := layout_irrelevant.2 "1;" " 1 // one\n;" same
  have clean : (parse "1;").diagnostics = [] := by decide +kernel
  exact ⟨same, alike, running clean Rehearsal.host ⟨1000, .empty⟩ 9 (.start none) Memory.start.1 Memory.start.2⟩

end Stepwise
