import Stepwise.Proofs.Partition
import Stepwise.Proofs.Respacing
import Stepwise.Proofs.MovedScripts

/-!
The tokens of two texts with a line feed between them are those of the first and then those of the
second, at places behind the first (`readAll_joined`). The line feed ends what the first text ends
with, be it a word or a comment; only a string that is still open would go on.
-/
namespace Stepwise

/-! ## Layout in front of a text -/

theorem Laid.behind {p : Position} {gap text : List Char} {ts : List Token} {stop : Token} (layout : Layout gap)
    (laid : Laid (p.advanceBy gap) text ts stop) : Laid p (gap ++ text) ts stop := by
  cases laid with
  | @ended _ gap' trailing =>
    rw [← Position.advanceBy_append]
    exact .ended (trailing.behind layout)
  | @token _ gap' rest l ts stop layout' stands laid =>
    rw [← Position.advanceBy_append, ← List.append_assoc] at laid
    rw [← Position.advanceBy_append, ← List.append_assoc]
    exact .token (layout.append layout') stands laid

/-- A line feed ends the layout at the end of a text. -/
theorem Trailing.fed {gap : List Char} (trailing : Trailing gap) : Layout (gap ++ ['\n']) := by
  cases trailing with
  | closed layout => exact layout.append (.blank (by decide) .none)
  | comment layout inLine =>
    rw [List.append_assoc]
    exact layout.append (.comment inLine .none)

theorem Laid.empty {p : Position} {ts : List Token} {stop : Token} (laid : Laid p [] ts stop) : ts = [] := by
  generalize nothing : [] = text at laid
  cases laid with
  | ended trailing => rfl
  | token layout stands laid =>
    obtain ⟨-, none⟩ := List.append_eq_nil_iff.mp nothing.symm
    exact absurd (List.append_eq_nil_iff.mp none).1 (spelling_ne_nil stands)

/-- What is laid out in a text is laid out there at places that are moved, too, if walking over the text
    leads to the moved places. -/
theorem Laid.move {f : Position → Position} (walks : ∀ p c, f (p.advance c) = (f p).advance c) {p : Position}
    {text : List Char} {ts : List Token} {stop : Token} (laid : Laid p text ts stop) :
    Laid (f p) text (ts.map (Token.move f)) (stop.move f) := by
  have along (p : Position) (text : List Char) : f (p.advanceBy text) = (f p).advanceBy text := by
    induction text generalizing p with
    | nil => rfl
    | cons c text ih => rw [Position.advanceBy_cons, Position.advanceBy_cons, ih, walks]
  induction laid with
  | ended trailing =>
    rw [Token.move, along]
    exact .ended trailing
  | @token p gap rest l ts stop layout stands laid ih =>
    rw [List.map_cons, Token.move, along]
    rw [along] at ih
    exact .token layout stands ih

/-! ## Joined texts -/

/-- A token that is not left open stands in front of whatever begins with a blank behind its text. -/
theorem Lexeme.Stands.longer {l : Lexeme} {rest more : List Char} (stands : l.Stands rest)
    (whole : rest = [] → l.kind ≠ .illegal) (parted : ∀ c ∈ more.head?, isBlank c = true) :
    l.Stands (rest ++ more) := by
  cases rest with
  | nil =>
    have terminated : ¬ Token.Unterminated ⟨l.kind, l.literal, .start⟩ := fun open_ => whole rfl open_.1
    exact stands.respaced terminated parted
  | cons c rest =>
    cases stands with
    | string unquoted => exact .string unquoted
    | number some digital ends => exact .number some digital ends
    | word some alphabetic ends => exact .word some alphabetic ends
    | double found => exact .double found
    | single found ends => exact .single found ends
    | symbol found uncommented => exact .symbol found uncommented
    | stray stray => exact .stray stray

theorem Laid.join {p : Position} {text text' : List Char} {ts ts' : List Token} {stop stop' : Token}
    (laid : Laid p text ts stop) (closed : ∀ t ∈ ts.getLast?, t.kind ≠ .illegal)
    (laid' : Laid ((p.advanceBy text).advance '\n') text' ts' stop') :
    Laid p (text ++ '\n' :: text') (ts ++ ts') stop' := by
  induction laid with
  | @ended p gap trailing =>
    have fed : p.advanceBy (gap ++ ['\n']) = (p.advanceBy gap).advance '\n' := by
      rw [Position.advanceBy_append]
      rfl
    rw [← fed] at laid'
    have whole := laid'.behind trailing.fed
    rwa [List.append_assoc] at whole
  | @token p gap rest l ts stop layout stands laid ih =>
    have place : p.advanceBy (gap ++ (l.spelling ++ rest)) = (p.advanceBy (gap ++ l.spelling)).advanceBy rest := by
      rw [← List.append_assoc, Position.advanceBy_append]
    rw [place] at laid'
    have whole : rest = [] → l.kind ≠ .illegal := by
      rintro rfl
      obtain rfl := laid.empty
      exact closed _ rfl
    have later : ∀ t ∈ ts.getLast?, t.kind ≠ .illegal := by
      intro t last
      refine closed t ?_
      rw [List.getLast?_cons, Option.mem_def.mp last]
      rfl
    rw [List.append_assoc, List.append_assoc]
    exact .token layout (stands.longer whole (by simp [isBlank])) (ih later laid')

/-! ## Joined sources -/

/-- A place in a source, when the source stands behind another one and a line feed. -/
def Position.behind (source : String) (p : Position) : Position :=
  ⟨p.line + (source.toList.count '\n' + 1), p.column, p.offset + (source.length + 1)⟩

theorem behind_start (source : String) :
    Position.start.behind source = (Position.start.advanceBy source.toList).advance '\n' := by
  obtain ⟨line, -⟩ := advanceBy_start source.toList
  rw [Position.advance, if_pos rfl, Position.behind, line, offset_start, String.length_toList]
  simp only [Position.start, Position.mk.injEq, true_and]
  omega

theorem behind_advance (source : String) (p : Position) (c : Char) :
    (p.advance c).behind source = (p.behind source).advance c := by
  unfold Position.advance Position.behind
  split
  · simp only [Position.mk.injEq, true_and]
    omega
  · simp only [Position.mk.injEq, true_and]
    omega

theorem toList_joined (a b : String) : (a ++ "\n" ++ b).toList = a.toList ++ '\n' :: b.toList := by
  simp

/-- The tokens of two sources with a line feed between them, and the end mark. -/
theorem readAll_joined {a : String} (closed : ∀ t ∈ (sourceTokens a).getLast?, t.kind ≠ .illegal) (b : String) :
    (Scanner.ofSource (a ++ "\n" ++ b)).readAll =
      (sourceTokens a ++ (sourceTokens b).map (Token.move (Position.behind a)),
        (Scanner.ofSource b).readAll.2.move (Position.behind a)) := by
  have first := laid_readAll (.ofSource a)
  have second := (laid_readAll (.ofSource b)).move (behind_advance a)
  have place : Position.behind a (Scanner.ofSource b).position = (Position.start.advanceBy a.toList).advance '\n' :=
    behind_start a
  rw [place] at second
  have whole := first.join closed second
  rw [readAll_eq_iff]
  show Laid .start (a ++ "\n" ++ b).toList _ _
  rw [toList_joined]
  exact whole

end Stepwise
