import Mathlib.Data.List.Chain
import Mathlib.Data.List.Induction
import Stepwise.Proofs.Layout

/-!
The tokens of a source text are a partition of it: they stand in it where their places say, and
there is nothing but layout between them (`tokens_partition`).
-/
namespace Stepwise

/-! ## Places -/

/-- Behind a stretch of text one is in the line that its line feeds tell, and behind the
    characters since the last of them. -/
theorem advanceBy_start (text : List Char) :
    (Position.start.advanceBy text).line = 1 + text.count '\n' ∧
      (Position.start.advanceBy text).column = 1 + (text.reverse.takeWhile (· ≠ '\n')).length := by
  induction text using List.reverseRecOn with
  | nil => exact ⟨rfl, rfl⟩
  | append_singleton text c ih =>
    obtain ⟨line, column⟩ := ih
    rw [Position.advanceBy_append, Position.advanceBy_cons, Position.advanceBy_nil, Position.advance]
    by_cases ends : c = '\n'
    · subst ends
      simp [line]
      omega
    · rw [if_neg ends]
      simp [line, column, ends]
      omega

/-! ## Tokens in a text -/

namespace Token

/-- Where the characters of a token end. -/
def finish (t : Token) : Nat :=
  t.position.offset + t.spelling.length

/-- What may stand in front of a token: layout, and in front of the end mark also a comment that
    does not end. -/
def Admits (t : Token) (gap : List Char) : Prop :=
  if t.kind = .eof then Trailing gap else Layout gap

end Token

/-- Tokens that are at their places in a text, behind its first `passed` characters. -/
structure Located (text : List Char) (passed : Nat) (ts : List Token) (stop : Token) : Prop where
  ended : stop.kind = .eof ∧ stop.position.offset = text.length
  inside : ∀ t ∈ ts, t.kind ≠ .eof
  later : ∀ t ∈ ts ++ [stop], passed ≤ t.position.offset
  ordered : (ts ++ [stop]).Pairwise fun a b => a.position.offset < b.position.offset
  spelled : ∀ t ∈ ts, t.spelling <+: text.drop t.position.offset
  leading : ∀ t ∈ (ts ++ [stop]).head?, t.Admits (text.extract passed t.position.offset)
  between : (ts ++ [stop]).IsChain fun a b =>
    a.finish ≤ b.position.offset ∧ b.Admits (text.extract a.finish b.position.offset)
  places : ∀ t ∈ ts ++ [stop], t.position = Position.start.advanceBy (text.take t.position.offset)

theorem offset_start (text : List Char) : (Position.start.advanceBy text).offset = text.length := by
  rw [Position.offset_advanceBy]
  exact Nat.zero_add _

/-- A token in front of tokens that are at their places. -/
theorem Located.cons {before gap spelling rest : List Char} {t stop : Token} {ts : List Token} (layout : Layout gap)
    (known : t.kind ≠ .eof) (spelled : t.spelling = spelling) (some : spelling ≠ [])
    (place : t.position = Position.start.advanceBy (before ++ gap))
    (next : Located (before ++ (gap ++ spelling) ++ rest) (before ++ (gap ++ spelling)).length ts stop) :
    Located (before ++ (gap ++ (spelling ++ rest))) before.length (t :: ts) stop := by
  have whole : before ++ (gap ++ spelling) ++ rest = before ++ (gap ++ (spelling ++ rest)) := by simp
  have offset : t.position.offset = (before ++ gap).length := by rw [place, offset_start]
  have finish : t.finish = (before ++ (gap ++ spelling)).length := by
    rw [Token.finish, offset, spelled]
    simp [Nat.add_assoc]
  have further : t.position.offset < t.finish := by
    rw [Token.finish, spelled]
    exact Nat.lt_add_of_pos_right (List.length_pos_iff.mpr some)
  rw [whole] at next
  rw [← finish] at next
  refine ⟨next.ended, ?_, ?_, ?_, ?_, ?_, ?_, ?_⟩
  · exact List.forall_mem_cons.mpr ⟨known, next.inside⟩
  · refine List.forall_mem_cons.mpr ⟨?_, ?_⟩
    · rw [offset, List.length_append]
      exact Nat.le_add_right _ _
    · intro u member
      have le := next.later u member
      rw [finish] at le
      simp only [List.length_append] at le
      omega
  · refine List.pairwise_cons.mpr ⟨?_, next.ordered⟩
    intro u member
    exact Nat.lt_of_lt_of_le further (next.later u member)
  · refine List.forall_mem_cons.mpr ⟨?_, next.spelled⟩
    rw [offset, spelled, ← List.append_assoc, List.drop_left]
    exact List.prefix_append _ _
  · rintro u ⟨⟩
    rw [Token.Admits, if_neg known, offset]
    simpa using layout
  · refine List.isChain_cons.mpr ⟨?_, next.between⟩
    intro u first
    exact ⟨next.later u (List.mem_of_mem_head? first), next.leading u first⟩
  · refine List.forall_mem_cons.mpr ⟨?_, next.places⟩
    rw [offset, ← List.append_assoc, List.take_left]
    exact place

/-- Tokens that are laid out in a text are at their places. -/
theorem located_of_laid {p : Position} {text : List Char} {ts : List Token} {stop : Token} (laid : Laid p text ts stop)
    (before : List Char) (passed : p = Position.start.advanceBy before) :
    Located (before ++ text) before.length ts stop := by
  induction laid generalizing before with
  | @ended p gap trailing =>
    have place : p.advanceBy gap = Position.start.advanceBy (before ++ gap) := by
      rw [passed, Position.advanceBy_append]
    have offset : (p.advanceBy gap).offset = (before ++ gap).length := by rw [place, offset_start]
    refine ⟨⟨rfl, offset⟩, by simp, ?_, by simp, by simp, ?_, by simp, ?_⟩
    · simp [offset]
    · rintro u ⟨⟩
      rw [Token.Admits, if_pos rfl, offset]
      simpa using trailing
    · refine List.forall_mem_singleton.mpr ?_
      show p.advanceBy gap = _
      rw [offset, List.take_length, place]
  | @token p gap rest l ts stop layout stands laid ih =>
    have place : p.advanceBy gap = Position.start.advanceBy (before ++ gap) := by
      rw [passed, Position.advanceBy_append]
    have further : p.advanceBy (gap ++ l.spelling) = Position.start.advanceBy (before ++ (gap ++ l.spelling)) := by
      simp only [passed, Position.advanceBy_append]
    exact (ih _ further).cons layout (kind_of_stands stands) (spelling_of_stands stands _) (spelling_ne_nil stands) place

/-! ## Sources -/

theorem rest_skip_of_ended {s : Scanner} (ended : s.read? = none) : s.skip.rest = [] := by
  unfold Scanner.read? at ended
  split at ended
  · assumption
  · cases ended

/-- Behind the end of a text a scanner gives the same end mark over and over. -/
theorem take_of_ended {s : Scanner} (ended : s.read? = none) (k : Nat) : s.take k = List.replicate k s.eof := by
  induction k generalizing s with
  | zero => rfl
  | succ k ih =>
    have left := rest_skip_of_ended ended
    have still : s.skip.skip = s.skip := by
      generalize s.skip = e at left
      obtain ⟨position, rest⟩ := e
      obtain rfl : rest = [] := left
      rfl
    have again : s.skip.read? = none := by rw [Scanner.read?, still, left]
    have mark : s.skip.eof = s.eof := by rw [Scanner.eof, Scanner.eof, still]
    have next : s.next = (s.eof, s.skip) := by rw [Scanner.next, ended, Option.getD_none]
    rw [Scanner.take, next, ih again, mark, List.replicate_succ]

/-- What a scanner gives when it is asked often enough: all its tokens, and then the end mark. -/
theorem take_of_readAll (s : Scanner) (k : Nat) :
    s.take (s.readAll.1.length + k) = s.readAll.1 ++ List.replicate k s.readAll.2 := by
  fun_induction Scanner.readAll s with
  | case1 s ended =>
    rw [List.length_nil, Nat.zero_add, List.nil_append]
    exact take_of_ended ended k
  | case2 s t s' read ts stop later ih =>
    have next : s.next = (t, s') := by rw [Scanner.next, read, Option.getD_some]
    rw [later] at ih
    rw [List.length_cons, Nat.add_right_comm, Scanner.take, next, ih, List.cons_append]

/-- The tokens of a source: those in it, and the end mark. -/
structure Partition (source : String) (ts : List Token) (stop : Token) : Prop where
  whole : tokenize source = ts ++ [stop]
  located : Located source.toList 0 ts stop
  lines : ∀ t ∈ tokenize source,
    t.position.line = 1 + (source.toList.take t.position.offset).count '\n' ∧
      t.position.column = 1 + ((source.toList.take t.position.offset).reverse.takeWhile (· ≠ '\n')).length
  repeated : ∀ k, (Scanner.ofSource source).take (ts.length + (k + 1)) = tokenize source ++ List.replicate k stop

/-- The tokens of a source are a partition of it. -/
theorem tokens_partition (source : String) : ∃ ts stop, Partition source ts stop := by
  have laid := laid_readAll (.ofSource source)
  have located : Located source.toList 0 _ _ := located_of_laid laid [] rfl
  refine ⟨_, _, rfl, located, ?_, ?_⟩
  · intro t member
    have place := located.places t member
    have counted := advanceBy_start (source.toList.take t.position.offset)
    rwa [← place] at counted
  · intro k
    rw [take_of_readAll, List.replicate_succ, tokenize, List.append_assoc]
    rfl

end Stepwise
