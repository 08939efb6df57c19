import Stepwise.Parse.Failure

/-!
Reading that makes progress. A reader that started on some tokens has fewer of
them left when it succeeds, and fewer ahead of it when it fails; both facts are
part of its result, and so every loop that reads statements or operands ends.
-/
namespace Stepwise

/-- The tokens left behind a part of `whole` that has been read. -/
structure Rest (whole : List Token) where
  tokens : List Token
  shorter : tokens.length < whole.length

/-- A failure somewhere in `whole`, behind its first token or on it. -/
structure Stuck (whole : List Token) where
  failure : Failure
  within : failure.ahead.length ≤ whole.length - 1

/-- The result of reading something off the front of `whole`. -/
abbrev Reading (α : Type) (whole : List Token) : Type :=
  Except (Stuck whole) (α × Rest whole)

/-- Behind the first of the tokens left there are fewer still. -/
theorem length_lt_of_cons {whole ahead : List Token} {t : Token}
    (shorter : (t :: ahead).length < whole.length) : ahead.length < whole.length :=
  Nat.lt_of_succ_lt shorter

/-- What is left behind the first of the tokens left is less than the whole. -/
theorem length_lt_of_behind {whole ahead rest : List Token} {t : Token} (less : rest.length < ahead.length)
    (shorter : (t :: ahead).length < whole.length) : rest.length < whole.length :=
  Nat.lt_trans less (length_lt_of_cons shorter)

/-- Nothing is ahead of an expression that cannot begin but what follows its first
    token. -/
theorem length_ahead_noExpression (ts : List Token) :
    (Failure.noExpression ts).ahead.length ≤ ts.length - 1 := by
  cases ts with
  | nil => exact Nat.le_refl _
  | cons t ahead => exact Nat.le_refl _

/-- No expression begins here. -/
def Stuck.noExpression (ts : List Token) : Stuck ts :=
  ⟨.noExpression ts, length_ahead_noExpression ts⟩

namespace Rest

variable {whole : List Token}

/-- Everything behind the first token. -/
def behind (t : Token) (ahead : List Token) : Rest (t :: ahead) :=
  ⟨ahead, Nat.lt_succ_self _⟩

/-- What is left of the rest of a whole is left of the whole. -/
def within (r : Rest whole) (inner : Rest r.tokens) : Rest whole :=
  ⟨inner.tokens, Nat.lt_trans inner.shorter r.shorter⟩

/-- A failure in front of the rest. -/
def refuse (r : Rest whole) (what : String) : Stuck whole :=
  ⟨.unexpected what r.tokens, Nat.le_sub_one_of_lt r.shorter⟩

end Rest

variable {whole : List Token}

/-- A failure in the rest of a whole is a failure in the whole. -/
def Stuck.inside (r : Rest whole) (s : Stuck r.tokens) : Stuck whole :=
  ⟨s.failure, Nat.le_trans s.within (Nat.le_trans (Nat.sub_le _ _) (Nat.le_sub_one_of_lt r.shorter))⟩

/-- What is read off the rest of a whole is read inside the whole. -/
def Reading.inside {α : Type} (r : Rest whole) : Reading α r.tokens → Reading α whole
  | .error s => .error (s.inside r)
  | .ok (a, inner) => .ok (a, r.within inner)

/-- Reads a token of the given kind. -/
def Rest.expect (kind : Kind) (r : Rest whole) : Reading Token whole :=
  match r with
  | ⟨t :: ahead, shorter⟩ =>
    if t.kind = kind then .ok (t, ⟨ahead, length_lt_of_cons shorter⟩)
    else .error ((Rest.mk (t :: ahead) shorter).refuse kind.describe)
  | ⟨[], shorter⟩ => .error ((Rest.mk [] shorter).refuse kind.describe)

/-- Passes over a semicolon, if one is next. -/
def Rest.skipSemicolon (r : Rest whole) : Rest whole :=
  match r with
  | ⟨t :: ahead, shorter⟩ =>
    if t.kind = .semicolon then ⟨ahead, length_lt_of_cons shorter⟩ else ⟨t :: ahead, shorter⟩
  | ⟨[], shorter⟩ => ⟨[], shorter⟩

/-- Forgets the progress: what was read with the tokens left, or the failure. -/
def Reading.plain {α : Type} : Reading α whole → Except Failure (α × List Token)
  | .error s => .error s.failure
  | .ok (a, r) => .ok (a, r.tokens)

end Stepwise
