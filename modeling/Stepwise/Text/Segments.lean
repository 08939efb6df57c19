/-!
The segments of a text between separators. There is always one more of them than
there are separators, and put together with the separators they make up the text
again (`intercalate_segments`).
-/
namespace Stepwise.Text

/-- Puts a character in front of the first segment. -/
def consSegment (c : Char) : List (List Char) → List (List Char)
  | [] => [[c]]
  | segment :: rest => (c :: segment) :: rest

/-- The segments of a text between separators. -/
def segments (separator : Char) : List Char → List (List Char)
  | [] => [[]]
  | c :: text =>
    if c = separator then [] :: segments separator text else consSegment c (segments separator text)

theorem segments_ne_nil (separator : Char) (text : List Char) : segments separator text ≠ [] := by
  cases text with
  | nil => simp [segments]
  | cons c text =>
    unfold segments
    split
    · simp
    · unfold consSegment
      split <;> simp

theorem intercalate_segments (separator : Char) (text : List Char) :
    [separator].intercalate (segments separator text) = text := by
  induction text with
  | nil => rfl
  | cons c text ih =>
    obtain ⟨first, rest, parts⟩ := List.exists_cons_of_ne_nil (segments_ne_nil separator text)
    rw [parts] at ih
    unfold segments
    split
    · next same =>
      rw [parts, same, ← ih]
      rfl
    · rw [parts, ← ih]
      cases rest <;> rfl

end Stepwise.Text
