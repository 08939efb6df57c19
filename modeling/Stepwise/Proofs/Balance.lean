import Mathlib.Data.List.Infix
import Stepwise.Proofs.Grammar

/-!
Balanced braces. That the braces in a sequence of kinds balance can be said by counting
(`Balanced`), or by going through it and keeping track of how many are open (`Closes`); the two
come to the same (`balanced_iff_closes`). What the grammar derives is balanced
(`closes_of_derives`).
-/
namespace Stepwise

/-- Nowhere have more braces been closed than opened, and all of them are closed in the end. -/
def Balanced (ks : List Kind) : Prop :=
  (∀ front, front <+: ks → front.count .rightBrace ≤ front.count .leftBrace) ∧
    ks.count .rightBrace = ks.count .leftBrace

/-- With `depth` braces open, the kinds close these and all they open. -/
def Closes : Nat → List Kind → Prop
  | depth, [] => depth = 0
  | depth, .leftBrace :: ks => Closes (depth + 1) ks
  | 0, .rightBrace :: _ => False
  | depth + 1, .rightBrace :: ks => Closes depth ks
  | depth, _ :: ks => Closes depth ks

/-- Whether a token of this kind opens or closes a block. -/
def Kind.isBrace : Kind → Bool
  | .leftBrace | .rightBrace => true
  | _ => false

/-- Kinds among which there is no brace. -/
def Level (ks : List Kind) : Prop :=
  ∀ k ∈ ks, k.isBrace = false

theorem Level.append {ks ks' : List Kind} (first : Level ks) (second : Level ks') : Level (ks ++ ks') :=
  List.forall_mem_append.mpr ⟨first, second⟩

theorem level_single {k : Kind} (other : k.isBrace = false) : Level [k] :=
  List.forall_mem_singleton.mpr other

theorem level_of_inExpression {ks : List Kind} (known : ∀ k ∈ ks, k.inExpression = true) : Level ks := by
  intro k member
  have inside := known k member
  cases k <;> first | rfl | cases inside

/-- There are no braces in an expression, and none among arguments. -/
theorem level_of_derives {p : Phrase} {ks : List Kind} (derives : Derives p ks) (inner : p.admits = Kind.inExpression) :
    Level ks := by
  refine level_of_inExpression ?_
  rw [← inner]
  exact admits_of_derives derives

theorem level_of_expression {ks : List Kind} (derives : Derives .expression ks) : Level ks :=
  level_of_derives derives rfl

theorem level_of_ending {ending : List Kind} (ends : ending ∈ endings) : Level ending := by
  rcases List.mem_cons.mp ends with rfl | last
  · simp [Level]
  · obtain rfl := List.mem_singleton.mp last
    exact level_single rfl

theorem level_of_type {type : Kind} (named : type ∈ Kind.types) : Level [type] := by
  have flat : ∀ k ∈ Kind.types, k.isBrace = false := by decide
  exact level_single (flat type named)

theorem level_of_separated {separator : Kind} (known : separator.inExpression = true) {words : List Kind}
    (separated : words = [] ∨ Separated separator words) : Level words := by
  rcases separated with rfl | separated
  · simp [Level]
  · exact level_of_inExpression (inExpression_of_separated known separated)

theorem level_of_condition {word : Kind} {c : List Kind} (other : word.isBrace = false)
    (condition : Derives .expression c) : Level ([word, .leftParen] ++ c ++ [.rightParen]) :=
  (((level_single other).append (level_single rfl)).append (level_of_expression condition)).append (level_single rfl)

theorem level_of_signature {names : List Kind} (parameters : names = [] ∨ Separated .comma names) :
    Level ([.funcWord, .identifier, .leftParen] ++ names ++ [.rightParen]) := by
  have front : Level [.funcWord, .identifier, .leftParen] := by simp [Level, Kind.isBrace]
  exact (front.append (level_of_separated rfl parameters)).append (level_single rfl)

/-! ## Going through braces -/

section

variable {depth : Nat} {ks : List Kind}

@[simp] theorem closes_nil : Closes depth [] ↔ depth = 0 := by
  cases depth <;> simp [Closes]

@[simp] theorem closes_leftBrace : Closes depth (.leftBrace :: ks) ↔ Closes (depth + 1) ks := by
  cases depth <;> simp [Closes]

@[simp] theorem closes_rightBrace : Closes depth (.rightBrace :: ks) ↔ ∃ less, depth = less + 1 ∧ Closes less ks := by
  cases depth <;> simp [Closes]

theorem closes_cons {k : Kind} (other : k.isBrace = false) : Closes depth (k :: ks) ↔ Closes depth ks := by
  cases k <;> first | (cases depth <;> simp [Closes]; done) | cases other

theorem closes_level {level : List Kind} (flat : Level level) : Closes depth (level ++ ks) ↔ Closes depth ks := by
  induction level with
  | nil => rfl
  | cons k level ih =>
    obtain ⟨other, flat⟩ := List.forall_mem_cons.mp flat
    rw [List.cons_append, closes_cons other, ih flat]

theorem forall_prefix_cons {P : List Kind → Prop} {k : Kind} :
    (∀ front, front <+: k :: ks → P front) ↔ P [] ∧ ∀ front, front <+: ks → P (k :: front) := by
  simp only [List.prefix_cons_iff]
  constructor
  · intro all
    exact ⟨all [] (.inl rfl), fun front inside => all _ (.inr ⟨front, rfl, inside⟩)⟩
  · rintro ⟨none, more⟩ front (rfl | ⟨rest, rfl, inside⟩)
    · exact none
    · exact more rest inside

theorem closes_iff_count (depth : Nat) (ks : List Kind) :
    Closes depth ks ↔ (∀ front, front <+: ks → front.count .rightBrace ≤ depth + front.count .leftBrace) ∧
      ks.count .rightBrace = depth + ks.count .leftBrace := by
  induction ks generalizing depth with
  | nil => simp [eq_comm]
  | cons k ks ih =>
    rw [forall_prefix_cons]
    cases brace : k.isBrace with
    | false =>
      have notLeft : k ≠ .leftBrace := by rintro rfl; cases brace
      have notRight : k ≠ .rightBrace := by rintro rfl; cases brace
      rw [closes_cons brace, ih]
      simp [List.count_cons_of_ne notLeft, List.count_cons_of_ne notRight]
    | true =>
      cases k with
      | leftBrace =>
        rw [closes_leftBrace, ih]
        simp [Nat.add_right_comm, Nat.add_assoc]
      | rightBrace =>
        rw [closes_rightBrace]
        cases depth with
        | zero =>
          constructor
          · rintro ⟨less, none, -⟩
            cases none
          · rintro ⟨⟨-, more⟩, -⟩
            have first := more [] (List.nil_prefix)
            simp at first
        | succ depth =>
          simp only [Nat.add_right_cancel_iff, exists_eq_left', ih]
          simp [Nat.add_right_comm]
      | _ => cases brace

/-- Counting braces and keeping track of them come to the same. -/
theorem balanced_iff_closes (ks : List Kind) : Balanced ks ↔ Closes 0 ks := by
  simp [Balanced, closes_iff_count]

/-- What is derived closes the braces it opens, and no others. -/
theorem closes_of_derives {p : Phrase} (derives : Derives p ks) (depth : Nat) (rest : List Kind) :
    Closes depth (ks ++ rest) ↔ Closes depth rest := by
  induction derives generalizing depth rest with
  | nothing => rfl
  | more statement script ihs ihr =>
    rw [List.append_assoc]
    exact (ihs depth _).trans (ihr depth rest)
  | declare named =>
    have front : Level [.letWord, .identifier, .colon] := by simp [Level, Kind.isBrace]
    exact closes_level ((front.append (level_of_type named)).append (level_single rfl))
  | initialise named value ends =>
    have front : Level [.letWord, .identifier, .colon] := by simp [Level, Kind.isBrace]
    have level := (front.append (level_of_type named)).append (level_single (k := .equal) rfl)
    exact closes_level ((level.append (level_of_expression value)).append (level_of_ending ends))
  | assign value ends =>
    have front : Level [.identifier, .equal] := by simp [Level, Kind.isBrace]
    exact closes_level ((front.append (level_of_expression value)).append (level_of_ending ends))
  | giveBack value ends =>
    have front : Level [.returnWord] := level_single rfl
    exact closes_level ((front.append (level_of_expression value)).append (level_of_ending ends))
  | evaluate value ends => exact closes_level ((level_of_expression value).append (level_of_ending ends))
  | inner body ih => exact ih depth rest
  | branch derives body ihc ihb =>
    rw [List.append_assoc, closes_level (level_of_condition rfl derives)]
    exact ihb depth rest
  | choice derives body alternative ihc ihb iha =>
    rw [List.append_assoc, List.append_assoc, List.append_assoc, closes_level (level_of_condition rfl derives)]
    refine (ihb depth _).trans ?_
    rw [closes_level (level_single rfl)]
    exact iha depth rest
  | loop derives body ihc ihb =>
    rw [List.append_assoc, closes_level (level_of_condition rfl derives)]
    exact ihb depth rest
  | define parameters body ih =>
    rw [List.append_assoc, closes_level (level_of_signature parameters)]
    exact ih depth rest
  | braces script ih =>
    rw [List.append_assoc, List.append_assoc, List.singleton_append, closes_leftBrace]
    refine (ih (depth + 1) _).trans ?_
    simp
  | name dotted => exact closes_level (level_of_expression (.name dotted))
  | literal plain => exact closes_level (level_of_expression (.literal plain))
  | group inside => exact closes_level (level_of_expression (.group inside))
  | unary before operand => exact closes_level (level_of_expression (.unary before operand))
  | binary between left right => exact closes_level (level_of_expression (.binary between left right))
  | call callee arguments => exact closes_level (level_of_expression (.call callee arguments))
  | none => rfl
  | some items => exact closes_level (level_of_derives items rfl)
  | last item => exact closes_level (level_of_expression item)
  | item first items => exact closes_level (level_of_derives (.item first items) rfl)

theorem balanced_of_derives (derives : Derives .script ks) : Balanced ks := by
  have closes := closes_of_derives derives 0 []
  rw [List.append_nil] at closes
  exact (balanced_iff_closes ks).mpr (closes.mpr (by simp))

end

end Stepwise
