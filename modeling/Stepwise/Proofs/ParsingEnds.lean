import Stepwise.Proofs.Activations

/-!
Parsing ends. No activation of a reader calls for one with more tokens in front of it, and for one with the same
tokens only along a fixed order of the readers (`Activation.Under`); so a reader is entered again only behind a
token that was consumed. What activations there are is settled against the tokens that they consume (`Paid`),
course by course (`walks_course`): reading a script takes no more than six activations for each of its tokens,
and one (`parsing_ends`).
-/
namespace Stepwise

/-! ## Runs of courses -/

/-- A course comes to a result by so many activations, those that the activations call for among them. It is not
    supposed that there is an end to them. -/
inductive Runs : {α : Type} → Asks α → α → Nat → Prop where
  | done {α : Type} (a : α) : Runs (.done a) a 0
  | ask {α : Type} {x : Activation} {go : x.Answer → Asks α} {r : x.Answer} {a : α} {m n : Nat}
      (answers : Runs x.course r m) (goes : Runs (go r) a n) : Runs (.ask x go) a (m + 1 + n)

/-- There is one way to run a course. -/
theorem runs_unique {α : Type} {c : Asks α} {a a' : α} {n n' : Nat} (runs : Runs c a n) (runs' : Runs c a' n') :
    a = a' ∧ n = n' := by
  induction runs generalizing n' with
  | done a =>
    cases runs'
    exact ⟨rfl, rfl⟩
  | ask answers goes ih ih' =>
    cases runs' with
    | ask answers' goes' =>
      obtain ⟨rfl, rfl⟩ := ih answers'
      obtain ⟨rfl, rfl⟩ := ih' goes'
      exact ⟨rfl, rfl⟩

/-! ## Costs -/

/-- Of some tokens the rest is left behind `n` activations. Each token consumed pays for six of them, and the
    allowance for the others. -/
structure Paid (allowance : Int) (ts rest : List Token) (n : Nat) : Prop where
  suffix : rest <:+ ts
  begun : 0 < n
  turns : (n : Int) + 6 * rest.length ≤ 6 * ts.length + allowance

namespace Paid

variable {a b : Int} {ts rest rest' : List Token} {n m : Nat}

/-- The first activation pays for nothing. -/
theorem start (ts : List Token) : Paid 1 ts ts 1 :=
  ⟨List.suffix_rfl, Nat.one_pos, by omega⟩

theorem further (paid : Paid a ts rest n) (more : Paid b rest rest' m) : Paid (a + b) ts rest' (n + m) := by
  have turns := paid.turns
  have more_turns := more.turns
  refine ⟨more.suffix.trans paid.suffix, Nat.add_pos_left paid.begun m, ?_⟩
  omega

theorem mono (paid : Paid a ts rest n) (le : a ≤ b) : Paid b ts rest n :=
  ⟨paid.suffix, paid.begun, by have turns := paid.turns; omega⟩

theorem taken {t : Token} (paid : Paid a ts (t :: rest) n) : Paid (a - 6) ts rest n := by
  have turns := paid.turns
  rw [List.length_cons] at turns
  exact ⟨(List.suffix_cons t rest).trans paid.suffix, paid.begun, by omega⟩

/-- To pass over some of the rest costs nothing. -/
theorem passed (paid : Paid a ts rest n) (later : rest' <:+ rest) : Paid a ts rest' n := by
  have shorter := later.length_le
  have turns := paid.turns
  exact ⟨later.trans paid.suffix, paid.begun, by omega⟩

/-- What costs no more than what was consumed has consumed a token. -/
theorem fewer (paid : Paid a ts rest n) (covered : a ≤ 0) : rest.length < ts.length := by
  have turns := paid.turns
  have begun := paid.begun
  omega

end Paid

/-- What a part of a script leaves: the tokens behind it, or those ahead of the reader when it failed. -/
def Part.left {α : Type} : Part α → List Token
  | .ok (_, rest) => rest
  | .error f => f.ahead

namespace Activation

/-- The activations of an activation that no token pays for. An expression and a statement consume the token in front
    of them, and leave some of what it pays for. -/
@[simp] def allowance : Activation → Int
  | expr _ (_ :: _) => -3
  | statement _ _ => -2
  | items _ => 2
  | arguments _ => 3
  | path _ _ | expr _ [] | operators _ _ _ | names _ | skip _ _ | body _ | script _ => 1

/-- What an activation leaves. -/
def left : (x : Activation) → x.Answer → List Token
  | path _ _, r | expr _ _, r | operators _ _ _, r | arguments _, r | items _, r | names _, r => Part.left r
  | skip _ _, rest => rest
  | statement _ _, r | body _, r => Part.left r.2
  | script _, _ => []

/-- An activation comes to an answer by so many activations, itself among them. -/
def Within (x : Activation) (r : x.Answer) (n : Nat) : Prop :=
  Paid x.allowance x.tokens (x.left r) n

/-- Of two readers that are called with the same tokens, the one with the lower rank is called by
    the other. -/
def rank (x : Activation) : Nat :=
  match x.reader with
  | .script | .body | .arguments => 2
  | .statement | .items => 1
  | .path | .expr | .operators | .names | .skip => 0

/-- An activation comes under another: it has fewer of its tokens in front of it, or the same and a
    reader of a lower rank. -/
structure Under (y x : Activation) : Prop where
  suffix : y.tokens <:+ x.tokens
  lower : y.tokens.length < x.tokens.length ∨ y.rank < x.rank

theorem under_of_paid {a : Int} {x y : Activation} {n : Nat} (paid : Paid a x.tokens y.tokens n) (covered : a ≤ 0) :
    y.Under x :=
  ⟨paid.suffix, .inl (paid.fewer covered)⟩

end Activation

/-! ## What courses pay -/

namespace Asks

variable {α β : Type} {x : Activation} {good good' : α → Nat → Prop} {n : Nat}

/-- Behind `n` activations, a course of an activation asks for activations under that one only, and whatever these
    come to within their allowances, it comes to something good. -/
def Walks (x : Activation) (good : α → Nat → Prop) : Asks α → Nat → Prop
  | done a, n => good a n
  | ask y go, n => y.Under x ∧ ∀ r m, y.Within r m → (go r).Walks x good (n + m)

theorem Walks.mono {c : Asks α} (walks : c.Walks x good n) (weaker : ∀ a m, good a m → good' a m) :
    c.Walks x good' n := by
  induction c generalizing n with
  | done a => exact weaker a n walks
  | ask y go ih =>
    obtain ⟨under, onward⟩ := walks
    exact ⟨under, fun r m within => ih r (onward r m within)⟩

theorem Walks.bind {c : Asks α} {k : α → Asks β} {goal : β → Nat → Prop} (walks : c.Walks x good n)
    (next : ∀ a m, good a m → (k a).Walks x goal m) : (c >>= k).Walks x goal n := by
  induction c generalizing n with
  | done a => exact next a n walks
  | ask y go ih =>
    obtain ⟨under, onward⟩ := walks
    exact ⟨under, fun r m within => ih r (onward r m within)⟩

/-- What is asked for is under the activation, if the answers are within their allowances. -/
theorem Walks.asked {c : Asks α} {answer : (y : Activation) → y.Answer} (walks : c.Walks x good n)
    (within : ∀ y : Activation, y.Under x → ∃ m, y.Within (answer y) m) : ∀ y ∈ c.asked answer, y.Under x := by
  induction c generalizing n with
  | done a =>
    intro y member
    cases member
  | ask z go ih =>
    obtain ⟨under, onward⟩ := walks
    obtain ⟨m, answered⟩ := within z under
    intro y member
    rcases List.mem_cons.mp member with rfl | later
    · exact under
    · exact ih _ (onward _ m answered) y later

/-- A course runs if the activations under its own do. -/
theorem Walks.runs {c : Asks α} {answer : (y : Activation) → y.Answer} (walks : c.Walks x good n)
    (below : ∀ y : Activation, y.Under x → ∃ m, Runs y.course (answer y) m ∧ y.Within (answer y) (m + 1)) :
    ∃ m, Runs c (c.answered answer) m ∧ good (c.answered answer) (n + m) := by
  induction c generalizing n with
  | done a => exact ⟨0, .done a, walks⟩
  | ask z go ih =>
    obtain ⟨under, onward⟩ := walks
    obtain ⟨m, runs, within⟩ := below z under
    obtain ⟨m', runs', fine⟩ := ih _ (onward _ _ within)
    refine ⟨m + 1 + m', .ask runs runs', ?_⟩
    rw [← Nat.add_assoc]
    exact fine

end Asks

/-- Steps of an activation, behind `n` others, leave what these and an allowance pay for. -/
def Steps.Pays {α : Type} (x : Activation) (b : Int) (c : Steps (α × List Token)) (n : Nat) : Prop :=
  Asks.Walks x (fun r m => Paid b x.tokens (Part.left r) m) c.run n

section

variable {α β : Type} {x y : Activation} {a b : Int} {ts rest : List Token} {n : Nat}
variable {c : Steps (α × List Token)} {k : α × List Token → Steps (β × List Token)}

open Steps (Pays)
open Activation (under_of_paid)

theorem pays_pure {v : α} (paid : Paid a x.tokens rest n) (le : a ≤ b) :
    Pays x b (pure (v, rest)) n :=
  paid.mono le

theorem pays_throw {f : Failure} (paid : Paid a x.tokens f.ahead n) (le : a ≤ b) :
    Pays x b (throw f : Steps (α × List Token)) n :=
  paid.mono le

theorem pays_bind (first : Pays x a c n) (le : a ≤ b)
    (next : ∀ v rest m, Paid a x.tokens rest m → Pays x b (k (v, rest)) m) : Pays x b (c >>= k) n := by
  rw [Pays, ExceptT.run_bind]
  refine Asks.Walks.bind first fun r m paid => ?_
  cases r with
  | error f => exact paid.mono le
  | ok found => exact next found.1 found.2 m paid

/-- An activation that is asked for, in place. -/
theorem pays_turn {same : y.Answer = Part α} (leaves : ∀ r, y.left r = Part.left (cast same r))
    (paid : Paid a x.tokens y.tokens n) (under : y.Under x) (le : a + y.allowance ≤ b) :
    Pays x b (Steps.turn y same) n := by
  refine ⟨under, fun r m within => ?_⟩
  have further := (paid.further within).mono le
  rw [leaves] at further
  exact further

theorem pays_expect {kind : Kind} {k : Token × List Token → Steps (β × List Token)} (paid : Paid a x.tokens ts n)
    (le : a ≤ b) (next : ∀ t rest, Paid (a - 6) x.tokens rest n → Pays x b (k (t, rest)) n) :
    Pays x b (Steps.expect kind ts >>= k) n := by
  have failed := paid.mono le
  cases ts with
  | nil => exact failed
  | cons t ahead =>
    rw [Steps.expect]
    by_cases same : t.kind = kind
    · rw [if_pos same]
      exact next t ahead paid.taken
    · rw [if_neg same]
      exact failed

theorem pays_token (kind : Kind) (paid : Paid a x.tokens ts n) : Pays x a (Steps.expect kind ts) n := by
  cases ts with
  | nil => exact paid
  | cons t ahead =>
    rw [Steps.expect]
    by_cases same : t.kind = kind
    · rw [if_pos same]
      exact paid.passed (List.suffix_cons t ahead)
    · rw [if_neg same]
      exact paid

/-- An activation that is asked for at last, behind a token consumed. -/
theorem pays_last {same : y.Answer = Part α} (leaves : ∀ r, y.left r = Part.left (cast same r))
    (paid : Paid a x.tokens y.tokens n) (covered : a ≤ 0) (le : a + y.allowance ≤ b) :
    Pays x b (Steps.turn y same) n :=
  pays_turn leaves paid (under_of_paid paid covered) le

/-- An activation that is asked for in front of other steps. -/
theorem pays_ask {same : y.Answer = Part α} (leaves : ∀ r, y.left r = Part.left (cast same r))
    (paid : Paid a x.tokens y.tokens n) (under : y.Under x) (le : a + y.allowance ≤ b)
    (next : ∀ v rest m, Paid (a + y.allowance) x.tokens rest m → Pays x b (k (v, rest)) m) :
    Pays x b (Steps.turn y same >>= k) n :=
  pays_bind (pays_turn leaves paid under (Int.le_refl _)) le next

theorem allowance_expr_le (minimum : Precedence) (ts : List Token) : (Activation.expr minimum ts).allowance ≤ 1 := by
  cases ts <;> simp

/-- An expression that is asked for in front of other steps. -/
theorem pays_operand {minimum : Precedence} {k : Expr × List Token → Steps (β × List Token)}
    (paid : Paid a x.tokens ts n) (under : (Activation.expr minimum ts).Under x) (le : a + 1 ≤ b)
    (next : ∀ e rest m, Paid (a + 1) x.tokens rest m → Pays x b (k (e, rest)) m) :
    Pays x b (Steps.turn (.expr minimum ts) rfl >>= k) n := by
  have allowed := Int.add_le_add_left (allowance_expr_le minimum ts) a
  refine pays_ask (fun _ => rfl) paid under (Int.le_trans allowed le) fun e rest m more => ?_
  exact next e rest m (more.mono allowed)

end

/-! ## The courses of the readers -/

section

open Steps (Pays)
open Activation (under_of_paid)

theorem pays_path (name : String) (ts : List Token) : Pays (.path name ts) 1 (Steps.path name ts) 1 := by
  have start := Paid.start ts
  cases ts with
  | nil => exact pays_pure start (Int.le_refl 1)
  | cons d ahead =>
    rw [Steps.path]
    by_cases dot : d.kind = .dot
    · rw [if_pos dot]
      refine pays_expect start.taken (by decide) fun t rest paid => ?_
      exact pays_last (fun _ => rfl) paid (by decide) (by simp)
    · rw [if_neg dot]
      exact pays_pure start (Int.le_refl 1)

theorem pays_expr (minimum : Precedence) (ts : List Token) :
    Pays (.expr minimum ts) (Activation.expr minimum ts).allowance (Steps.expr minimum ts) 1 := by
  have start := Paid.start ts
  cases ts with
  | nil => exact pays_throw start (Int.le_refl 1)
  | cons t ahead =>
    have taken := start.taken
    rw [Steps.expr]
    by_cases name : t.kind = .identifier
    · rw [if_pos name]
      refine pays_ask (fun _ => rfl) taken (under_of_paid taken (by decide)) (by simp) fun path rest m paid => ?_
      exact pays_last (fun _ => rfl) paid (by simp) (by simp)
    · rw [if_neg name]
      by_cases group : t.kind = .leftParen
      · rw [if_pos group]
        refine pays_operand taken (under_of_paid taken (by decide)) (by simp) fun e rest m paid => ?_
        refine pays_expect paid (by simp) fun t rest paid => ?_
        exact pays_last (fun _ => rfl) paid (by decide) (by simp)
      · rw [if_neg group]
        cases operator : t.kind.unaryOp? with
        | some op =>
          refine pays_operand taken (under_of_paid taken (by decide)) (by simp) fun e rest m paid => ?_
          exact pays_last (fun _ => rfl) paid (by decide) (by simp)
        | none =>
          cases literal : t.literal? with
          | some e => exact pays_last (fun _ => rfl) taken (by decide) (by simp)
          | none => exact pays_throw taken (by simp)

theorem pays_operators (minimum : Precedence) (left : Expr) (ts : List Token) :
    Pays (.operators minimum left ts) 1 (Steps.operators minimum left ts) 1 := by
  have start := Paid.start ts
  cases ts with
  | nil => exact pays_pure start (Int.le_refl 1)
  | cons t ahead =>
    have taken := start.taken
    rw [Steps.operators]
    by_cases stronger : minimum < t.kind.precedence
    · rw [if_pos stronger]
      cases t.kind.binaryOp? with
      | some op =>
        refine pays_operand taken (under_of_paid taken (by decide)) (by decide) fun e rest m paid => ?_
        exact pays_last (fun _ => rfl) paid (by decide) (by simp)
      | none =>
        refine pays_ask (fun _ => rfl) taken (under_of_paid taken (by decide)) (by simp) fun es rest m paid => ?_
        exact pays_last (fun _ => rfl) paid (by simp) (by simp)
    · rw [if_neg stronger]
      exact pays_pure start (Int.le_refl 1)

theorem pays_arguments (ts : List Token) : Pays (.arguments ts) 3 (Steps.arguments ts) 1 := by
  have start := Paid.start ts
  rw [Steps.arguments]
  by_cases closes : Failure.nextKind ts = .rightParen
  · rw [if_pos closes]
    exact pays_expect start (by decide) fun t rest paid => pays_pure paid (by decide)
  · rw [if_neg closes]
    have under : (Activation.items ts).Under (.arguments ts) := ⟨List.suffix_rfl, .inr (Nat.lt_succ_self _)⟩
    exact pays_turn (fun _ => rfl) start under (by simp)

theorem pays_items (ts : List Token) : Pays (.items ts) 2 (Steps.items ts) 1 := by
  have under : (Activation.expr .lowest ts).Under (.items ts) := ⟨List.suffix_rfl, .inr (Nat.lt_succ_self _)⟩
  refine pays_operand (Paid.start ts) under (by decide) fun e rest m paid => ?_
  dsimp only
  by_cases comma : Failure.nextKind rest = .comma
  · rw [if_pos comma]
    refine pays_expect paid (by decide) fun t rest paid => ?_
    refine pays_ask (fun _ => rfl) paid (under_of_paid paid (by decide)) (by simp) fun es rest m paid => ?_
    exact pays_pure paid (by simp)
  · rw [if_neg comma]
    exact pays_expect paid (by decide) fun t rest paid => pays_pure paid (by decide)

theorem pays_names (ts : List Token) : Pays (.names ts) 1 (Steps.names ts) 1 := by
  refine pays_expect (Paid.start ts) (by decide) fun t rest paid => ?_
  dsimp only
  by_cases comma : Failure.nextKind rest = .comma
  · rw [if_pos comma]
    refine pays_expect paid (by decide) fun t rest paid => ?_
    refine pays_ask (fun _ => rfl) paid (under_of_paid paid (by decide)) (by simp) fun names rest m paid => ?_
    exact pays_pure paid (by simp)
  · rw [if_neg comma]
    exact pays_expect paid (by decide) fun t rest paid => pays_pure paid (by decide)

/-! Statements. -/

variable {x : Activation} {a b : Int} {ts rest : List Token} {n : Nat}

theorem behindSemicolon_suffix (ts : List Token) : Steps.behindSemicolon ts <:+ ts := by
  cases ts with
  | nil => exact List.suffix_rfl
  | cons t ahead =>
    rw [Steps.behindSemicolon]
    by_cases semicolon : t.kind = .semicolon
    · rw [if_pos semicolon]
      exact List.suffix_cons t ahead
    · rw [if_neg semicolon]

/-- A statement that ends, with its semicolon if there is one. -/
theorem pays_ended {s : Stmt} (paid : Paid a x.tokens rest n) (le : a ≤ b) :
    Pays x b (pure (s, Steps.behindSemicolon rest)) n :=
  pays_pure (paid.passed (behindSemicolon_suffix rest)) le

/-- An expression at the end of a statement. -/
theorem pays_value {k : Expr × List Token → Steps (Stmt × List Token)} {whole : Expr → Stmt}
    (ends : ∀ e rest, k (e, rest) = pure (whole e, Steps.behindSemicolon rest)) (paid : Paid a x.tokens ts n)
    (covered : a ≤ 0) (le : a + 1 ≤ b) : Pays x b (Steps.turn (.expr .lowest ts) rfl >>= k) n := by
  refine pays_operand paid (under_of_paid paid covered) le fun e rest m paid => ?_
  rw [ends]
  exact pays_ended paid le

theorem pays_typeName {β : Type} {k : TypeName × List Token → Steps (β × List Token)} (paid : Paid a x.tokens ts n)
    (le : a ≤ b) (next : ∀ type rest, Paid a x.tokens rest n → Pays x b (k (type, rest)) n) :
    Pays x b (Steps.typeName ts >>= k) n := by
  have failed := paid.mono le
  cases ts with
  | nil => exact failed
  | cons t ahead =>
    rw [Steps.typeName]
    cases t.kind.typeName? with
    | none => exact failed
    | some type => exact next type ahead (paid.passed (List.suffix_cons t ahead))

theorem pays_declaration (position : Position) (paid : Paid a x.tokens ts n) (covered : a ≤ 0) :
    Pays x (a + 1) (Steps.declaration position ts) n := by
  refine pays_expect paid (by omega) fun name rest paid => ?_
  refine pays_expect paid (by omega) fun _ rest paid => ?_
  refine pays_typeName paid (by omega) fun type rest paid => ?_
  change Pays x (a + 1) (ite _ _ _) n
  by_cases bare : Failure.nextKind rest = .semicolon
  · rw [if_pos bare]
    exact pays_ended paid (by omega)
  · rw [if_neg bare]
    refine pays_expect paid (by omega) fun _ rest paid => ?_
    exact pays_value (fun _ _ => rfl) paid (by omega) (by omega)

theorem pays_assignment (name : Token) (paid : Paid a x.tokens ts n) (covered : a ≤ 0) :
    Pays x (a + 1) (Steps.assignment name ts) n := by
  refine pays_expect paid (by omega) fun _ rest paid => ?_
  exact pays_value (fun _ _ => rfl) paid (by omega) (by omega)

theorem pays_condition (paid : Paid a x.tokens ts n) (covered : a ≤ 0) : Pays x a (Steps.condition ts) n := by
  refine pays_expect paid (by omega) fun _ rest paid => ?_
  refine pays_operand paid (under_of_paid paid (by omega)) (by omega) fun condition rest m paid => ?_
  refine pays_expect paid (by omega) fun _ rest paid => ?_
  exact pays_expect paid (by omega) fun brace rest paid => pays_pure paid (by omega)

theorem pays_parameters (paid : Paid a x.tokens ts n) (covered : a ≤ 0) :
    Pays x (a + 1) (Steps.parameters ts) n := by
  rw [Steps.parameters]
  by_cases closes : Failure.nextKind ts = .rightParen
  · rw [if_pos closes]
    exact pays_expect paid (by omega) fun _ rest paid => pays_pure paid (by omega)
  · rw [if_neg closes]
    exact pays_last (fun _ => rfl) paid covered (Int.le_refl _)

theorem pays_signature (paid : Paid a x.tokens ts n) (covered : a ≤ 0) : Pays x a (Steps.signature ts) n := by
  refine pays_expect paid (by omega) fun name rest paid => ?_
  refine pays_expect paid (by omega) fun _ rest paid => ?_
  have read := pays_parameters paid (by omega)
  refine pays_bind read (by omega) fun parameters rest m paid => ?_
  exact pays_expect paid (by omega) fun brace rest paid => pays_pure paid (by omega)

end

/-! Attempts. -/

section

variable {α β : Type} {x : Activation} {a b : Int} {ts rest : List Token} {n : Nat}

open Steps (Pays)
open Activation (under_of_paid)

/-- An attempt of an activation, behind `n` others, leaves what these and an allowance pay for. -/
def Asks.Pays (x : Activation) (b : Int) (c : Asks (List Failure × Part α)) (n : Nat) : Prop :=
  c.Walks x (fun r m => Paid b x.tokens (Part.left r.2) m) n

theorem pays_bodiless {steps : Steps (Stmt × List Token)} (pays : Pays x b steps n) :
    Asks.Pays x b (Asks.bodiless steps) n :=
  Asks.Walks.bind pays fun _ _ paid => paid

theorem pays_header {steps : Steps (α × List Token)} {next : α → List Token → Asks (List Failure × Part Stmt)}
    (pays : Pays x a steps n) (le : a ≤ b)
    (inside : ∀ v rest m, Paid a x.tokens rest m → Asks.Pays x b (next v rest) m) :
    Asks.Pays x b (Asks.header steps next) n := by
  refine Asks.Walks.bind pays fun r m paid => ?_
  cases r with
  | error f => exact paid.mono le
  | ok found => exact inside found.1 found.2 m paid

theorem left_map {γ δ : Type} (f : γ → δ) (r : Part γ) : Part.left (r.map (Prod.map f id)) = Part.left r := by
  cases r <;> rfl

theorem pays_body {earlier : List Failure} {f : List Stmt → β} (paid : Paid a x.tokens ts n) (covered : a ≤ 0)
    (le : a + 1 ≤ b) : Asks.Pays x b (Asks.body earlier f ts) n := by
  refine ⟨under_of_paid paid covered, fun r m within => ?_⟩
  have further := (paid.further within).mono le
  show Paid b x.tokens (Part.left (r.2.map (Prod.map f id))) (n + m)
  rw [left_map]
  exact further

theorem pays_otherwise {whole : Option Block → Stmt} {nested : List Failure} (paid : Paid a x.tokens rest n)
    (covered : a ≤ 0) : Asks.Pays x (a + 1) (Asks.otherwise whole nested rest) n := by
  rw [Asks.otherwise]
  by_cases more : Failure.nextKind rest = .elseWord
  · rw [if_pos more]
    have behind := paid.passed (List.drop_suffix 1 rest)
    refine Asks.Walks.bind (pays_token .leftBrace behind) fun r m paid => ?_
    cases r with
    | error f => exact paid.mono (by omega)
    | ok found => exact pays_body paid covered (Int.le_refl _)
  · rw [if_neg more]
    exact paid.mono (by omega)

theorem pays_statement (t : Token) (ahead : List Token) :
    Asks.Pays (.statement t ahead) (-2) (Asks.statement t ahead) 1 := by
  have start := Paid.start (t :: ahead)
  have taken := start.taken
  have evaluates : Asks.Pays (.statement t ahead) (-2) (Asks.bodiless (Steps.evaluation t ahead)) 1 := by
    have under : (Activation.expr .lowest (t :: ahead)).Under (.statement t ahead) :=
      ⟨List.suffix_rfl, .inr (Nat.lt_succ_self _)⟩
    refine pays_bodiless (pays_ask (fun _ => rfl) start under (by simp) fun e rest m paid => ?_)
    exact pays_ended paid (by simp)
  rw [Asks.statement]
  cases t.kind with
  | letWord =>
    have reads := pays_declaration (x := .statement t ahead) t.position taken (by decide)
    exact pays_bodiless (reads.mono fun r m paid => paid.mono (by decide))
  | returnWord => exact pays_bodiless (pays_value (fun _ _ => rfl) taken (by decide) (by decide))
  | ifWord =>
    refine pays_header (pays_condition taken (by decide)) (by decide) ?_
    rintro ⟨condition, brace⟩ rest m paid
    refine ⟨under_of_paid paid (by decide), fun r l within => ?_⟩
    have further := paid.further within
    obtain ⟨nested, outcome⟩ := r
    cases outcome with
    | error f => exact further.mono (by simp)
    | ok found => exact (pays_otherwise further (by simp)).mono fun r m paid => paid.mono (by simp)
  | whileWord =>
    refine pays_header (pays_condition taken (by decide)) (by decide) ?_
    exact fun condition rest m paid => pays_body paid (by decide) (by decide)
  | funcWord =>
    refine pays_header (pays_signature taken (by decide)) (by decide) ?_
    exact fun signature rest m paid => pays_body paid (by decide) (by decide)
  | leftBrace => exact pays_body taken (by decide) (by decide)
  | identifier =>
    dsimp only
    by_cases assigns : Failure.nextKind ahead = .equal
    · rw [if_pos assigns]
      have reads := pays_assignment (x := .statement t ahead) t taken (by decide)
      exact pays_bodiless (reads.mono fun r m paid => paid.mono (by decide))
    · rw [if_neg assigns]
      exact evaluates
  | _ => exact evaluates

/-- Passing over tokens, in whatever depth, leaves what an activation of its own pays for. -/
theorem walks_skip (depth : Nat) (ts : List Token) :
    (Asks.skip depth ts).Walks (.skip depth ts) (fun rest m => Paid 1 ts rest m) 1 := by
  have start := Paid.start ts
  cases ts with
  | nil => exact start
  | cons t ahead =>
    rw [Asks.skip]
    by_cases ends : depth = 0 ∧ t.kind.isBoundary = true
    · rw [if_pos ends]
      exact start
    · rw [if_neg ends]
      cases t.kind.passed depth with
      | none => exact start.taken.mono (by decide)
      | some depth =>
        refine ⟨under_of_paid start.taken (by decide), fun rest m within => ?_⟩
        exact (start.taken.further within).mono (by simp)

/-- Recovery from a failure leaves what one activation more pays for. -/
theorem walks_recover {f : Failure} (paid : Paid a x.tokens f.ahead n) (covered : a ≤ 0) :
    (Asks.recover f).Walks x (fun rest m => Paid (a + 1) x.tokens rest m) n := by
  rw [Asks.recover]
  cases f.entered.map (·.kind.passed 0) with
  | none => exact ⟨under_of_paid paid covered, fun rest m within => paid.further within⟩
  | some depth? =>
    cases depth? with
    | none => exact paid.mono (by omega)
    | some depth => exact ⟨under_of_paid paid covered, fun rest m within => paid.further within⟩

/-- An attempt at a statement, with the recovery from it, consumes what pays for one activation behind it. -/
theorem walks_trial {t : Token} {ahead : List Token} {next : List Failure → Option Stmt → List Token → Asks α}
    {good : α → Nat → Prop} (paid : Paid a x.tokens (t :: ahead) n)
    (under : (Activation.statement t ahead).Under x) (covered : a ≤ 1)
    (inside : ∀ recorded s? rest m, Paid (a - 1) x.tokens rest m → (next recorded s? rest).Walks x good m) :
    (Asks.trial t ahead next).Walks x good n := by
  refine ⟨under, fun r m within => ?_⟩
  -- What the statement leaves pays for passing over the rest of it, and for going on behind it.
  have further : Paid (a + -2) x.tokens (Part.left r.2) (n + m) := paid.further within
  obtain ⟨nested, outcome⟩ := r
  cases outcome with
  | ok found => exact inside _ _ _ _ (further.mono (by omega))
  | error f =>
    refine (walks_recover further (by omega)).bind fun rest m paid => ?_
    exact inside _ _ _ _ (paid.mono (by omega))

theorem pays_bodyOf (ts : List Token) : Asks.Pays (.body ts) 1 (Asks.bodyOf ts) 1 := by
  have start := Paid.start ts
  cases ts with
  | nil => exact start
  | cons t ahead =>
    rw [Asks.bodyOf]
    by_cases closes : t.kind = .rightBrace
    · rw [if_pos closes]
      exact start.taken.mono (by decide)
    · rw [if_neg closes]
      have under : (Activation.statement t ahead).Under (.body (t :: ahead)) :=
        ⟨List.suffix_rfl, .inr (Nat.lt_succ_self _)⟩
      refine walks_trial start under (Int.le_refl 1) fun recorded s? rest m paid => ?_
      exact pays_body paid (by decide) (by decide)

theorem walks_script (ts : List Token) :
    (Asks.script ts).Walks (.script ts) (fun _ m => Paid 1 ts [] m) 1 := by
  have start := Paid.start ts
  cases ts with
  | nil => exact start
  | cons t ahead =>
    rw [Asks.script]
    have under : (Activation.statement t ahead).Under (.script (t :: ahead)) :=
      ⟨List.suffix_rfl, .inr (Nat.lt_succ_self _)⟩
    refine walks_trial start under (Int.le_refl 1) fun recorded s? rest m paid => ?_
    exact ⟨under_of_paid paid (by decide), fun r l within => paid.further within⟩

/-- The course of an activation asks for activations under it only, and is within the allowance of the activation
    if these are within theirs. -/
theorem walks_course (x : Activation) : x.course.Walks x x.Within 1 := by
  cases x with
  | path name ts => exact pays_path name ts
  | expr minimum ts => exact pays_expr minimum ts
  | operators minimum left ts => exact pays_operators minimum left ts
  | arguments ts => exact pays_arguments ts
  | items ts => exact pays_items ts
  | names ts => exact pays_names ts
  | skip depth ts => exact walks_skip depth ts
  | statement t ahead => exact pays_statement t ahead
  | body ts => exact pays_bodyOf ts
  | script ts => exact walks_script ts

end

/-! ## Parsing ends -/

namespace Activation

theorem Under.trans {x y z : Activation} (under : x.Under y) (above : y.Under z) : x.Under z := by
  have fewer := under.suffix.length_le
  have fewer' := above.suffix.length_le
  refine ⟨under.suffix.trans above.suffix, ?_⟩
  rcases under.lower with less | lower
  · exact .inl (by omega)
  · rcases above.lower with less' | lower'
    · exact .inl (by omega)
    · exact .inr (by omega)

/-- There is no endless descent under an activation. -/
def size (x : Activation) : Nat :=
  3 * x.tokens.length + x.rank

theorem rank_le (x : Activation) : x.rank ≤ 2 := by
  cases x <;> simp [rank, reader]

theorem size_lt_of_under {x y : Activation} (under : y.Under x) : y.size < x.size := by
  have fewer := under.suffix.length_le
  have bound := y.rank_le
  unfold size
  rcases under.lower with less | lower <;> omega

theorem allowance_le (x : Activation) : x.allowance ≤ 3 := by
  cases x with
  | expr minimum ts => exact Int.le_trans (allowance_expr_le minimum ts) (by decide)
  | _ => simp

/-- Every activation runs to an end, within its allowance, and comes to what its reader gives. -/
theorem runs_within (x : Activation) : ∃ n, Runs x.course x.read n ∧ x.Within x.read (n + 1) := by
  have below (y : Activation) (_ : y.Under x) := y.runs_within
  obtain ⟨n, runs, within⟩ := (walks_course x).runs below
  rw [answered_course] at runs within
  rw [Nat.add_comm] at within
  exact ⟨n, runs, within⟩
termination_by x.size
decreasing_by exact size_lt_of_under ‹_›

theorem under_of_mem_calls {x y : Activation} (called : y ∈ x.calls) : y.Under x := by
  refine (walks_course x).asked (fun z _ => ?_) y called
  obtain ⟨n, -, within⟩ := z.runs_within
  exact ⟨n + 1, within⟩

/-- An activation calls for another one, at whatever depth. -/
def Reaches : Activation → Activation → Prop :=
  Relation.TransGen fun x y => y ∈ x.calls

theorem under_of_reaches {x y : Activation} (reaches : x.Reaches y) : y.Under x := by
  induction reaches with
  | single called => exact under_of_mem_calls called
  | tail _ called under => exact (under_of_mem_calls called).trans under

/-- An activation comes to an end. -/
structure Ends (x : Activation) : Prop where
  /-- What it does between the activations that it calls for is what the reader does. -/
  answered : x.course.answered read = x.read
  /-- What it calls for has no more tokens in front of it. -/
  onward : ∀ y ∈ x.calls, y.tokens <:+ x.tokens
  /-- Its reader is entered again only behind a token that was consumed. -/
  again : ∀ y, x.Reaches y → y.reader = x.reader → y.tokens <:+ x.tokens ∧ y.tokens.length < x.tokens.length
  /-- It calls for so many activations, at whatever depth. -/
  runs : ∃ n ≤ 6 * x.tokens.length + 2, ∀ r m, Runs x.course r m ↔ r = x.read ∧ m = n

theorem ends (x : Activation) : x.Ends where
  answered := answered_course x
  onward y called := (under_of_mem_calls called).suffix
  again y reaches same := by
    have under := under_of_reaches reaches
    refine ⟨under.suffix, under.lower.resolve_right ?_⟩
    rw [rank, rank, same]
    exact Nat.lt_irrefl _
  runs := by
    obtain ⟨n, runs, within⟩ := x.runs_within
    refine ⟨n, ?_, fun r m => ⟨fun other => runs_unique other runs, ?_⟩⟩
    · have turns := within.turns
      have bound := x.allowance_le
      omega
    · rintro ⟨rfl, rfl⟩
      exact runs

end Activation

/-! The loops over statements. -/

theorem asked_bind {α β : Type} (answer : (x : Activation) → x.Answer) (c : Asks α) (k : α → Asks β) :
    (c >>= k).asked answer = c.asked answer ++ (k (c.answered answer)).asked answer := by
  induction c with
  | done a => rfl
  | ask x go ih => exact congrArg (x :: ·) (ih (answer x))

/-- What an attempt at a statement calls for last is what is called for behind it. -/
theorem asked_trial {α : Type} (x : Trial) (next : List Failure → Option Stmt → List Token → Asks α) :
    (next x.recorded x.statement? x.onward).asked Activation.read <:+
      (Asks.trial x.first x.ahead next).asked Activation.read := by
  refine List.IsSuffix.trans ?_ (List.suffix_cons _ _)
  simp only [Activation.read, Trial.recorded, Trial.statement?, Trial.failure?, Trial.onward, Trial.attempt]
  cases readStatement x.first x.ahead with
  | mk nested outcome =>
    cases outcome with
    | ok found => simp [Reading.plain]
    | error s => simp [Reading.plain, asked_bind, answered_recover]

namespace Trial

/-- An attempt in a script is the first turn of a loop, and the next turn is called for from where it goes on. -/
theorem next_turn (x : Trial) :
    Activation.script x.onward ∈ (Activation.script (x.first :: x.ahead)).calls := by
  rw [Activation.calls, Activation.course, Asks.script]
  refine (asked_trial x _).subset ?_
  exact List.mem_cons_self

/-- The same of an attempt in a body, in front of its closing brace. -/
theorem next_turn_body {x : Trial} (other : x.first.kind ≠ .rightBrace) :
    Activation.body x.onward ∈ (Activation.body (x.first :: x.ahead)).calls := by
  rw [Activation.calls, Activation.course, Asks.bodyOf, if_neg other]
  refine (asked_trial x _).subset ?_
  exact List.mem_cons_self

/-- With the recovery from it, an attempt consumes the first token in front of it. -/
theorem onward_suffix (x : Trial) : x.onward <:+ x.ahead := by
  have suffix : x.onward <:+ x.first :: x.ahead := (Activation.under_of_mem_calls x.next_turn).suffix
  rcases List.suffix_cons_iff.mp suffix with whole | later
  · have shorter := x.length_onward_lt
    rw [whole] at shorter
    exact absurd shorter (Nat.lt_irrefl _)
  · exact later

end Trial

theorem length_readAll_le (s : Scanner) : s.readAll.1.length ≤ s.rest.length := by
  rw [readAll_eq]
  cases read : s.read? with
  | none => exact Nat.zero_le _
  | some found =>
    have shorter := Scanner.length_lt_of_read? read
    have later := length_readAll_le found.2
    show found.2.readAll.1.length + 1 ≤ s.rest.length
    omega
termination_by s.rest.length

/-- Parsing ends, whatever the source is: every reader comes to an end wherever it is called (`Activation.Ends`), a
    turn of the loop over the statements of a script or of a body consumes a token, with the recovery in it, and what
    is parsed comes of no more than six activations for each character of the source, and one. -/
theorem parsing_ends (source : String) :
    (∀ x : Activation, x.Ends) ∧
      (∀ x : Trial, x.onward <:+ x.ahead ∧
        .script x.onward ∈ (Activation.script (x.first :: x.ahead)).calls ∧
        (x.first.kind ≠ .rightBrace → .body x.onward ∈ (Activation.body (x.first :: x.ahead)).calls)) ∧
      ∃ statements failures, ∃ n ≤ 6 * source.length + 1,
        Runs (Activation.script (sourceTokens source)).course (statements, failures) n ∧
          parse source =
            ⟨statements, failures.map (·.diagnostic (Scanner.ofSource source).readAll.2)⟩ := by
  refine ⟨Activation.ends, fun x => ⟨x.onward_suffix, x.next_turn, x.next_turn_body⟩, ?_⟩
  obtain ⟨n, runs, within⟩ := (Activation.script (sourceTokens source)).runs_within
  refine ⟨_, _, n, ?_, runs, parse_eq source⟩
  have turns : ((n + 1 : Nat) : Int) + 6 * 0 ≤ 6 * (sourceTokens source).length + 1 := within.turns
  have fewer : (sourceTokens source).length ≤ source.length := length_readAll_le (.ofSource source)
  omega

end Stepwise
