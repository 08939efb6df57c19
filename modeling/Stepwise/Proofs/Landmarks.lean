import Stepwise.Proofs.Trials

/-!
Where statements and blocks stand. Each has the place of a token of its own, the one that introduces it, and in
preorder these come one behind another (`Marked`): a statement stands in front of its blocks, and these in front
of what comes behind the statement (`marked_of_composed`). So places tell statements apart and tell their order
(`statements_at_tokens`).
-/
namespace Stepwise

/-- The place of a node. -/
def Node.position : Node → Position
  | .statement s => s.position
  | .block _ b => b.position

/-- A node stands at the token that introduces it, a block at the brace behind which its statements were read. -/
def Node.Stands (t : Token) (ahead : List Token) : Node → Prop
  | .statement s => Introduces t ahead s
  | .block _ b => t.kind = .leftBrace ∧ b.position = t.position ∧ ∃ rest, BodyOf ahead b.statements rest

theorem position_of_stands {t : Token} {ahead : List Token} {n : Node} (stands : n.Stands t ahead) :
    n.position = t.position := by
  cases n with
  | statement s => exact stands.position
  | block role b => exact stands.2.1

/-- Nodes in a row, each at a token behind those of the nodes before. -/
inductive Marked : List Token → List Entry → List Token → Prop where
  | none {ts rest : List Token} (later : rest <:+ ts) : Marked ts [] rest
  | next {ts ahead rest : List Token} {t : Token} {e : Entry} {entries : List Entry} (behind : t :: ahead <:+ ts)
      (stands : e.node.Stands t ahead) (more : Marked ahead entries rest) : Marked ts (e :: entries) rest

section

variable {ts ts' middle rest : List Token} {entries entries' : List Entry}

theorem Marked.behind (suffix : ts <:+ ts') (marked : Marked ts entries rest) : Marked ts' entries rest := by
  cases marked with
  | none later => exact .none (later.trans suffix)
  | next behind stands more => exact .next (behind.trans suffix) stands more

theorem Marked.append (first : Marked ts entries middle) (second : Marked middle entries' rest) :
    Marked ts (entries ++ entries') rest := by
  induction first with
  | none later => exact second.behind later
  | next behind stands more ih => exact .next behind stands (ih second)

/-- Each node stands at one of the tokens. -/
theorem Marked.stands (marked : Marked ts entries rest) :
    ∀ e ∈ entries, ∃ t ahead, t :: ahead <:+ ts ∧ e.node.Stands t ahead := by
  induction marked with
  | none later => exact List.forall_mem_nil _
  | @next ts ahead rest t e entries behind stands more ih =>
    refine List.forall_mem_cons.mpr ⟨⟨t, ahead, behind, stands⟩, fun e' member => ?_⟩
    obtain ⟨t', ahead', behind', stands'⟩ := ih e' member
    exact ⟨t', ahead', behind'.trans ((List.suffix_cons t ahead).trans behind), stands'⟩

/-- Where tokens come in the order of their places, so do nodes. -/
theorem Marked.ordered (marked : Marked ts entries rest)
    (ordered : ts.Pairwise fun a b => a.position.offset < b.position.offset) :
    entries.Pairwise fun a b => a.node.position.offset < b.node.position.offset := by
  induction marked with
  | none later => exact List.Pairwise.nil
  | @next ts ahead rest t e entries behind stands more ih =>
    obtain ⟨further, ordered⟩ := List.pairwise_cons.mp (ordered.sublist behind.sublist)
    refine List.pairwise_cons.mpr ⟨fun e' member => ?_, ih ordered⟩
    obtain ⟨t', ahead', behind', stands'⟩ := more.stands e' member
    rw [position_of_stands stands, position_of_stands stands']
    exact further t' (behind'.subset List.mem_cons_self)

end

/-! ## Outlines -/

/-- The outline of a statement but a block: the statement, and the outlines of its blocks. -/
theorem outline_eq {s : Stmt} (depth : Nat) (other : ∀ body, s ≠ .block body) :
    s.outline depth = ⟨depth, .statement s⟩ :: s.parts.flatMap fun part => part.2.outline (depth + 1) part.1 := by
  cases s with
  | block body => exact absurd rfl (other body)
  | branch p condition consequence alternative => cases alternative <;> simp [Stmt.outline, Stmt.parts]
  | _ => simp [Stmt.outline, Stmt.parts]

theorem outlineEach_eq (depth : Nat) (statements : List Stmt) :
    outlineEach depth statements = statements.flatMap (Stmt.outline depth) := by
  induction statements with
  | nil => rfl
  | cons s statements ih => rw [outlineEach, ih, List.flatMap_cons]

theorem outlineEach_append (depth : Nat) (statements statements' : List Stmt) :
    outlineEach depth (statements ++ statements') = outlineEach depth statements ++ outlineEach depth statements' := by
  simp only [outlineEach_eq, List.flatMap_append]

/-- The bodies of fewer than `n` tokens are marked. -/
def BodiesMarked (n : Nat) : Prop :=
  ∀ {body : List Token}, body.length < n → ∀ {statements : List Stmt} {rest : List Token}, BodyOf body statements rest →
    ∀ depth, Marked body (outlineEach depth statements) rest

section

variable {n : Nat}

theorem marked_of_blocks (marked : BodiesMarked n) {ts rest : List Token} {blocks : List Block}
    {bodies : List (List Token)} (read : Blocks ts blocks bodies rest) (short : ts.length ≤ n) (depth : Nat)
    {parts : List (Role × Block)} (same : parts.map Prod.snd = blocks) :
    Marked ts (parts.flatMap fun part => part.2.outline depth part.1) rest := by
  induction read generalizing parts with
  | none later =>
    obtain rfl := List.map_eq_nil_iff.mp same
    exact .none later
  | next behind opens body more ih =>
    obtain ⟨⟨role, block⟩, parts, rfl, rfl, others⟩ := List.map_eq_cons_iff.mp same
    have within := behind.length_le
    have fewer := (suffix_of_readBody body).length_le
    rw [List.length_cons] at within
    have later := ih (by omega) others
    have inner := marked (by omega) body (depth + 1)
    rw [List.flatMap_cons, Block.outline, List.cons_append]
    exact .next behind ⟨opens, rfl, _, body⟩ (inner.append later)

/-- A statement stands in front of its blocks, and these in front of what is left. -/
theorem marked_of_composed (marked : BodiesMarked n) {t : Token} {ahead rest : List Token} {s : Stmt}
    (short : ahead.length < n) (composed : Composed t ahead s rest) (depth : Nat) :
    Marked (t :: ahead) (s.outline depth) rest := by
  cases composed with
  | block opens read => exact .next List.suffix_rfl ⟨opens, rfl, _, read⟩ (marked short read (depth + 1))
  | other introduces blocks =>
    have other : ∀ body, s ≠ .block body := by
      rintro body rfl
      cases introduces
    rw [outline_eq depth other]
    exact .next List.suffix_rfl introduces (marked_of_blocks marked blocks (Nat.le_of_lt short) (depth + 1) rfl)

/-- What an attempt gives stands among the tokens up to those with which reading goes on. -/
theorem marked_of_trial (marked : BodiesMarked n) {x : Trial} (short : x.ahead.length < n) (depth : Nat) :
    Marked (x.first :: x.ahead) (outlineEach depth x.statement?.toList) x.onward := by
  have reads := reads_statement x.first x.ahead
  unfold Trial.statement? Trial.onward Trial.attempt
  cases outcome : (readStatement x.first x.ahead).outcome with
  | ok found =>
    obtain ⟨s, r⟩ := found
    simpa [outlineEach] using marked_of_composed marked short (composed_of_read outcome) depth
  | error f =>
    rw [outcome] at reads
    exact .none ((recover_suffix_tokens f.failure).trans (passes_of_reads reads).1.suffix)

end

theorem bodiesMarked (n : Nat) : BodiesMarked n := by
  induction n with
  | zero => exact fun short => absurd short (Nat.not_lt_zero _)
  | succ n marked =>
    intro body short statements rest read depth
    cases body with
    | nil => exact absurd read not_bodyOf_nil
    | cons t ahead =>
      by_cases closes : t.kind = .rightBrace
      · obtain ⟨rfl, rfl⟩ := body_closed closes read
        exact .none (List.suffix_cons t _)
      · obtain ⟨later, body, rfl⟩ := body_cons closes read
        have onward := (Trial.mk t ahead).length_onward_lt
        have first := marked_of_trial marked (x := ⟨t, ahead⟩) (Nat.lt_of_succ_lt_succ short) depth
        rw [outlineEach_append]
        exact first.append (marked (Nat.lt_of_lt_of_le onward (Nat.le_of_lt_succ short)) body depth)

theorem marked_script (ts : List Token) (depth : Nat) : Marked ts (outlineEach depth (readScript ts).1) [] := by
  fun_induction row false ts with
  | case1 =>
    rw [readScript]
    exact .none List.suffix_rfl
  | case2 t ahead closes => cases closes.1
  | case3 t ahead goesOn ih =>
    rw [readScript_cons, outlineEach_append]
    exact (marked_of_trial (bodiesMarked _) (Nat.lt_succ_self ahead.length) depth).append ih

/-! ## Siblings -/

/-- Whatever belongs to a statement of a row stands in front of whatever belongs to a later one. -/
def Arranged (depth : Nat) (statements : List Stmt) : Prop :=
  statements.Pairwise fun s s' => ∀ e ∈ s.outline depth, ∀ e' ∈ s'.outline depth,
    e.node.position.offset < e'.node.position.offset

theorem arranged_of_ordered {depth : Nat} {statements : List Stmt}
    (ordered : (outlineEach depth statements).Pairwise fun a b => a.node.position.offset < b.node.position.offset) :
    Arranged depth statements := by
  rw [outlineEach_eq, List.pairwise_flatMap] at ordered
  exact ordered.2

/-- Of each block the outlines of its statements are there, too. -/
def Nested (entries : List Entry) : Prop :=
  ∀ e ∈ entries, ∀ role b, e.node = .block role b → (outlineEach (e.depth + 1) b.statements).Sublist entries

theorem Nested.append {entries entries' : List Entry} (first : Nested entries) (second : Nested entries') :
    Nested (entries ++ entries') := by
  intro e member role b block
  rcases List.mem_append.mp member with member | member
  · exact (first e member role b block).trans (List.sublist_append_left _ _)
  · exact (second e member role b block).trans (List.sublist_append_right _ _)

theorem nested_statement (depth : Nat) (s : Stmt) : Nested [⟨depth, .statement s⟩] := by
  rintro e member role b block
  obtain rfl := List.mem_singleton.mp member
  cases block

mutual

theorem nested_outline (depth : Nat) : (s : Stmt) → Nested (s.outline depth)
  | .block body => nested_block depth .own body
  | .branch _ _ consequence none =>
    (nested_statement depth _).append (nested_block (depth + 1) .consequence consequence)
  | .branch _ _ consequence (some alternative) =>
    (nested_statement depth _).append
      ((nested_block (depth + 1) .consequence consequence).append (nested_block (depth + 1) .alternative alternative))
  | .loop _ _ body => (nested_statement depth _).append (nested_block (depth + 1) .body body)
  | .define _ _ _ body => (nested_statement depth _).append (nested_block (depth + 1) .body body)
  | .declare .. => nested_statement depth _
  | .assign .. => nested_statement depth _
  | .giveBack .. => nested_statement depth _
  | .evaluate .. => nested_statement depth _

theorem nested_block (depth : Nat) (role : Role) : (b : Block) → Nested (b.outline depth role)
  | .mk _ statements => by
    intro e member role' b block
    rcases List.mem_cons.mp member with rfl | member
    · cases block
      exact List.sublist_cons_self _ _
    · exact (nested_outlineEach (depth + 1) statements e member role' b block).trans (List.sublist_cons_self _ _)

theorem nested_outlineEach (depth : Nat) : (statements : List Stmt) → Nested (outlineEach depth statements)
  | [] => fun _ member => absurd member List.not_mem_nil
  | s :: statements => (nested_outline depth s).append (nested_outlineEach depth statements)

end

/-! ## Sources -/

/-- Where the statements and blocks of a script stand in its source: each at a token of its own that introduces
    it, in preorder one behind another, and in every row the whole of a statement in front of the next one. -/
structure Landmarks (source : String) (script : List Stmt) : Prop where
  stands : ∀ e ∈ outlineEach 0 script, ∃ t ahead,
    t :: ahead <:+ sourceTokens source ∧ e.node.position = t.position ∧ e.node.Stands t ahead
  preorder : (outlineEach 0 script).Pairwise fun a b => a.node.position.offset < b.node.position.offset
  row : Arranged 0 script
  rows : ∀ e ∈ outlineEach 0 script, ∀ role b, e.node = .block role b → Arranged (e.depth + 1) b.statements

/-- The places of statements and blocks identify their first tokens, whether or not all of the source is
    well-formed. -/
theorem statements_at_tokens (source : String) : Landmarks source (parse source).script := by
  have located : Located source.toList 0 (sourceTokens source) _ :=
    located_of_laid (laid_readAll (.ofSource source)) [] rfl
  have ordered := (List.pairwise_append.mp located.ordered).1
  have marked := marked_script (sourceTokens source) 0
  have preorder := marked.ordered ordered
  refine ⟨fun e member => ?_, preorder, arranged_of_ordered preorder, fun e member role b block => ?_⟩
  · obtain ⟨t, ahead, behind, stands⟩ := marked.stands e member
    exact ⟨t, ahead, behind, position_of_stands stands, stands⟩
  · have sublist := nested_outlineEach 0 _ e member role b block
    exact arranged_of_ordered (preorder.sublist sublist)

end Stepwise
