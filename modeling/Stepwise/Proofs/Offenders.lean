import Stepwise.Proofs.Partition
import Stepwise.Proofs.Statements

/-!
The tokens that diagnostics are about. A failure is about the first of its tokens, those that the reader still
had in front of it (`offender_eq`), and recovery goes on with these or with fewer (`recover_suffix_tokens`). So
on the way through a script there are ever fewer of them (`passes_of_reads`), and the diagnostics point at
tokens of the source, in the order of these (`diagnostics_in_order`).
-/
namespace Stepwise

/-- The tokens from the refused one on. -/
def Failure.tokens (x : Failure) : List Token :=
  x.entered.toList ++ x.ahead

/-- A failure is about the first of its tokens, or about the end of the source. -/
theorem offender_eq (x : Failure) (stop : Token) : x.offender stop = x.tokens.head?.getD stop := by
  obtain ⟨complaint, entered, ahead⟩ := x
  cases entered <;> rfl

theorem tokens_of_refused {rest : List Token} {x : Failure} (refused : Refused rest x) : x.tokens = rest := by
  cases refused with
  | unexpected other => rfl
  | noExpression => cases rest <;> rfl

/-- Recovery goes on with some of the tokens of the failure. -/
theorem recover_suffix_tokens (x : Failure) : x.recover <:+ x.tokens :=
  x.recover_suffix.trans (List.suffix_append _ _)

theorem suffix_of_behind {ts rest : List Token} {ks : List Kind} (behind : Behind ts ks rest) : rest <:+ ts := by
  obtain ⟨used, rfl, -⟩ := behind
  exact List.suffix_append used rest

/-! ## What complaints are about -/

/-- What a complaint says of a token. -/
def Complaint.Names (t : Token) : Complaint → Prop
  | .expected _ found => found = t.kind
  | .illegal literal => t.kind = .illegal ∧ literal = t.literal
  | .noExpression found => found = t.kind

/-- The failures of readers. -/
inductive Refusal : Failure → Prop where
  | unexpected (what : String) (rest : List Token) : Refusal (.unexpected what rest)
  | noExpression (rest : List Token) : Refusal (.noExpression rest)

theorem refusal_of_refused {rest : List Token} {x : Failure} (refused : Refused rest x) : Refusal x := by
  cases refused with
  | unexpected other => exact .unexpected _ rest
  | noExpression => exact .noExpression rest

/-- What a failure complains about is what the refused token is. -/
theorem names_offender {x : Failure} (refusal : Refusal x) {stop : Token} (ends : stop.kind = .eof) :
    x.complaint.Names (x.offender stop) := by
  cases refusal with
  | unexpected what rest =>
    cases rest with
    | nil => exact ends.symm
    | cons t ahead => rfl
  | noExpression rest =>
    cases rest with
    | nil => exact ends.symm
    | cons t ahead =>
      by_cases illegal : t.kind = .illegal
      · simp [Failure.noExpression, Failure.offender, Complaint.Names, illegal]
      · simp [Failure.noExpression, Failure.offender, Complaint.Names, illegal]

/-! ## Ever fewer tokens -/

/-- Each of these is what is left of those before. -/
def Descends (stages : List (List Token)) : Prop :=
  stages.Pairwise fun earlier later => later <:+ earlier

/-- The failures on the way through tokens, each about one that is left behind those before. -/
structure Passes (ts : List Token) (failures : List Failure) (left : List Token) : Prop where
  refusals : ∀ x ∈ failures, Refusal x
  descends : Descends (ts :: (failures.map Failure.tokens ++ [left]))

section

variable {ts middle left : List Token} {failures failures' : List Failure}

theorem passes_nil (suffix : left <:+ ts) : Passes ts [] left :=
  ⟨List.forall_mem_nil _, by simpa [Descends] using suffix⟩

theorem Passes.suffix (passes : Passes ts failures left) : left <:+ ts :=
  (List.pairwise_cons.mp passes.descends).1 left (by simp)

/-- One way behind another. -/
theorem Passes.append (first : Passes ts failures middle) (second : Passes middle failures' left) :
    Passes ts (failures ++ failures') left := by
  refine ⟨List.forall_mem_append.mpr ⟨first.refusals, second.refusals⟩, ?_⟩
  obtain ⟨fewer, front⟩ := List.pairwise_cons.mp first.descends
  obtain ⟨front, -, ends⟩ := List.pairwise_append.mp front
  obtain ⟨later, rest⟩ := List.pairwise_cons.mp second.descends
  have within : ∀ stage ∈ ts :: failures.map Failure.tokens, middle <:+ stage := by
    intro stage member
    rcases List.mem_cons.mp member with rfl | member
    · exact first.suffix
    · exact ends stage member middle (List.mem_singleton_self middle)
  have whole : Descends ((ts :: failures.map Failure.tokens) ++ (failures'.map Failure.tokens ++ [left])) := by
    refine List.pairwise_append.mpr ⟨List.pairwise_cons.mpr ⟨?_, front⟩, rest, ?_⟩
    · exact fun stage member => fewer stage (List.mem_append_left _ member)
    · exact fun stage member stage' member' => (later stage' member').trans (within stage member)
  simpa using whole

theorem Passes.behind {ks : List Kind} (behind : Behind ts ks middle) (passes : Passes middle failures left) :
    Passes ts failures left :=
  (passes_nil (suffix_of_behind behind)).append passes

/-- A failure, and recovery from it. -/
theorem Passes.recovered {x : Failure} (passes : Passes ts failures x.tokens) (refusal : Refusal x) :
    Passes ts (failures ++ [x]) x.recover := by
  refine passes.append ⟨by simpa using refusal, ?_⟩
  simpa [Descends] using recover_suffix_tokens x

end

/-- The tokens with which reading goes on, or at which it gives up. -/
def reached : Except Failure (List Token) → List Token
  | .ok rest => rest
  | .error x => x.tokens

/-- Reading goes on with fewer and fewer tokens, whatever is malformed. -/
theorem passes_of_reads {site : Site} {ts : List Token} {nested : List Failure} {result : Except Failure (List Token)}
    (reads : Reads site ts nested result) : Passes ts nested (reached result) ∧ ∀ x, result = .error x → Refusal x := by
  induction reads with
  | whole behind bodiless => exact ⟨passes_nil (suffix_of_behind behind), by simp⟩
  | refused behind level refused =>
    refine ⟨passes_nil ?_, by rintro x ⟨⟩; exact refusal_of_refused refused⟩
    rw [reached, tokens_of_refused refused]
    exact suffix_of_behind behind
  | unclosed behind header body ih => exact ⟨ih.1.behind behind, ih.2⟩
  | single behind header body ih => exact ⟨ih.1.behind behind, by simp⟩
  | cut behind condition body otherwise refused ih =>
    obtain ⟨passes, -⟩ := ih
    have last := (passes.behind behind).append (passes_nil (suffix_of_behind otherwise))
    rw [List.append_nil, ← tokens_of_refused refused] at last
    exact ⟨last, by rintro x ⟨⟩; exact refusal_of_refused refused⟩
  | choice behind condition body otherwise alternative ih ih' =>
    exact ⟨(ih.1.behind behind).append (ih'.1.behind otherwise), ih'.2⟩
  | ended => exact ⟨passes_nil List.suffix_rfl, by rintro x ⟨⟩; exact .unexpected _ _⟩
  | @closed t ahead closes => exact ⟨passes_nil (List.suffix_cons t ahead), by simp⟩
  | more other statement body ih ih' => exact ⟨ih.1.append ih'.1, ih'.2⟩
  | recovered other statement body ih ih' => exact ⟨(ih.1.recovered (ih.2 _ rfl)).append ih'.1, ih'.2⟩

theorem passes_of_readsAll {ts : List Token} {failures : List Failure} (reads : ReadsAll ts failures) :
    Passes ts failures [] := by
  induction reads with
  | nothing => exact passes_nil List.suffix_rfl
  | more statement script ih => exact (passes_of_reads statement).1.append ih
  | @recovered t ahead nested failures x statement script ih =>
    obtain ⟨passes, refusal⟩ := passes_of_reads statement
    simpa using (passes.recovered (refusal x rfl)).append ih

/-! ## Diagnostics -/

/-- A diagnostic stands at a token, is as wide, and says what the token is. -/
structure Diagnostic.PointsAt (d : Diagnostic) (t : Token) : Prop where
  position : d.position = t.position
  width : d.width = t.width
  names : d.complaint.Names t

/-- The first of fewer tokens stands behind the first of more. -/
theorem offset_mono {ts more fewer : List Token} {stop : Token}
    (ordered : (ts ++ [stop]).Pairwise fun a b => a.position.offset < b.position.offset) (suffix : more <:+ ts)
    (later : fewer <:+ more) :
    (more.head?.getD stop).position.offset ≤ (fewer.head?.getD stop).position.offset := by
  obtain ⟨front, rfl⟩ := suffix
  obtain ⟨between, rfl⟩ := later
  rw [List.append_assoc] at ordered
  obtain ⟨-, inner, -⟩ := List.pairwise_append.mp ordered
  cases between with
  | nil => exact Nat.le_refl _
  | cons t between =>
    obtain ⟨behind, -⟩ := List.pairwise_cons.mp inner
    refine Nat.le_of_lt (behind _ ?_)
    cases fewer <;> simp

/-- Every diagnostic points at a token of the source or at its end, and the diagnostics come in the order of
    these. -/
theorem diagnostics_in_order (source : String) :
    (∀ d ∈ (parse source).diagnostics, ∃ t ∈ tokenize source, d.PointsAt t) ∧
      (parse source).diagnostics.Pairwise fun d e => d.position.offset ≤ e.position.offset := by
  have located : Located source.toList 0 _ _ := located_of_laid (laid_readAll (.ofSource source)) [] rfl
  obtain ⟨refusals, descends⟩ := passes_of_readsAll (reads_script (Scanner.ofSource source).readAll.1)
  obtain ⟨inside, descends⟩ := List.pairwise_cons.mp descends
  obtain ⟨descends, -, -⟩ := List.pairwise_append.mp descends
  have suffix : ∀ x ∈ (readScript (Scanner.ofSource source).readAll.1).2,
      x.tokens <:+ (Scanner.ofSource source).readAll.1 :=
    fun x member => inside _ (List.mem_append_left _ (List.mem_map_of_mem member))
  simp only [parse, tokenize]
  constructor
  · intro d member
    obtain ⟨x, failed, rfl⟩ := List.mem_map.mp member
    refine ⟨x.offender (Scanner.ofSource source).readAll.2, ?_, rfl, rfl, ?_⟩
    · rw [offender_eq]
      cases first : x.tokens.head? with
      | none => simp
      | some t =>
        have among : t ∈ x.tokens := List.mem_of_mem_head? first
        exact List.mem_append_left _ ((suffix x failed).subset among)
    · exact names_offender (refusals x failed) located.ended.1
  · rw [List.pairwise_map]
    refine List.Pairwise.imp_of_mem ?_ (List.pairwise_map.mp descends)
    intro x y failed failed' later
    have first := offset_mono located.ordered (suffix x failed) later
    rwa [← offender_eq, ← offender_eq] at first

end Stepwise
