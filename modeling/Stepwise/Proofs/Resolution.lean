import Stepwise.Registry

/-!
Names of native functions. A name is cut at its dots into a path, and the path put together is the name
again, so that no two names have one path (`isPath_iff`). Whatever was registered before, the resolver
registered last under the first word of the path decides, and it is the only one that is asked; a table
answers with the function of exactly that name that was put into it last (`finds_latest`).
-/
namespace Stepwise

/-! ## Paths -/

/-- The path of a name: the words between its dots, at least one, some of them empty perhaps. -/
structure IsPath (name : String) (path : List String) : Prop where
  nonempty : path ≠ []
  dotless : ∀ word ∈ path, '.' ∉ word.toList
  joined : ".".intercalate path = name

/-- The words of a name between its dots. -/
def pathOf (name : String) : List String :=
  (Text.segments '.' name.toList).map String.ofList

/-- What stands in front of the first dot of a name. -/
def firstWord (name : String) : String :=
  String.ofList (name.toList.takeWhile (· ≠ '.'))

theorem segments_eq_splitOn (separator : Char) (text : List Char) :
    Text.segments separator text = text.splitOn separator := by
  induction text with
  | nil => rfl
  | cons c text ih =>
    obtain ⟨first, rest, parts⟩ := List.exists_cons_of_ne_nil (Text.segments_ne_nil separator text)
    rw [Text.segments, List.splitOn, List.splitOnP_cons_eq_if_modifyHead, ← List.splitOn, ← ih, parts]
    by_cases same : c = separator
    · rw [if_pos same, if_pos (beq_iff_eq.mpr same)]
    · rw [if_neg same, if_neg (by simpa using same)]
      rfl

theorem not_mem_segments (separator : Char) (text : List Char) :
    ∀ segment ∈ Text.segments separator text, separator ∉ segment := by
  induction text with
  | nil => simp [Text.segments]
  | cons c text ih =>
    obtain ⟨first, rest, parts⟩ := List.exists_cons_of_ne_nil (Text.segments_ne_nil separator text)
    rw [Text.segments]
    by_cases same : c = separator
    · rw [if_pos same]
      exact List.forall_mem_cons.mpr ⟨List.not_mem_nil, ih⟩
    · rw [parts, List.forall_mem_cons] at ih
      rw [if_neg same, parts, Text.consSegment, List.forall_mem_cons, List.mem_cons, not_or]
      exact ⟨⟨Ne.symm same, ih.1⟩, ih.2⟩

/-- The first segment is what stands in front of the first separator. -/
theorem head_segments (separator : Char) (text : List Char) :
    (Text.segments separator text).head? = some (text.takeWhile (· ≠ separator)) := by
  induction text with
  | nil => rfl
  | cons c text ih =>
    obtain ⟨first, rest, parts⟩ := List.exists_cons_of_ne_nil (Text.segments_ne_nil separator text)
    rw [parts] at ih
    obtain rfl := Option.some.inj ih
    rw [Text.segments, List.takeWhile_cons]
    by_cases same : c = separator
    · rw [if_pos same, if_neg (by simpa using same)]
      rfl
    · rw [if_neg same, if_pos (by simpa using same), parts]
      rfl

theorem isPath_pathOf (name : String) : IsPath name (pathOf name) := by
  refine ⟨?_, ?_, ?_⟩
  · exact fun none => Text.segments_ne_nil '.' name.toList (List.map_eq_nil_iff.mp none)
  · intro word member
    obtain ⟨segment, listed, rfl⟩ := List.mem_map.mp member
    rw [String.toList_ofList]
    exact not_mem_segments '.' name.toList segment listed
  · rw [← String.toList_inj, String.toList_intercalate, pathOf, List.map_map]
    have same : String.toList ∘ String.ofList = id := funext fun segment => String.toList_ofList
    rw [same, List.map_id]
    exact Text.intercalate_segments '.' name.toList

/-- A name has one path. -/
theorem isPath_iff (name : String) (path : List String) : IsPath name path ↔ path = pathOf name := by
  constructor
  · rintro ⟨nonempty, dotless, rfl⟩
    have apart : ∀ segment ∈ path.map String.toList, '.' ∉ segment := by
      rintro _ member
      obtain ⟨word, listed, rfl⟩ := List.mem_map.mp member
      exact dotless word listed
    have cut := List.splitOn_intercalate '.' apart (fun none => nonempty (List.map_eq_nil_iff.mp none))
    rw [pathOf, segments_eq_splitOn, String.toList_intercalate, show ".".toList = ['.'] from rfl, cut, List.map_map]
    have same : String.ofList ∘ String.toList = id := funext fun word => String.ofList_toList
    rw [same, List.map_id]
  · rintro rfl
    exact isPath_pathOf name

theorem head_pathOf (name : String) : (pathOf name).head? = some (firstWord name) := by
  rw [pathOf, List.head?_map, head_segments]
  rfl

/-! ## The last of its kind -/

section

variable {α β : Type} {P : α → Prop}

/-- The last thing in a list of which something holds. -/
def Latest (P : α → Prop) (list : List α) (a : α) : Prop :=
  P a ∧ ∃ earlier later, list = earlier ++ a :: later ∧ ∀ b ∈ later, ¬ P b

theorem latest_iff [DecidablePred P] (list : List α) (a : α) :
    Latest P list a ↔ list.reverse.find? (fun b => decide (P b)) = some a := by
  rw [List.find?_eq_some_iff_append, Latest, decide_eq_true_eq]
  refine and_congr_right fun _ => ?_
  constructor
  · rintro ⟨earlier, later, rfl, none⟩
    refine ⟨later.reverse, earlier.reverse, by simp, fun b member => ?_⟩
    simpa using none b (List.mem_reverse.mp member)
  · rintro ⟨later, earlier, reversed, none⟩
    refine ⟨earlier.reverse, later.reverse, ?_, fun b member => ?_⟩
    · rw [← List.reverse_reverse list, reversed]
      simp
    · simpa using none b (List.mem_reverse.mp member)

/-- Of the things put into a table one after the other, the last one under a name is found there. -/
theorem get?_foldl_insert (name : α → String) (item : α → β) (list : List α) (t : Table β) (wanted : String) :
    (list.foldl (fun t a => t.insert (name a) (item a)) t).get? wanted =
      ((list.reverse.find? fun a => decide (name a = wanted)).map item).or (t.get? wanted) := by
  induction list generalizing t with
  | nil => rfl
  | cons a rest ih =>
    rw [List.foldl_cons, ih, Table.get?_insert, List.reverse_cons, List.find?_append]
    cases rest.reverse.find? fun a => decide (name a = wanted) with
    | some b => rfl
    | none =>
      by_cases same : name a = wanted
      · simp [same]
      · simp [same, Ne.symm same]

end

/-! ## Tables and registries -/

/-- The registry after some registrations, each of a resolver under a first word. -/
def Registry.ofRegistrations (registrations : List (String × Resolver)) : Registry :=
  registrations.foldl (fun r e => r.register e.1 e.2) .empty

theorem resolve_ofFunctions (functions : List Native) (path : List String) (fresh : Identity) :
    (Resolver.ofFunctions functions).resolve path fresh =
      functions.reverse.find? fun f => decide (f.name = ".".intercalate path) := by
  have found := get?_foldl_insert Native.name id functions .empty (".".intercalate path)
  rw [Table.get?_empty, Option.or_none, Option.map_id] at found
  exact found

theorem resolvers_ofRegistrations (registrations : List (String × Resolver)) :
    (Registry.ofRegistrations registrations).resolvers =
      registrations.foldl (fun t e => t.insert e.1 e.2) .empty := by
  have along (r : Registry) : (registrations.foldl (fun r e => r.register e.1 e.2) r).resolvers =
      registrations.foldl (fun t e => t.insert e.1 e.2) r.resolvers := by
    induction registrations generalizing r with
    | nil => rfl
    | cons e rest ih => exact ih (r.register e.1 e.2)
  exact along .empty

/-- What is asked for a name: the resolver registered last under its first word, for its path. -/
theorem resolve_ofRegistrations (registrations : List (String × Resolver)) (name : String) (fresh : Identity) :
    (Registry.ofRegistrations registrations).resolve name fresh =
      (registrations.reverse.find? fun e => decide (e.1 = firstWord name)).bind fun e =>
        e.2.resolve (pathOf name) fresh := by
  have first := head_pathOf name
  rw [Registry.resolve, ← pathOf]
  cases path : pathOf name with
  | nil => exact absurd path (isPath_pathOf name).nonempty
  | cons word rest =>
    rw [path] at first
    obtain rfl : word = firstWord name := Option.some.inj first
    simp only [resolvers_ofRegistrations, get?_foldl_insert]
    cases registrations.reverse.find? fun e => decide (e.1 = firstWord name) <;> rfl

/-- How a name is looked up after some registrations. Its first word chooses the resolver that was registered
    last under it, whatever was registered under other words, and that resolver alone is asked, for the path of
    the name. If it is a table, it gives the function of exactly that name that was put into it last, if
    there is one, and the same instance every time. -/
structure Registry.FindsLatest (registrations : List (String × Resolver)) (name : String) : Prop where
  path : ∀ path, IsPath name path ↔ path = pathOf name
  word : ∀ path, IsPath name path → path.head? = some (firstWord name)
  asked : ∀ path, IsPath name path → ∀ resolver, Latest (·.1 = firstWord name) registrations (firstWord name, resolver) →
    ∀ fresh, (ofRegistrations registrations).resolve name fresh = resolver.resolve path fresh
  unregistered : (∀ e ∈ registrations, e.1 ≠ firstWord name) →
    ∀ fresh, (ofRegistrations registrations).resolve name fresh = none
  listed : ∀ functions, Latest (·.1 = firstWord name) registrations (firstWord name, .ofFunctions functions) →
    ∀ fresh f, (ofRegistrations registrations).resolve name fresh = some f ↔ Latest (·.name = name) functions f
  unlisted : ∀ functions, Latest (·.1 = firstWord name) registrations (firstWord name, .ofFunctions functions) →
    ∀ fresh, (ofRegistrations registrations).resolve name fresh = none ↔ ∀ f ∈ functions, f.name ≠ name
  sameInstance : ∀ functions, Latest (·.1 = firstWord name) registrations (firstWord name, .ofFunctions functions) →
    ∀ fresh fresh', (ofRegistrations registrations).resolve name fresh = (ofRegistrations registrations).resolve name fresh'
  unrelated : ∀ others : List (String × Resolver),
    others.filter (fun e => decide (e.1 = firstWord name)) = registrations.filter (fun e => decide (e.1 = firstWord name)) →
    ∀ fresh, (ofRegistrations others).resolve name fresh = (ofRegistrations registrations).resolve name fresh

/-- After whatever registrations, a name is looked up under the latest of them. -/
theorem finds_latest (registrations : List (String × Resolver)) (name : String) :
    Registry.FindsLatest registrations name := by
  have asked (resolver : Resolver) (latest : Latest (·.1 = firstWord name) registrations (firstWord name, resolver))
      (fresh : Identity) : (Registry.ofRegistrations registrations).resolve name fresh =
        resolver.resolve (pathOf name) fresh := by
    rw [resolve_ofRegistrations, (latest_iff registrations _).mp latest]
    rfl
  have table (functions : List Native)
      (latest : Latest (·.1 = firstWord name) registrations (firstWord name, .ofFunctions functions)) (fresh : Identity) :
      (Registry.ofRegistrations registrations).resolve name fresh =
        functions.reverse.find? fun f => decide (f.name = name) := by
    rw [asked _ latest, resolve_ofFunctions, (isPath_pathOf name).joined]
  refine ⟨isPath_iff name, ?_, ?_, ?_, ?_, ?_, ?_, ?_⟩
  · intro path isPath
    rw [(isPath_iff name path).mp isPath, head_pathOf]
  · intro path isPath resolver latest fresh
    rw [(isPath_iff name path).mp isPath, asked resolver latest]
  · intro none fresh
    have absent : registrations.reverse.find? (fun e => decide (e.1 = firstWord name)) = Option.none := by
      simpa using none
    rw [resolve_ofRegistrations, absent]
    rfl
  · intro functions latest fresh f
    rw [table functions latest, latest_iff]
  · intro functions latest fresh
    rw [table functions latest]
    simp
  · intro functions latest fresh fresh'
    rw [table functions latest, table functions latest]
  · intro others same fresh
    -- only the registrations under the first word are looked through
    have sifted (list : List (String × Resolver)) : list.reverse.find? (fun e => decide (e.1 = firstWord name)) =
        (list.filter fun e => decide (e.1 = firstWord name)).reverse.find? fun e => decide (e.1 = firstWord name) := by
      rw [← List.filter_reverse, List.find?_filter]
      simp
    rw [resolve_ofRegistrations, resolve_ofRegistrations, sifted others, same, ← sifted]

/-- Of two functions of one name the later one is found. A function whose name begins with another word than the
    one its table is registered under is not. -/
example :
    let functions : List Native := [⟨"a..f", ⟨.host, 0⟩⟩, ⟨"b.f", ⟨.host, 1⟩⟩, ⟨"a..f", ⟨.host, 2⟩⟩]
    let registry := Registry.ofRegistrations [("a", .ofFunctions functions)]
    registry.resolve "a..f" ⟨.host, 3⟩ = some ⟨"a..f", ⟨.host, 2⟩⟩ ∧ registry.resolve "b.f" ⟨.host, 3⟩ = none := by
  decide

end Stepwise
