import Mathlib.Data.List.Nodup
import InterfaceSchema.Proofs.Locations.Nested
import InterfaceSchema.Proofs.Schema.Lookup

/-!
# Import statements

* `Schema.Imports`, `Schema.imports_of_parse`: the import statements of a schema that is read from a
  text, with their clean paths and their places.
* `Schema.Imports.exists_statement`: the statement of one import, and what stands before it.
-/

namespace InterfaceSchema
namespace Schema

/-- The import statements of a schema: their clean paths are distinct, they stand in order in the
text, and each is found by its clean path. -/
structure Imports (text : List Char) (schema : Schema) : Prop where
  paths : schema.imports = schema.statements.map fun statement => Path.clean statement.path
  distinct : schema.imports.Nodup
  ordered :
    schema.statements.Pairwise fun first second =>
      first.location.span.stop ≤ second.location.span.start
  shows :
    ∀ statement ∈ schema.statements,
      Shows text statement.location "import".toList ";".toList
  located :
    ∀ statement ∈ schema.statements,
      schema.importLocation? (Path.clean statement.path) = some statement.location

theorem import?_eq_some_iff {declaration : Declaration} {statement : Import} :
    declaration.import? = some statement ↔ declaration = .importing statement := by
  cases declaration <;> simp [Declaration.import?]

theorem mem_statements {schema : Schema} {statement : Import} :
    statement ∈ schema.statements ↔ .importing statement ∈ schema.declarations := by
  unfold statements
  rw [List.mem_filterMap]
  simp only [import?_eq_some_iff, exists_eq_right]

theorem imports_of_parse
    {file text : String}
    {schema : Schema}
    (parsed : parse file text = .ok schema) :
    schema.Imports text.toList := by
  have hnested := nested_of_parse parsed
  have htext := mapError_eq_ok_iff.1 parsed
  rcases exists_scanText_of_ofText htext with ⟨lexemes, hlexemes⟩
  rcases (ofText_eq_ok_iff hlexemes).1 htext with ⟨declarations, _, hdistinct, rfl⟩
  have himports : (importPaths (ofDeclarations declarations).declarations).Nodup := by
    rw [declarations_ofDeclarations]
    exact hdistinct.imports
  constructor
  · rw [imports_ofDeclarations, ← importPaths_eq_statements, declarations_ofDeclarations]
  · rw [imports_ofDeclarations]
    exact hdistinct.imports
  · have hapart := List.pairwise_map.1 hnested.inOrder.apart
    refine List.pairwise_filterMap.2 (hapart.imp ?_)
    intro first second hordered statement hfirst other hsecond
    rw [import?_eq_some_iff] at hfirst hsecond
    subst hfirst hsecond
    exact hordered
  · intro statement hmember
    exact hnested.shows (List.mem_map_of_mem (mem_statements.1 hmember))
  · intro statement hmember
    refine (importLocation?_eq_some_iff himports _ _).2 ⟨statement, ?_, rfl⟩
    rw [importPaths_eq_statements] at himports
    exact (filter_map_eq_singleton_iff himports).2 ⟨hmember, rfl⟩

/-- The statement of an import, and the statements before it. -/
theorem Imports.exists_statement
    {text : List Char}
    {schema : Schema}
    {earlier later : List String}
    {path : String}
    (imports : schema.Imports text)
    (split : schema.imports = earlier ++ path :: later) :
    ∃ before statement after,
      schema.statements = before ++ statement :: after ∧
        before.map (fun other => Path.clean other.path) = earlier ∧
        Path.clean statement.path = path ∧
        (∀ other ∈ before ++ after, Path.clean other.path ≠ path) ∧
        ∀ other ∈ before, other.location.span.stop ≤ statement.location.span.start := by
  have hdistinct := imports.distinct
  have hordered := imports.ordered
  rw [imports.paths] at split hdistinct
  rcases List.map_eq_append_iff.1 split with ⟨before, rest, hstatements, hearlier, hrest⟩
  rcases List.map_eq_cons_iff.1 hrest with ⟨statement, after, rfl, hpath, _⟩
  refine ⟨before, statement, after, hstatements, hearlier, hpath, ?_, ?_⟩
  · intro other hother hsame
    rw [hstatements, List.map_append, List.map_cons, List.nodup_middle, ← List.map_append]
      at hdistinct
    refine (List.nodup_cons.1 hdistinct).1 (List.mem_map.2 ⟨other, hother, ?_⟩)
    rw [hsame, hpath]
  · intro other hother
    rw [hstatements] at hordered
    exact (List.pairwise_append.1 hordered).2.2 other hother statement List.mem_cons_self

end Schema

end InterfaceSchema
