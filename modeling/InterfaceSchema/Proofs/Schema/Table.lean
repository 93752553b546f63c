import InterfaceSchema.Schema.Basic

/-!
# Schemas as tables of their declarations

A schema keeps lists beside its declarations. This module says what they hold.

* `Schema.mem_messages`, `Schema.mem_services`: its messages and services are those it declares.
* `Schema.ofDeclarations`: the schema that a list of declarations makes.
* `Schema.Faithful`: the table of names lists each declared name with its place.
* `Schema.declarationLocation?_eq_none_iff`, `Schema.importLocation?_eq_none_iff`: a name or import
  is found exactly if some declaration has it.
-/

namespace InterfaceSchema

/-- The names that declarations introduce, in source order. -/
def declaredNames (declarations : List Declaration) : List String :=
  declarations.filterMap Declaration.name?

/-- The clean path of an import. -/
def Declaration.importPath? : Declaration → Option String
  | importing statement => some (Path.clean statement.path)
  | _ => none

/-- The clean paths of the imports among declarations, in source order. -/
def importPaths (declarations : List Declaration) : List String :=
  declarations.filterMap Declaration.importPath?

theorem declaredNames_append (first second : List Declaration) :
    declaredNames (first ++ second) = declaredNames first ++ declaredNames second :=
  List.filterMap_append

theorem importPaths_append (first second : List Declaration) :
    importPaths (first ++ second) = importPaths first ++ importPaths second :=
  List.filterMap_append

theorem declaredNames_importing (imports : List Import) :
    declaredNames (imports.map .importing) = [] := by
  simp [declaredNames, Declaration.name?]

/-- A package clause and imports declare no names. -/
theorem declaredNames_opening (clause : Package) (statements : List Import) :
    declaredNames (.package clause :: statements.map .importing) = [] :=
  declaredNames_importing statements

/-- An item may follow others unless what it shows is shown by one of them. -/
theorem nodup_filterMap_concat
    {α β : Type}
    {view : α → Option β}
    {items : List α}
    {item : α} :
    ((items ++ [item]).filterMap view).Nodup ↔
      (items.filterMap view).Nodup ∧
        ∀ shown, view item = some shown → shown ∉ items.filterMap view := by
  rw [List.filterMap_append, List.nodup_append]
  cases hview : view item with
  | none =>
      simp [hview]
  | some shown =>
      have hlast : [item].filterMap view = [shown] := by
        simp [hview]
      rw [hlast]
      constructor
      · rintro ⟨hdistinct, _, hother⟩
        refine ⟨hdistinct, ?_⟩
        intro other hsame hmember
        rw [Option.some.injEq] at hsame
        subst hsame
        exact hother shown hmember shown (by simp) rfl
      · rintro ⟨hdistinct, hfresh⟩
        refine ⟨hdistinct, by simp, ?_⟩
        intro other hmember last hlast hsame
        rw [List.mem_singleton] at hlast
        rw [hsame, hlast] at hmember
        exact hfresh shown rfl hmember

namespace Schema

section Members

variable {schema : Schema}

theorem mem_messages {message : Message} :
    message ∈ schema.messages ↔ .message message ∈ schema.declarations := by
  unfold messages
  rw [List.mem_filterMap]
  constructor
  · rintro ⟨declaration, hmember, hview⟩
    cases declaration <;> cases hview
    exact hmember
  · intro hmember
    exact ⟨_, hmember, rfl⟩

theorem mem_services {service : Service} :
    service ∈ schema.services ↔ .service service ∈ schema.declarations := by
  unfold services
  rw [List.mem_filterMap]
  constructor
  · rintro ⟨declaration, hmember, hview⟩
    cases declaration <;> cases hview
    exact hmember
  · intro hmember
    exact ⟨_, hmember, rfl⟩

end Members

/-- The schema that consists of the given declarations. -/
def ofDeclarations (declarations : List Declaration) : Schema :=
  declarations.foldl push empty

theorem declarations_foldl_push (schema : Schema) (declarations : List Declaration) :
    (declarations.foldl push schema).declarations = schema.declarations ++ declarations := by
  induction declarations generalizing schema with
  | nil =>
      simp
  | cons declaration rest ih =>
      rw [List.foldl_cons, ih]
      simp

/-- The declarations of a schema tell all of it. -/
@[simp]
theorem declarations_ofDeclarations (declarations : List Declaration) :
    (ofDeclarations declarations).declarations = declarations := by
  unfold ofDeclarations
  rw [declarations_foldl_push]
  rfl

/-- A list that shows something of each declaration that is added shows it of all of them. -/
theorem view_foldl_push
    (view : Schema → List String)
    {shows : Declaration → Option String}
    (step :
      ∀ schema declaration,
        view (push schema declaration) = view schema ++ (shows declaration).toList)
    (schema : Schema)
    (declarations : List Declaration) :
    view (declarations.foldl push schema) = view schema ++ declarations.filterMap shows := by
  induction declarations generalizing schema with
  | nil =>
      simp
  | cons declaration rest ih =>
      rw [List.foldl_cons, ih, step, List.append_assoc, List.filterMap_cons]
      cases shows declaration <;> rfl

/-- The imports of a schema are the clean paths of its import statements. -/
@[simp]
theorem imports_ofDeclarations (declarations : List Declaration) :
    (ofDeclarations declarations).imports = importPaths declarations := by
  refine view_foldl_push Schema.imports ?_ empty declarations
  intro schema declaration
  cases declaration <;> simp [push, Declaration.importPath?]

theorem ofDeclarations_append (first second : List Declaration) :
    ofDeclarations (first ++ second) = second.foldl push (ofDeclarations first) :=
  List.foldl_append

/-- What a declaration declares is not declared yet. -/
def Admits (schema : Schema) (declaration : Declaration) : Prop :=
  ∀ name, declaration.name? = some name → name ∉ declaredNames schema.declarations

theorem nodup_declaredNames_push_iff {schema : Schema} {declaration : Declaration} :
    (declaredNames (schema.push declaration).declarations).Nodup ↔
      (declaredNames schema.declarations).Nodup ∧ schema.Admits declaration := by
  rw [declarations_push]
  exact nodup_filterMap_concat

theorem nodup_declaredNames_of_foldl_push
    {schema : Schema}
    {items : List Declaration}
    (distinct : (declaredNames (items.foldl push schema).declarations).Nodup) :
    (declaredNames schema.declarations).Nodup := by
  rw [declarations_foldl_push, declaredNames_append, List.nodup_append] at distinct
  exact distinct.1

theorem nodup_importPaths_push_importing_iff {schema : Schema} {statement : Import} :
    (importPaths (schema.push (.importing statement)).declarations).Nodup ↔
      (importPaths schema.declarations).Nodup ∧
        Path.clean statement.path ∉ importPaths schema.declarations := by
  rw [declarations_push]
  unfold importPaths
  rw [nodup_filterMap_concat]
  simp [Declaration.importPath?]

theorem nodup_importPaths_of_foldl_push
    {schema : Schema}
    {items : List Declaration}
    (distinct : (importPaths (items.foldl push schema).declarations).Nodup) :
    (importPaths schema.declarations).Nodup := by
  rw [declarations_foldl_push, importPaths_append, List.nodup_append] at distinct
  exact distinct.1

/-- The table of names lists the declared names, the last one first, each with the place of a
declaration that introduces it. -/
structure Faithful (schema : Schema) : Prop where
  keys : schema.names.map Prod.fst = (declaredNames schema.declarations).reverse
  places :
    ∀ entry ∈ schema.names,
      schema.declarations[entry.2]?.bind Declaration.name? = some entry.1

theorem empty_faithful : Faithful empty := by
  constructor
  · rfl
  · intro entry hentry
    simp [empty] at hentry

theorem push_faithful
    {schema : Schema}
    (faithful : schema.Faithful)
    (declaration : Declaration) :
    (schema.push declaration).Faithful := by
  have hkept :
      ∀ entry ∈ schema.names,
        (schema.declarations ++ [declaration])[entry.2]?.bind Declaration.name? =
          some entry.1 := by
    intro entry hentry
    have hold := faithful.places entry hentry
    rcases Nat.lt_or_ge entry.2 schema.declarations.length with hbound | hbeyond
    · rw [List.getElem?_append_left hbound]
      exact hold
    · rw [List.getElem?_eq_none hbeyond] at hold
      simp at hold
  cases declaration with
  | package clause =>
      constructor
      · simp [push, faithful.keys, declaredNames, Declaration.name?]
      · exact hkept
  | importing statement =>
      constructor
      · simp [push, faithful.keys, declaredNames, Declaration.name?]
      · exact hkept
  | message declared =>
      constructor
      · simp [push, faithful.keys, declaredNames, Declaration.name?]
      · intro entry hentry
        rcases List.mem_cons.1 hentry with rfl | hold
        · simp [push, Declaration.name?]
        · exact hkept entry hold
  | service declared =>
      constructor
      · simp [push, faithful.keys, declaredNames, Declaration.name?]
      · intro entry hentry
        rcases List.mem_cons.1 hentry with rfl | hold
        · simp [push, Declaration.name?]
        · exact hkept entry hold

theorem ofDeclarations_faithful (declarations : List Declaration) :
    (ofDeclarations declarations).Faithful := by
  unfold ofDeclarations
  generalize hstart : empty = start
  have hfaithful : start.Faithful := by
    rw [← hstart]
    exact empty_faithful
  clear hstart
  induction declarations generalizing start with
  | nil =>
      exact hfaithful
  | cons declaration rest ih =>
      exact ih (start.push declaration) (push_faithful hfaithful declaration)

/-- Looking up a name leads to a declaration that introduces it. -/
theorem Faithful.name?_of_declaration?
    {schema : Schema}
    (faithful : schema.Faithful)
    {name : String}
    {place : Nat}
    (found : schema.names.lookup name = some place) :
    ∃ declaration,
      schema.declarations[place]? = some declaration ∧ declaration.name? = some name := by
  have hentry : (name, place) ∈ schema.names := by
    rw [List.lookup_eq_some_iff] at found
    rcases found with ⟨before, after, hnames, _⟩
    rw [hnames]
    simp
  have hplace := faithful.places _ hentry
  exact Option.bind_eq_some_iff.1 hplace

/-- A name is found exactly if it is declared. -/
theorem Faithful.declarationLocation?_eq_none_iff
    {schema : Schema}
    (faithful : schema.Faithful)
    {name : String} :
    schema.declarationLocation? name = none ↔ name ∉ declaredNames schema.declarations := by
  have hlisted : name ∈ declaredNames schema.declarations ↔ name ∈ schema.names.map Prod.fst := by
    rw [faithful.keys, List.mem_reverse]
  rw [hlisted]
  cases hfound : schema.names.lookup name with
  | none =>
      have hnone : schema.declarationLocation? name = none := by
        simp [declarationLocation?, declaration?, hfound]
      rw [List.lookup_eq_none_iff] at hfound
      simp only [hnone, true_iff, List.mem_map, not_exists, not_and]
      intro entry hentry hname
      have hother := hfound entry hentry
      simp [hname] at hother
  | some place =>
      rcases faithful.name?_of_declaration? hfound with ⟨declaration, hplace, hname⟩
      have hdeclared : schema.declaration? name = some declaration := by
        simp [declaration?, hfound, hplace]
      have hmember : name ∈ schema.names.map Prod.fst := by
        rw [List.lookup_eq_some_iff] at hfound
        rcases hfound with ⟨before, after, hnames, _⟩
        rw [hnames]
        simp
      simp only [hmember, not_true_eq_false, iff_false]
      unfold declarationLocation?
      rw [hdeclared]
      cases declaration <;> simp_all [Declaration.name?]

/-- A clean path is found exactly if it is imported. -/
theorem importLocation?_eq_none_iff {schema : Schema} {path : String} :
    schema.importLocation? path = none ↔ path ∉ importPaths schema.declarations := by
  unfold importLocation? importPaths
  rw [List.findSome?_eq_none_iff, List.mem_filterMap]
  constructor
  · rintro hnone ⟨declaration, hmember, hpath⟩
    have hother := hnone declaration hmember
    cases declaration <;> simp_all [Declaration.importPath?]
  · intro hother declaration hmember
    cases declaration with
    | importing statement =>
        have hpath : Path.clean statement.path ≠ path := by
          intro hsame
          exact hother ⟨_, hmember, congrArg some hsame⟩
        simp [hpath]
    | package clause =>
        rfl
    | message declared =>
        rfl
    | service declared =>
        rfl

/-- The first package clause stays the first. -/
theorem packageLocation?_push
    {schema : Schema}
    {clause : Location}
    (packaged : schema.packageLocation? = some clause)
    (declaration : Declaration) :
    (schema.push declaration).packageLocation? = some clause := by
  unfold packageLocation? at packaged ⊢
  rw [declarations_push, List.findSome?_append, packaged]
  rfl

end Schema

end InterfaceSchema
