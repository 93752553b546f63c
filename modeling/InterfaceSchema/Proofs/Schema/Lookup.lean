import Mathlib.Data.List.Basic
import InterfaceSchema.Proofs.Reading.Text

/-!
# Looking up declarations

What a schema answers about its declarations, if it was read from a text.

* `declaredNames_perm`: the names of messages and those of services are all declared names.
* `Schema.declaration?_eq_some_iff`: a name leads to the only declaration that has it.
* `Schema.Tabulates`, `Schema.tabulates_of_parse`: the order of the declarations, the lists beside
  them, and the answers to all questions about names and imports.
-/

namespace InterfaceSchema

/-! ## Items of one kind -/

/-- Where no two items show the same, an item is the only one that shows what it shows. -/
theorem filter_eq_singleton_iff
    {α β : Type}
    [DecidableEq β]
    {view : α → Option β}
    {items : List α}
    {item : α}
    {shown : β}
    (distinct : (items.filterMap view).Nodup) :
    items.filter (fun other => view other = some shown) = [item] ↔
      item ∈ items ∧ view item = some shown := by
  constructor
  · intro hfilter
    have hmember : item ∈ items.filter (fun other => view other = some shown) := by
      rw [hfilter]
      exact List.mem_singleton_self item
    simpa using List.mem_filter.1 hmember
  · rintro ⟨hmember, hshown⟩
    induction items with
    | nil =>
        cases hmember
    | cons first rest ih =>
        have hothers : shown ∉ rest.filterMap view → rest.filter (view · = some shown) = [] := by
          intro hnone
          rw [List.filter_eq_nil_iff]
          intro other hother hsame
          exact hnone (List.mem_filterMap.2 ⟨other, hother, by simpa using hsame⟩)
        rcases List.mem_cons.1 hmember with rfl | hrest
        · rw [List.filterMap_cons_some hshown, List.nodup_cons] at distinct
          rw [List.filter_cons_of_pos (by simpa using hshown), hothers distinct.1]
        · have hlisted : shown ∈ rest.filterMap view := List.mem_filterMap.2 ⟨item, hrest, hshown⟩
          cases hfirst : view first with
          | none =>
              rw [List.filterMap_cons_none hfirst] at distinct
              rw [List.filter_cons_of_neg (by simp [hfirst])]
              exact ih distinct hrest
          | some other =>
              rw [List.filterMap_cons_some hfirst, List.nodup_cons] at distinct
              have hother : other ≠ shown := by
                rintro rfl
                exact distinct.1 hlisted
              rw [List.filter_cons_of_neg (by simpa [hfirst] using hother)]
              exact ih distinct.2 hrest

theorem filter_map_eq_singleton_iff
    {α β : Type}
    [DecidableEq β]
    {view : α → β}
    {items : List α}
    {item : α}
    {shown : β}
    (distinct : (items.map view).Nodup) :
    items.filter (fun other => view other = shown) = [item] ↔ item ∈ items ∧ view item = shown := by
  rw [← List.filterMap_eq_map'] at distinct
  simpa using filter_eq_singleton_iff distinct

/-- The import that a declaration makes. -/
def Declaration.import? : Declaration → Option Import
  | importing statement => some statement
  | _ => none

/-- A message or a service. -/
def Declaration.IsNamed (declaration : Declaration) : Prop :=
  (∃ message, declaration = .message message) ∨ ∃ service, declaration = .service service

/-- The declared names are those of messages and those of services. -/
theorem declaredNames_perm (declarations : List Declaration) :
    (declaredNames declarations).Perm
      ((declarations.filterMap Declaration.message?).map Message.name ++
        (declarations.filterMap Declaration.service?).map Service.name) := by
  induction declarations with
  | nil =>
      exact List.Perm.nil
  | cons declaration rest ih =>
      cases declaration with
      | package clause =>
          exact ih
      | importing statement =>
          exact ih
      | message message =>
          exact ih.cons message.name
      | service service =>
          exact (ih.cons service.name).trans List.perm_middle.symm

namespace Schema

/-! ## Lists beside the declarations -/

theorem messageNames_ofDeclarations (declarations : List Declaration) :
    (ofDeclarations declarations).messageNames =
      (declarations.filterMap Declaration.message?).map Message.name := by
  rw [List.map_filterMap]
  refine view_foldl_push messageNames ?_ empty declarations
  intro schema declaration
  cases declaration <;> simp [push, Declaration.message?]

theorem serviceNames_ofDeclarations (declarations : List Declaration) :
    (ofDeclarations declarations).serviceNames =
      (declarations.filterMap Declaration.service?).map Service.name := by
  rw [List.map_filterMap]
  refine view_foldl_push serviceNames ?_ empty declarations
  intro schema declaration
  cases declaration <;> simp [push, Declaration.service?]

/-- Only a package clause names the package. -/
theorem package_foldl_push
    (schema : Schema)
    {declarations : List Declaration}
    (noClause : ∀ clause, .package clause ∉ declarations) :
    (declarations.foldl push schema).package = schema.package := by
  induction declarations generalizing schema with
  | nil =>
      rfl
  | cons declaration rest ih =>
      have hrest : ∀ clause, .package clause ∉ rest :=
        fun clause hmember => noClause clause (List.mem_cons_of_mem _ hmember)
      rw [List.foldl_cons, ih _ hrest]
      cases declaration with
      | package clause =>
          exact absurd List.mem_cons_self (noClause clause)
      | importing statement =>
          rfl
      | message message =>
          rfl
      | service service =>
          rfl

/-! ## Single declarations -/

/-- The imports among the declarations, in source order. -/
def statements (schema : Schema) : List Import :=
  schema.declarations.filterMap Declaration.import?

section Lookups

variable {schema : Schema} {name : String}

theorem Faithful.isDefined_iff (faithful : schema.Faithful) :
    schema.isDefined name = true ↔ name ∈ declaredNames schema.declarations := by
  have hlisted : name ∈ declaredNames schema.declarations ↔ name ∈ schema.names.map Prod.fst := by
    rw [faithful.keys, List.mem_reverse]
  rw [hlisted, isDefined, List.mem_map]
  constructor
  · intro hdefined
    rcases Option.isSome_iff_exists.1 hdefined with ⟨place, hfound⟩
    rcases List.lookup_eq_some_iff.1 hfound with ⟨before, after, hnames, _⟩
    exact ⟨(name, place), by simp [hnames], rfl⟩
  · rintro ⟨entry, hentry, rfl⟩
    rw [Option.isSome_iff_ne_none]
    intro hnone
    have hother := List.lookup_eq_none_iff.1 hnone entry hentry
    simp at hother

variable (faithful : schema.Faithful) (distinct : (declaredNames schema.declarations).Nodup)

include faithful distinct

/-- A name leads to the only declaration that has it. -/
theorem declaration?_eq_some_iff {declaration : Declaration} :
    schema.declaration? name = some declaration ↔
      declaration ∈ schema.declarations ∧ declaration.name? = some name := by
  have hsound :
      ∀ found, schema.declaration? name = some found →
        found ∈ schema.declarations ∧ found.name? = some name := by
    intro found hfound
    rcases Option.bind_eq_some_iff.1 hfound with ⟨place, hplace, hdeclared⟩
    rcases faithful.name?_of_declaration? hplace with ⟨other, hother, hname⟩
    cases hdeclared.symm.trans hother
    exact ⟨List.mem_of_getElem? hdeclared, hname⟩
  constructor
  · exact hsound declaration
  · rintro ⟨hmember, hname⟩
    have hdefined : schema.isDefined name = true :=
      faithful.isDefined_iff.2 (List.mem_filterMap.2 ⟨declaration, hmember, hname⟩)
    rcases Option.isSome_iff_exists.1 hdefined with ⟨place, hplace⟩
    rcases faithful.name?_of_declaration? hplace with ⟨found, hfound, _⟩
    have hfound : schema.declaration? name = some found := by
      rw [declaration?, hplace]
      exact hfound
    have honly := (filter_eq_singleton_iff distinct).2 ⟨hmember, hname⟩
    rw [(filter_eq_singleton_iff distinct).2 (hsound found hfound)] at honly
    rw [hfound, (List.singleton_inj.1 honly)]

theorem declarationLocation?_eq_some_iff {location : Location} :
    schema.declarationLocation? name = some location ↔
      ∃ declaration,
        (declaration ∈ schema.declarations ∧ declaration.name? = some name) ∧
          declaration.location = location := by
  simp only [← declaration?_eq_some_iff faithful distinct]
  unfold declarationLocation?
  cases hfound : schema.declaration? name with
  | none =>
      simp
  | some declaration =>
      have hname := ((declaration?_eq_some_iff faithful distinct).1 hfound).2
      cases declaration with
      | package clause =>
          cases hname
      | importing statement =>
          cases hname
      | message message =>
          simp [Declaration.location]
      | service service =>
          simp [Declaration.location]

/-- What a name leads to among the declarations of one kind, if they have different names. -/
theorem bind_declaration?_eq_some_iff
    {α : Type}
    {view : Declaration → Option α}
    (make : α → Declaration)
    {nameOf : α → String}
    (views : ∀ declaration value, view declaration = some value ↔ declaration = make value)
    (names : ∀ value, (make value).name? = some (nameOf value))
    (kind : ((schema.declarations.filterMap view).map nameOf).Nodup)
    (value : α) :
    (schema.declaration? name).bind view = some value ↔
      (schema.declarations.filterMap view).filter (fun other => nameOf other = name) = [value] := by
  rw [filter_map_eq_singleton_iff kind, List.mem_filterMap]
  constructor
  · intro hfound
    rcases Option.bind_eq_some_iff.1 hfound with ⟨declaration, hdeclared, hview⟩
    rcases (declaration?_eq_some_iff faithful distinct).1 hdeclared with ⟨hmember, hname⟩
    refine ⟨⟨declaration, hmember, hview⟩, ?_⟩
    rw [(views declaration value).1 hview, names] at hname
    exact Option.some.inj hname
  · rintro ⟨⟨declaration, hmember, hview⟩, rfl⟩
    have hname : declaration.name? = some (nameOf value) := by
      rw [(views declaration value).1 hview, names]
    rw [(declaration?_eq_some_iff faithful distinct).2 ⟨hmember, hname⟩]
    exact hview

end Lookups

/-! ## Imports -/

section Imports

variable {schema : Schema}

theorem importPaths_eq_statements :
    importPaths schema.declarations =
      schema.statements.map fun statement => Path.clean statement.path := by
  unfold importPaths statements
  rw [List.map_filterMap]
  apply List.filterMap_congr
  intro declaration _
  cases declaration <;> rfl

/-- The place of an import is that of the first statement with its clean path. -/
theorem importLocation?_eq_find? (path : String) :
    schema.importLocation? path =
      (schema.statements.find? fun other => Path.clean other.path = path).map Import.location := by
  unfold importLocation? statements
  induction schema.declarations with
  | nil =>
      rfl
  | cons declaration rest ih =>
      cases declaration with
      | package clause =>
          exact ih
      | message message =>
          exact ih
      | service service =>
          exact ih
      | importing statement =>
          have hstatements :
              (Declaration.importing statement :: rest).filterMap Declaration.import? =
                statement :: rest.filterMap Declaration.import? :=
            rfl
          rw [List.findSome?_cons, hstatements]
          by_cases hpath : Path.clean statement.path = path
          · simp [hpath]
          · simpa [hpath] using ih

/-- A clean path leads to the only import that has it. -/
theorem importLocation?_eq_some_iff
    (distinct : (importPaths schema.declarations).Nodup)
    (path : String)
    (location : Location) :
    schema.importLocation? path = some location ↔
      ∃ statement,
        schema.statements.filter (fun other => Path.clean other.path = path) = [statement] ∧
          statement.location = location := by
  rw [importPaths_eq_statements] at distinct
  rw [importLocation?_eq_find?, ← List.head?_filter]
  constructor
  · intro hfound
    rcases Option.map_eq_some_iff.1 hfound with ⟨statement, hfirst, hlocation⟩
    have hmember := List.mem_filter.1 (List.mem_of_head? hfirst)
    exact ⟨statement, (filter_map_eq_singleton_iff distinct).2 (by simpa using hmember), hlocation⟩
  · rintro ⟨statement, honly, rfl⟩
    rw [honly]
    rfl

end Imports

/-! ## Schemas that were read from a text -/

/-- The declarations of a schema stand in order, the lists beside them hold what they declare, and
each name and each clean path of an import leads to the one declaration that has it. -/
structure Tabulates (schema : Schema) : Prop where
  declarations_eq :
    ∃ clause items,
      schema.declarations = .package clause :: (schema.statements.map .importing ++ items) ∧
        (∀ item ∈ items, item.IsNamed) ∧
        schema.package = clause.name
  imports_eq : schema.imports = schema.statements.map fun statement => Path.clean statement.path
  imports_distinct : schema.imports.Nodup
  messageNames_eq : schema.messageNames = schema.messages.map Message.name
  serviceNames_eq : schema.serviceNames = schema.services.map Service.name
  names_distinct : (schema.messageNames ++ schema.serviceNames).Nodup
  isDefined_iff :
    ∀ name,
      schema.isDefined name = true ↔ name ∈ schema.messageNames ∨ name ∈ schema.serviceNames
  message?_eq_some_iff :
    ∀ name message,
      schema.message? name = some message ↔
        schema.messages.filter (fun other => other.name = name) = [message]
  service?_eq_some_iff :
    ∀ name service,
      schema.service? name = some service ↔
        schema.services.filter (fun other => other.name = name) = [service]
  declarationLocation?_eq_some_iff :
    ∀ name location,
      schema.declarationLocation? name = some location ↔
        ∃ declaration,
          schema.declarations.filter (fun other => other.name? = some name) = [declaration] ∧
            declaration.location = location
  importLocation?_eq_some_iff :
    ∀ path location,
      schema.importLocation? path = some location ↔
        ∃ statement,
          schema.statements.filter (fun other => Path.clean other.path = path) = [statement] ∧
            statement.location = location

section Order

variable {clause : Package} {imports : List Import} {items : List Declaration}
variable (named : ∀ item ∈ items, item.IsNamed)

include named

theorem statements_ofDeclarations :
    (ofDeclarations (.package clause :: (imports.map .importing ++ items))).statements = imports := by
  have hnone : items.filterMap Declaration.import? = [] := by
    rw [List.filterMap_eq_nil_iff]
    intro item hmember
    rcases named item hmember with ⟨message, rfl⟩ | ⟨service, rfl⟩
    · rfl
    · rfl
  rw [statements, declarations_ofDeclarations, List.filterMap_cons_none rfl,
    List.filterMap_append, hnone, List.append_nil, List.filterMap_map]
  exact List.filterMap_some

theorem package_ofDeclarations :
    (ofDeclarations (.package clause :: (imports.map .importing ++ items))).package =
      clause.name := by
  refine package_foldl_push (empty.push (.package clause)) ?_
  intro other hmember
  rcases List.mem_append.1 hmember with himport | hitem
  · rcases List.mem_map.1 himport with ⟨statement, _, hsame⟩
    cases hsame
  · rcases named _ hitem with ⟨message, hsame⟩ | ⟨service, hsame⟩
    · cases hsame
    · cases hsame

/-- A schema that consists of distinct declarations in order tabulates them. -/
theorem tabulates_ofDeclarations
    (distinct : Distinct (.package clause :: (imports.map .importing ++ items))) :
    (ofDeclarations (.package clause :: (imports.map .importing ++ items))).Tabulates := by
  have hstatements :
      (ofDeclarations (.package clause :: (imports.map .importing ++ items))).statements =
        imports :=
    statements_ofDeclarations named
  have hpackage :
      (ofDeclarations (.package clause :: (imports.map .importing ++ items))).package =
        clause.name :=
    package_ofDeclarations named
  generalize hwhole : Declaration.package clause :: (imports.map .importing ++ items) = whole
  rw [hwhole] at distinct hstatements hpackage
  have hfaithful := ofDeclarations_faithful whole
  have hnames : (declaredNames (ofDeclarations whole).declarations).Nodup := by
    rw [declarations_ofDeclarations]
    exact distinct.names
  have himports : (importPaths (ofDeclarations whole).declarations).Nodup := by
    rw [declarations_ofDeclarations]
    exact distinct.imports
  have hmessageNames :
      (ofDeclarations whole).messageNames = (ofDeclarations whole).messages.map Message.name := by
    rw [messageNames_ofDeclarations, messages, declarations_ofDeclarations]
  have hserviceNames :
      (ofDeclarations whole).serviceNames = (ofDeclarations whole).services.map Service.name := by
    rw [serviceNames_ofDeclarations, services, declarations_ofDeclarations]
  have hperm := declaredNames_perm (ofDeclarations whole).declarations
  have hkinds := List.nodup_append.1 (hperm.nodup_iff.1 hnames)
  constructor
  · rw [hstatements, declarations_ofDeclarations]
    exact ⟨clause, items, hwhole.symm, named, hpackage⟩
  · rw [imports_ofDeclarations, ← importPaths_eq_statements, declarations_ofDeclarations]
  · rw [imports_ofDeclarations]
    exact distinct.imports
  · exact hmessageNames
  · exact hserviceNames
  · rw [hmessageNames, hserviceNames]
    exact hperm.nodup_iff.1 hnames
  · intro name
    rw [hfaithful.isDefined_iff, hperm.mem_iff, List.mem_append, hmessageNames, hserviceNames]
    rfl
  · intro name message
    refine
      bind_declaration?_eq_some_iff hfaithful hnames .message ?_ (fun _ => rfl) hkinds.1 message
    intro declaration value
    cases declaration <;> simp [Declaration.message?]
  · intro name service
    refine
      bind_declaration?_eq_some_iff hfaithful hnames .service ?_ (fun _ => rfl) hkinds.2.1 service
    intro declaration value
    cases declaration <;> simp [Declaration.service?]
  · intro name location
    simp only [filter_eq_singleton_iff hnames]
    exact declarationLocation?_eq_some_iff hfaithful hnames
  · exact importLocation?_eq_some_iff himports

end Order

/-- Every schema that is read from a text tabulates its declarations. -/
theorem tabulates_of_parse
    {file text : String}
    {schema : Schema}
    (parsed : parse file text = .ok schema) :
    schema.Tabulates := by
  have htext := mapError_eq_ok_iff.1 parsed
  rcases exists_scanText_of_ofText htext with ⟨lexemes, hlexemes⟩
  rcases (ofText_eq_ok_iff hlexemes).1 htext with ⟨declarations, hspelled, hdistinct, rfl⟩
  cases hspelled with
  | mk stop idle packaged imported entries =>
      refine tabulates_ofDeclarations ?_ hdistinct
      intro item hmember
      rcases entries.exists_spelled hmember with ⟨notes, taken, hitem, _⟩
      cases hitem with
      | message spelled =>
          exact Or.inl ⟨_, rfl⟩
      | service spelled =>
          exact Or.inr ⟨_, rfl⟩

/-- A text with two imports, and with messages before and behind a service. -/
def listedText : String :=
  "package a.b;\nimport \"x//y\";\nimport \"./z\";\n" ++
    "message M \x7b\x7d\nservice S \x7b\x7d\nmessage N \x7b\x7d\n"

theorem tabulates_of_parse_listedText :
    ∃ schema, parse "a.yarp" listedText = .ok schema ∧ schema.Tabulates := by
  have hparses : (parse "a.yarp" listedText).isOk = true := by decide +kernel
  rcases exists_eq_ok_of_isOk hparses with ⟨schema, hschema⟩
  exact ⟨schema, hschema, tabulates_of_parse hschema⟩

example :
    ((parse "a.yarp" listedText).toOption.map fun schema =>
      (schema.imports, schema.messageNames, (schema.service? "S").map Service.name,
        (schema.message? "S").map Message.name)) =
      some (["x/y", "z"], ["M", "N"], some "S", none) := by
  decide +kernel

end Schema
end InterfaceSchema
