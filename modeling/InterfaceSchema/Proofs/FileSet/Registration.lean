import Mathlib.Data.List.Basic
import InterfaceSchema.FileSet.Basic
import InterfaceSchema.Proofs.Schema.Table

/-!
# Registering a file

What one more file adds to a set.

* `FileSet.Refers`: a reference leads to a declaration of a file of the set.
* `FileSet.mem_references`, `FileSet.map_fst_references`: the references made for a new file, and
  the names they are filed under.
* `FileSet.exists_repeated_of_register`: why a file is refused.
* `FileSet.lookup_append_iff`: looking up a name in a table with new entries of new names.
* `FileSet.messages_append`, `FileSet.services_append`: the lists of the set's own package.
-/

namespace InterfaceSchema
namespace FileSet

/-- A reference leads to a declaration of a file of the set. -/
def Refers
    (set : FileSet)
    (ref : DeclarationRef)
    (file : SourceFile)
    (declaration : Declaration) :
    Prop :=
  set.files[ref.file]? = some file ∧
    file.schema.declarations[ref.declaration]? = some declaration

theorem owns_iff
    {set : FileSet}
    {package : String}
    (packaged : set.package = some package)
    (file : SourceFile) :
    set.owns file = true ↔ file.package = package := by
  unfold owns
  rw [packaged, decide_eq_true_eq, Option.some.injEq]
  exact eq_comm

/-! ## References to a new file -/

section References

variable {set : FileSet} {file : SourceFile} {select : Declaration → Option String}

theorem Refers.declaration?_eq
    {ref : DeclarationRef}
    {declaration : Declaration}
    (refers : set.Refers ref file declaration) :
    set.declaration? ref = some declaration := by
  unfold declaration?
  rw [refers.1]
  exact refers.2

/-- A reference leads into one file. -/
theorem Refers.file_eq
    {later : SourceFile}
    {ref : DeclarationRef}
    {declaration second : Declaration}
    (refers : set.Refers ref file declaration)
    (also : set.Refers ref later second) :
    file = later :=
  Option.some.inj (refers.1.symm.trans also.1)

theorem exists_refers_of_mem
    {declaration : Declaration}
    (registered : file ∈ set.files)
    (declared : declaration ∈ file.schema.declarations) :
    ∃ ref, set.Refers ref file declaration := by
  rcases List.mem_iff_getElem?.1 registered with ⟨number, hfile⟩
  rcases List.mem_iff_getElem?.1 declared with ⟨place, hdeclaration⟩
  exact ⟨⟨number, place⟩, hfile, hdeclaration⟩

theorem mem_references {name : String} {ref : DeclarationRef} :
    (name, ref) ∈ set.references file select ↔
      ref.file = set.files.length ∧
        ∃ declaration,
          file.schema.declarations[ref.declaration]? = some declaration ∧
            select declaration = some name := by
  unfold references
  rw [List.mem_filterMap]
  constructor
  · rintro ⟨⟨declaration, number⟩, hmember, hselected⟩
    rcases Option.map_eq_some_iff.1 hselected with ⟨other, hother, hpair⟩
    cases hpair
    exact ⟨rfl, declaration, List.mk_mem_zipIdx_iff_getElem?.1 hmember, hother⟩
  · rintro ⟨hfile, declaration, hdeclared, hselected⟩
    refine ⟨(declaration, ref.declaration), List.mk_mem_zipIdx_iff_getElem?.2 hdeclared, ?_⟩
    simp [hselected, ← hfile]

/-- The references to a file are filed under the names that its declarations show. -/
theorem map_fst_references :
    (set.references file select).map Prod.fst = file.schema.declarations.filterMap select := by
  unfold references
  rw [List.map_filterMap]
  conv =>
    rhs
    rw [← List.zipIdx_map_fst 0 file.schema.declarations, List.filterMap_map]
  apply List.filterMap_congr
  rintro ⟨declaration, number⟩ _
  cases hselected : select declaration <;> simp [hselected]

/-- In the set with the new file the references lead to its declarations in source order. -/
theorem filterMap_references
    {β : Type}
    {view : Declaration → Option β}
    (same : ∀ declaration, (select declaration).isSome = (view declaration).isSome) :
    ((set.references file select).map Prod.snd).filterMap
        (fun ref => ((set.append file).declaration? ref).bind view) =
      file.schema.declarations.filterMap view := by
  unfold references
  rw [List.map_filterMap, List.filterMap_filterMap]
  conv =>
    rhs
    rw [← List.zipIdx_map_fst 0 file.schema.declarations, List.filterMap_map]
  apply List.filterMap_congr
  rintro ⟨declaration, number⟩ hmember
  have hplace := List.mk_mem_zipIdx_iff_getElem?.1 hmember
  have hsame := same declaration
  cases hselected : select declaration with
  | none =>
      rw [hselected] at hsame
      cases hview : view declaration with
      | none =>
          simp [hselected, hview]
      | some shown =>
          rw [hview] at hsame
          simp at hsame
  | some name =>
      simp [hselected, declaration?, append, hplace]

theorem refers_append {ref : DeclarationRef} {other : SourceFile} {declaration : Declaration} :
    (set.append file).Refers ref other declaration ↔
      set.Refers ref other declaration ∨
        ref.file = set.files.length ∧
          other = file ∧ file.schema.declarations[ref.declaration]? = some declaration := by
  have hfiles : (set.append file).files = set.files ++ [file] := rfl
  constructor
  · rintro ⟨hfile, hdeclared⟩
    rw [hfiles] at hfile
    rcases Nat.lt_trichotomy ref.file set.files.length with hlt | heq | hgt
    · rw [List.getElem?_append_left hlt] at hfile
      exact Or.inl ⟨hfile, hdeclared⟩
    · rw [heq, List.getElem?_concat_length, Option.some.injEq] at hfile
      rw [← hfile] at hdeclared
      exact Or.inr ⟨heq, hfile.symm, hdeclared⟩
    · rw [List.getElem?_eq_none (by simp; omega)] at hfile
      simp at hfile
  · rintro (⟨hfile, hdeclared⟩ | ⟨hnumber, rfl, hdeclared⟩)
    · refine ⟨?_, hdeclared⟩
      rw [hfiles, List.getElem?_append_left]
      · exact hfile
      · exact (List.getElem?_eq_some_iff.1 hfile).1
    · refine ⟨?_, hdeclared⟩
      rw [hfiles, hnumber, List.getElem?_concat_length]

end References

/-! ## Tables -/

section Tables

variable {table added : List (String × DeclarationRef)} {name : String} {ref : DeclarationRef}

theorem lookup_eq_some_iff_mem (distinct : (table.map Prod.fst).Nodup) :
    table.lookup name = some ref ↔ (name, ref) ∈ table := by
  induction table with
  | nil =>
      simp
  | cons entry rest ih =>
      rcases entry with ⟨key, first⟩
      rw [List.map_cons, List.nodup_cons] at distinct
      rw [List.lookup_cons, List.mem_cons]
      by_cases hkey : name = key
      · subst hkey
        have hrest : (name, ref) ∉ rest := by
          intro hmember
          exact distinct.1 (List.mem_map.2 ⟨_, hmember, rfl⟩)
        simp [hrest, eq_comm]
      · rw [beq_eq_false_iff_ne.2 hkey]
        simp [hkey, ih distinct.2]

/-- Entries of new names are found beside the old ones. -/
theorem lookup_append_iff
    (distinct : (added.map Prod.fst).Nodup)
    (fresh : ∀ other ∈ added.map Prod.fst, table.lookup other = none) :
    (table ++ added).lookup name = some ref ↔
      table.lookup name = some ref ∨ (name, ref) ∈ added := by
  rw [List.lookup_append]
  cases hold : table.lookup name with
  | none =>
      simp [lookup_eq_some_iff_mem distinct]
  | some first =>
      have hnew : (name, ref) ∉ added := by
        intro hmember
        have hnone := fresh name (List.mem_map.2 ⟨_, hmember, rfl⟩)
        rw [hold] at hnone
        simp at hnone
      simp [hnew]

theorem nodup_map_fst_append
    (distinct : (table.map Prod.fst).Nodup)
    (addedDistinct : (added.map Prod.fst).Nodup)
    (fresh : ∀ other ∈ added.map Prod.fst, table.lookup other = none) :
    ((table ++ added).map Prod.fst).Nodup := by
  rw [List.map_append, List.nodup_append]
  refine ⟨distinct, addedDistinct, ?_⟩
  rintro other hold _ hnew rfl
  have hnone := List.lookup_eq_none_iff.1 (fresh other hnew)
  rcases List.mem_map.1 hold with ⟨entry, hentry, rfl⟩
  have hother := hnone entry hentry
  simp at hother

end Tables

/-- A file is refused for a message or a service that repeats an earlier one. -/
theorem exists_repeated_of_register
    {set : FileSet}
    {file : SourceFile}
    {error : LoadError}
    (refuses : set.register file = .error error) :
    (∃ message first,
        .message message ∈ file.schema.declarations ∧
          error =
            .duplicateMessage (QualifiedName.join file.package message.name) first file) ∨
      ∃ service first,
        .service service ∈ file.schema.declarations ∧
          error = .duplicateService service.name first file := by
  unfold register at refuses
  split at refuses
  · next found hfound =>
    cases refuses
    rcases List.exists_of_findSome?_eq_some hfound with ⟨declaration, hmember, hclash⟩
    unfold clash? at hclash
    split at hclash
    · rcases Option.map_eq_some_iff.1 hclash with ⟨ref, _, rfl⟩
      exact Or.inl ⟨_, _, hmember, rfl⟩
    · split at hclash
      · rcases Option.map_eq_some_iff.1 hclash with ⟨ref, _, rfl⟩
        exact Or.inr ⟨_, _, hmember, rfl⟩
      · cases hclash
    · cases hclash
  · cases refuses

/-! ## A file that is accepted -/

section Accepted

variable {set after : FileSet} {file : SourceFile}

/-- The messages of an accepted file have new qualified names. -/
theorem index_lookup_eq_none_of_register
    (registered : set.register file = .ok after)
    {message : Message}
    (declared : .message message ∈ file.schema.declarations) :
    set.index.lookup (QualifiedName.join file.package message.name) = none := by
  have hclash := (register_eq_ok_iff.1 registered).1
  rw [List.findSome?_eq_none_iff] at hclash
  have hnone := hclash _ declared
  simpa [clash?] using hnone

/-- A file that declares nothing is accepted. -/
theorem register_of_bare
    (set : FileSet)
    {file : SourceFile}
    (bare : ∀ declaration ∈ file.schema.declarations, declaration.name? = none) :
    set.register file = .ok (set.append file) := by
  refine register_eq_ok_iff.2 ⟨?_, rfl⟩
  rw [List.findSome?_eq_none_iff]
  intro declaration hmember
  have hname := bare declaration hmember
  cases declaration with
  | package clause =>
      rfl
  | importing statement =>
      rfl
  | message message =>
      cases hname
  | service service =>
      cases hname

/-- The services of an accepted file of the set's own package have new names. -/
theorem knownServices_lookup_eq_none_of_register
    (registered : set.register file = .ok after)
    (owned : set.owns file = true)
    {service : Service}
    (declared : .service service ∈ file.schema.declarations) :
    set.knownServices.lookup service.name = none := by
  have hclash := (register_eq_ok_iff.1 registered).1
  rw [List.findSome?_eq_none_iff] at hclash
  have hnone := hclash _ declared
  simpa [clash?, owned] using hnone

/-- Names that are made from the distinct names of declarations are distinct. -/
theorem nodup_filterMap_of_names
    {declarations : List Declaration}
    {select : Declaration → Option String}
    (form : String → String)
    (distinct : (declaredNames declarations).Nodup)
    (injective : ∀ first second, form first = form second → first = second)
    (shows :
      ∀ declaration shown,
        select declaration = some shown →
          ∃ name, declaration.name? = some name ∧ shown = form name) :
    (declarations.filterMap select).Nodup := by
  unfold declaredNames List.Nodup at distinct
  unfold List.Nodup
  rw [List.pairwise_filterMap] at distinct ⊢
  refine distinct.imp ?_
  intro first second hother shown hshown other hshows hsame
  rcases shows first shown hshown with ⟨name, hname, rfl⟩
  rcases shows second other hshows with ⟨name', hname', rfl⟩
  exact hother name hname name' hname' (injective name name' hsame)

theorem messageReferences_distinct
    (distinct : (declaredNames file.schema.declarations).Nodup) :
    ((set.messageReferences file).map Prod.fst).Nodup := by
  unfold messageReferences
  rw [map_fst_references]
  refine nodup_filterMap_of_names (QualifiedName.join file.package) distinct ?_ ?_
  · intro first second hsame
    exact (String.append_right_inj _).1 hsame
  · intro declaration shown hshown
    cases declaration with
    | message message =>
        exact ⟨message.name, rfl, (Option.some.inj hshown).symm⟩
    | package clause =>
        cases hshown
    | importing statement =>
        cases hshown
    | service service =>
        cases hshown

theorem serviceReferences_distinct
    (distinct : (declaredNames file.schema.declarations).Nodup) :
    ((set.serviceReferences file).map Prod.fst).Nodup := by
  unfold serviceReferences
  rw [map_fst_references]
  refine nodup_filterMap_of_names id distinct (fun _ _ hsame => hsame) ?_
  intro declaration shown hshown
  cases declaration with
  | service service =>
      exact ⟨service.name, rfl, (Option.some.inj hshown).symm⟩
  | package clause =>
      cases hshown
  | importing statement =>
      cases hshown
  | message message =>
      cases hshown

theorem mem_messageReferences {name : String} {ref : DeclarationRef} :
    (name, ref) ∈ set.messageReferences file ↔
      ref.file = set.files.length ∧
        ∃ message,
          file.schema.declarations[ref.declaration]? = some (.message message) ∧
            name = QualifiedName.join file.package message.name := by
  unfold messageReferences
  rw [mem_references]
  constructor
  · rintro ⟨hfile, declaration, hdeclared, hname⟩
    cases declaration with
    | message message =>
        exact ⟨hfile, message, hdeclared, (Option.some.inj hname).symm⟩
    | package clause =>
        cases hname
    | importing statement =>
        cases hname
    | service service =>
        cases hname
  · rintro ⟨hfile, message, hdeclared, rfl⟩
    exact ⟨hfile, _, hdeclared, rfl⟩

theorem mem_serviceReferences {name : String} {ref : DeclarationRef} :
    (name, ref) ∈ set.serviceReferences file ↔
      ref.file = set.files.length ∧
        ∃ service,
          file.schema.declarations[ref.declaration]? = some (.service service) ∧
            name = service.name := by
  unfold serviceReferences
  rw [mem_references]
  constructor
  · rintro ⟨hfile, declaration, hdeclared, hname⟩
    cases declaration with
    | service service =>
        exact ⟨hfile, service, hdeclared, (Option.some.inj hname).symm⟩
    | package clause =>
        cases hname
    | importing statement =>
        cases hname
    | message message =>
        cases hname
  · rintro ⟨hfile, service, hdeclared, rfl⟩
    exact ⟨hfile, _, hdeclared, rfl⟩

/-- References to earlier files lead to the same declarations as before. -/
theorem filterMap_declaration?_append
    {β : Type}
    {view : Declaration → Option β}
    {refs : List DeclarationRef}
    (refer :
      ∀ ref ∈ refs, ∃ owner declaration, set.Refers ref owner declaration) :
    refs.filterMap (fun ref => ((set.append file).declaration? ref).bind view) =
      refs.filterMap (fun ref => (set.declaration? ref).bind view) := by
  apply List.filterMap_congr
  intro ref hmember
  rcases refer ref hmember with ⟨owner, declaration, hrefers⟩
  rw [hrefers.declaration?_eq, (refers_append.2 (Or.inl hrefers)).declaration?_eq]

theorem messages_append
    (refer :
      ∀ ref ∈ set.ownMessages, ∃ owner declaration, set.Refers ref owner declaration) :
    (set.append file).messages =
      set.messages ++ if set.owns file then file.schema.messages else [] := by
  have hnew :
      ((set.messageReferences file).map Prod.snd).filterMap
          (fun ref => ((set.append file).declaration? ref).bind Declaration.message?) =
        file.schema.messages := by
    refine filterMap_references ?_
    intro declaration
    cases declaration <;> rfl
  have hrefs :
      (set.append file).ownMessages =
        set.ownMessages ++
          (if set.owns file then set.messageReferences file else []).map Prod.snd :=
    rfl
  unfold messages
  rw [hrefs, List.filterMap_append, filterMap_declaration?_append refer]
  by_cases howned : set.owns file = true
  · rw [if_pos howned, if_pos howned, hnew]
  · rw [if_neg howned, if_neg howned]
    rfl

theorem services_append
    (refer :
      ∀ ref ∈ set.ownServices, ∃ owner declaration, set.Refers ref owner declaration) :
    (set.append file).services =
      set.services ++ if set.owns file then file.schema.services else [] := by
  have hnew :
      ((set.serviceReferences file).map Prod.snd).filterMap
          (fun ref => ((set.append file).declaration? ref).bind Declaration.service?) =
        file.schema.services := by
    refine filterMap_references ?_
    intro declaration
    cases declaration <;> rfl
  have hrefs :
      (set.append file).ownServices =
        set.ownServices ++
          (if set.owns file then set.serviceReferences file else []).map Prod.snd :=
    rfl
  unfold services
  rw [hrefs, List.filterMap_append, filterMap_declaration?_append refer]
  by_cases howned : set.owns file = true
  · rw [if_pos howned, if_pos howned, hnew]
  · rw [if_neg howned, if_neg howned]
    rfl

end Accepted

end FileSet
end InterfaceSchema
