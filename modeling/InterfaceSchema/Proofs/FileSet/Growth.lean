import InterfaceSchema.Proofs.FileSet.Consistent
import InterfaceSchema.Proofs.FileSet.Place

/-!
# Growing file sets

Whatever is loaded, and however that ends, a set only gains files.

* `FileSet.ExtendedBy`: a later set holds all that an earlier one holds, and answers as it does.
* `FileSet.Adds`: which files a later set has more. For consistent sets the rest follows from this
  (`FileSet.Adds.extendedBy`).
* `FileSet.Grown`: the files that are added stand at places that were not marked before.
* `FileSet.Runs.grows`, `FileSet.Loading.grows`, `FileSet.loadAll_grows`: runs and loads grow sets
  in this way.
-/

namespace InterfaceSchema
namespace FileSet

/-- A later set has the files, the declarations and the package of an earlier one, and knows the
names that the earlier one knows. -/
structure ExtendedBy (before after : FileSet) : Prop where
  files : before.files <+: after.files
  messages : before.messages <+: after.messages
  services : before.services <+: after.services
  package :
    ∀ package, before.package = some package → after.package = some package
  findMessage? :
    ∀ name message,
      before.findMessage? name = some message → after.findMessage? name = some message
  isOwnMessage : ∀ name, before.isOwnMessage name = true → after.isOwnMessage name = true

/-- The files that a later set has more than an earlier one. -/
structure Adds (before after : FileSet) (added : List SourceFile) : Prop where
  files : after.files = before.files ++ added
  package :
    ∀ package, before.package = some package → after.package = some package

namespace Adds

variable {before after : FileSet} {added : List SourceFile}

/-- References lead to the same declarations as before. -/
theorem refers
    (adds : Adds before after added)
    {ref : DeclarationRef}
    {file : SourceFile}
    {declaration : Declaration}
    (refers : before.Refers ref file declaration) :
    after.Refers ref file declaration := by
  refine ⟨?_, refers.2⟩
  rw [adds.files, List.getElem?_append_left (List.getElem?_eq_some_iff.1 refers.1).1]
  exact refers.1

/-- A reference that leads to no earlier file leads to one that was added. -/
theorem refers_cases
    (adds : Adds before after added)
    {ref : DeclarationRef}
    {file : SourceFile}
    {declaration : Declaration}
    (refers : after.Refers ref file declaration) :
    before.Refers ref file declaration ∨ file ∈ added := by
  rcases refers with ⟨hfile, hdeclared⟩
  rw [adds.files] at hfile
  rcases Nat.lt_or_ge ref.file before.files.length with hold | hnew
  · rw [List.getElem?_append_left hold] at hfile
    exact Or.inl ⟨hfile, hdeclared⟩
  · rw [List.getElem?_append_right hnew] at hfile
    exact Or.inr (List.mem_of_getElem? hfile)

section Views

variable (adds : Adds before after added)
variable (consistent : before.Consistent) (consistentToo : after.Consistent)

include adds consistent consistentToo

/-- The declarations of the set's own package are those of before and those of the new files. -/
theorem own_eq
    {α : Type}
    {declared : SourceFile → List α}
    {view : FileSet → List α}
    (views :
      ∀ set : FileSet, set.Consistent →
        view set = (set.files.filter set.owns).flatMap declared) :
    view after = view before ++ (added.filter after.owns).flatMap declared := by
  rw [views after consistentToo, views before consistent, adds.files, List.filter_append,
    List.flatMap_append]
  cases hpackage : before.package with
  | none =>
      rw [consistent.files_of_noPackage hpackage]
      rfl
  | some package =>
      have howns : after.owns = before.owns := by
        funext file
        unfold owns
        rw [hpackage, adds.package package hpackage]
      rw [howns]

/-- The index finds what it found before, and the messages of the new files. -/
theorem index_lookup
    {name : String}
    {ref : DeclarationRef}
    (found : after.index.lookup name = some ref) :
    before.index.lookup name = some ref ∨
      ∃ file ∈ added, ∃ message,
        after.Refers ref file (.message message) ∧
          name = QualifiedName.join file.package message.name := by
  rcases (consistentToo.index_lookup name ref).1 found with ⟨file, message, hrefers, hname⟩
  rcases adds.refers_cases hrefers with hold | hnew
  · exact Or.inl ((consistent.index_lookup name ref).2 ⟨file, message, hold, hname⟩)
  · exact Or.inr ⟨file, hnew, message, hrefers, hname⟩

/-- A name that is found leads to the same message of the same file as before. -/
theorem refers_of_lookup
    {name : String}
    {ref : DeclarationRef}
    (found : before.index.lookup (before.qualify name) = some ref) :
    after.index.lookup (after.qualify name) = some ref ∧
      ∃ file message,
        before.Refers ref file (.message message) ∧
          after.Refers ref file (.message message) ∧ after.package = before.package := by
  rcases (consistent.index_lookup _ ref).1 found with ⟨file, message, hrefers, hname⟩
  cases hpackage : before.package with
  | none =>
      have hfile := hrefers.1
      rw [consistent.files_of_noPackage hpackage] at hfile
      cases hfile
  | some package =>
      have hkept := adds.package package hpackage
      have hqualify : after.qualify name = before.qualify name := by
        unfold qualify
        rw [hpackage, hkept]
      have hafter := adds.refers hrefers
      refine ⟨?_, file, message, hrefers, hafter, hkept⟩
      rw [hqualify]
      exact (consistentToo.index_lookup _ ref).2 ⟨file, message, hafter, hname⟩

/-- A consistent set that has more files extends the earlier one. -/
theorem extendedBy : before.ExtendedBy after := by
  constructor
  · rw [adds.files]
    exact List.prefix_append _ _
  · rw [adds.own_eq consistent consistentToo fun _ hconsistent => hconsistent.messages_eq]
    exact List.prefix_append _ _
  · rw [adds.own_eq consistent consistentToo fun _ hconsistent => hconsistent.services_eq]
    exact List.prefix_append _ _
  · exact adds.package
  · intro name message hfound
    unfold FileSet.findMessage? at hfound ⊢
    rcases Option.bind_eq_some_iff.1 hfound with ⟨ref, hlookup, hmessage⟩
    rcases adds.refers_of_lookup consistent consistentToo hlookup with
      ⟨hkept, file, found, hbefore, hafter, _⟩
    rw [hbefore.declaration?_eq] at hmessage
    rw [hkept, Option.bind_some, hafter.declaration?_eq]
    exact hmessage
  · intro name hown
    unfold FileSet.isOwnMessage at hown ⊢
    cases hlookup : before.index.lookup (before.qualify name) with
    | none =>
        rw [hlookup] at hown
        cases hown
    | some ref =>
        rw [hlookup] at hown
        rcases adds.refers_of_lookup consistent consistentToo hlookup with
          ⟨hkept, file, found, hbefore, hafter, hpackage⟩
        simp only [hbefore.1, Option.any_some] at hown
        rw [hkept]
        simp only [hafter.1, Option.any_some]
        unfold owns at hown ⊢
        rw [hpackage]
        exact hown

end Views

end Adds

/-! ## Places of new files -/

/-- The files that a later set has more stand at places that it has marked and the earlier one has
not, unless `own` holds of them. -/
structure Grown
    (disk : Disk)
    (own : Place → Prop)
    (before after : FileSet)
    (added : List SourceFile) : Prop where
  files : after.files = before.files ++ added
  loaded : before.loaded ⊆ after.loaded
  places :
    ∀ file ∈ added,
      ∃ place ∈ after.loaded,
        file.StandsAt disk place ∧ (place ∉ before.loaded ∨ own place)

/-- No place. -/
abbrev noPlace : Place → Prop :=
  fun _ => False

namespace Grown

variable {disk : Disk} {own : Place → Prop} {before middle after : FileSet}
variable {first second : List SourceFile}

/-- A set that has marked more places has grown, without new files. -/
theorem of_marked
    (files : after.files = before.files)
    (loaded : before.loaded ⊆ after.loaded) :
    Grown disk own before after [] := by
  refine ⟨?_, loaded, ?_⟩
  · rw [files, List.append_nil]
  · intro file hmember
    cases hmember

theorem files_subset (grown : Grown disk own before after first) : before.files ⊆ after.files := by
  rw [grown.files]
  exact List.subset_append_left _ _

theorem trans
    (grown : Grown disk own before middle first)
    (further : Grown disk own middle after second) :
    Grown disk own before after (first ++ second) := by
  refine ⟨?_, List.Subset.trans grown.loaded further.loaded, ?_⟩
  · rw [further.files, grown.files, List.append_assoc]
  · intro file hmember
    rcases List.mem_append.1 hmember with hfirst | hsecond
    · rcases grown.places file hfirst with ⟨place, hmarked, hstands, hnew⟩
      exact ⟨place, further.loaded hmarked, hstands, hnew⟩
    · rcases further.places file hsecond with ⟨place, hmarked, hstands, hnew | hown⟩
      · exact ⟨place, hmarked, hstands, Or.inl fun hold => hnew (grown.loaded hold)⟩
      · exact ⟨place, hmarked, hstands, Or.inr hown⟩

theorem imp
    {weaker : Place → Prop}
    (weakens : ∀ place, own place → weaker place)
    (grown : Grown disk own before after first) :
    Grown disk weaker before after first := by
  refine ⟨grown.files, grown.loaded, ?_⟩
  intro file hmember
  rcases grown.places file hmember with ⟨place, hmarked, hstands, hnew⟩
  exact ⟨place, hmarked, hstands, hnew.imp_right (weakens place)⟩

/-- Only the files and the marked places of the earlier set matter. -/
theorem of_eq
    (files : middle.files = before.files)
    (loaded : middle.loaded = before.loaded)
    (grown : Grown disk own middle after first) :
    Grown disk own before after first := by
  constructor
  · rw [grown.files, files]
  · rw [← loaded]
    exact grown.loaded
  · rw [← loaded]
    exact grown.places

/-- The own place counts as new from before it was marked. -/
theorem since
    (outside : ∀ place, own place → place ∉ before.loaded)
    (files : middle.files = before.files)
    (loaded : before.loaded ⊆ middle.loaded)
    (grown : Grown disk own middle after first) :
    Grown disk noPlace before after first := by
  refine ⟨?_, List.Subset.trans loaded grown.loaded, ?_⟩
  · rw [grown.files, files]
  · intro file hmember
    rcases grown.places file hmember with ⟨place, hmarked, hstands, hnew | hown⟩
    · exact ⟨place, hmarked, hstands, Or.inl fun hold => hnew (loaded hold)⟩
    · exact ⟨place, hmarked, hstands, Or.inl (outside place hown)⟩

end Grown

/-! ## Opening -/

section Opening

variable {disk : Disk} {set after : FileSet} {path : String}

/-- The place of a file: where it was read, and where its name leads. -/
structure Holds (disk : Disk) (file : SourceFile) (place : Place) : Prop where
  stands : file.StandsAt disk place
  located : disk.locate file.name = .ok place

theorem Holds.unique
    {file : SourceFile}
    {place other : Place}
    (holds : Holds disk file place)
    (also : Holds disk file other) :
    place = other := by
  have hsame := holds.located.symm.trans also.located
  cases hsame
  rfl

/-- A file that is opened is held by a place that was not marked before and is now. -/
theorem holds_of_openFile
    {file : SourceFile}
    (opened : set.openFile disk path = (after, .ok (some file))) :
    ∃ place ∈ after.loaded, Holds disk file place ∧ place ∉ set.loaded := by
  rcases openFile_cases opened with ⟨_, hnone⟩ | ⟨found, place, _, hplace, hnew, rfl, hresult⟩
  · exact absurd rfl (hnone file)
  · refine ⟨place, List.mem_cons_self, ?_, hnew⟩
    cases hread : SourceFile.openAt disk found with
    | error error =>
        rw [hread] at hresult
        cases hresult
    | ok other =>
        rw [hread] at hresult
        cases hresult
        rcases SourceFile.openAt_eq_ok hread with ⟨_, _, _, _, hname, _⟩
        refine ⟨SourceFile.standsAt_of_openAt hplace hread, ?_⟩
        rw [hname]
        exact hplace

end Opening

/-! ## Runs -/

/-- The file of a task has been opened: its place is marked. -/
def Task.IsOpen (disk : Disk) (set : FileSet) : Task → Prop
  | .imports _ _ => True
  | .file opened => ∃ place ∈ set.loaded, Holds disk opened place

/-- The place that a task fills although it was marked before: that of its own file, which a task
that succeeds registers. -/
def Task.Fills (disk : Disk) : Task → Except LoadError Unit → Place → Prop
  | .imports _ _, _ => noPlace
  | .file opened, .ok () => Holds disk opened
  | .file _, .error _ => noPlace

section Running

variable {disk : Disk} {set final : FileSet} {result : Except LoadError Unit}

/-- What a file and its imports add stands at places that were new before the file was opened. -/
theorem Grown.of_openFile
    {after : FileSet}
    {path : String}
    {file : SourceFile}
    {added : List SourceFile}
    (opened : set.openFile disk path = (after, .ok (some file)))
    (grown : Grown disk ((Task.file file).Fills disk result) after final added) :
    Grown disk noPlace set final added := by
  rcases holds_of_openFile opened with ⟨place, _, hholds, hnew⟩
  refine grown.since ?_ (fields_of_openFile opened).2.1 (loaded_subset_of_openFile opened)
  intro other hown
  cases result with
  | error error =>
      cases hown
  | ok value =>
      have hsame : other = place := Holds.unique hown hholds
      rw [hsame]
      exact hnew

/-- Registering a file adds it alone. -/
theorem Grown.of_register
    {file : SourceFile}
    (isOpen : (Task.file file).IsOpen disk set)
    (accepts : set.register file = .ok final) :
    Grown disk (Holds disk file) set final [file] := by
  rcases isOpen with ⟨place, hmarked, hholds⟩
  have hloaded := loaded_of_register accepts
  refine ⟨?_, ?_, ?_⟩
  · rw [(register_eq_ok_iff.1 accepts).2]
    rfl
  · rw [hloaded]
    exact List.Subset.refl _
  · intro found hmember
    cases List.mem_singleton.1 hmember
    refine ⟨place, ?_, hholds.stands, Or.inr hholds⟩
    rw [hloaded]
    exact hmarked

/-- A run adds files at new places, and the file of its task if it succeeds. -/
theorem Runs.grows
    {task : Task}
    (run : Runs disk task set final result)
    (isOpen : task.IsOpen disk set) :
    ∃ added, Grown disk (task.Fills disk result) set final added := by
  induction run with
  | done importer set =>
      exact ⟨[], .of_marked rfl (List.Subset.refl _)⟩
  | unopened later fails =>
      exact ⟨[], .of_marked (fields_of_openFile fails).2.1 (loaded_subset_of_openFile fails)⟩
  | known passed rest ih =>
      rcases openFile_known passed with ⟨rfl, _⟩
      exact ih trivial
  | failed later opened inner ih =>
      rcases holds_of_openFile opened with ⟨place, hmarked, hholds, _⟩
      rcases ih ⟨place, hmarked, hholds⟩ with ⟨added, hadded⟩
      exact ⟨added, .of_openFile opened hadded⟩
  | added opened inner rest ihFile ihLater =>
      rcases holds_of_openFile opened with ⟨place, hmarked, hholds, _⟩
      rcases ihFile ⟨place, hmarked, hholds⟩ with ⟨first, hfirst⟩
      rcases ihLater trivial with ⟨second, hsecond⟩
      exact ⟨first ++ second, (Grown.of_openFile opened hfirst).trans hsecond⟩
  | stopped inner ih =>
      exact ih trivial
  | refused inner refuses ih =>
      exact ih trivial
  | registered inner accepts ih =>
      rcases ih trivial with ⟨added, hadded⟩
      rcases isOpen with ⟨place, hmarked, hholds⟩
      have hfile := Grown.of_register ⟨place, hadded.loaded hmarked, hholds⟩ accepts
      exact ⟨_, (hadded.imp fun _ hnone => hnone.elim).trans hfile⟩

end Running

/-! ## Loads -/

section Loads

variable {disk : Disk} {set final : FileSet} {result : Except LoadError Unit} {path : String}

/-- A load adds files at new places. -/
theorem Loading.grows (loading : Loading disk set path final result) :
    ∃ added, Grown disk noPlace set final added := by
  cases loading with
  | unopened fails =>
      exact ⟨[], .of_marked (fields_of_openFile fails).2.1 (loaded_subset_of_openFile fails)⟩
  | known passed =>
      exact ⟨[], .of_marked (fields_of_openFile passed).2.1 (loaded_subset_of_openFile passed)⟩
  | mixed opened refuses =>
      exact ⟨[], .of_marked (fields_of_openFile opened).2.1 (loaded_subset_of_openFile opened)⟩
  | added opened accepts inner =>
      rcases fields_of_accept accepts with ⟨_, hfiles, hloaded⟩
      rcases holds_of_openFile opened with ⟨place, hmarked, hholds, _⟩
      rcases inner.grows ⟨place, by rw [hloaded]; exact hmarked, hholds⟩ with ⟨added, hadded⟩
      exact ⟨added, .of_openFile opened (hadded.of_eq hfiles hloaded)⟩

/-- Several loads add files at new places. -/
theorem loadAll_grows (disk : Disk) (set : FileSet) (paths : List String) :
    ∃ added, Grown disk noPlace set (set.loadAll disk paths).1 added := by
  induction paths generalizing set with
  | nil =>
      exact ⟨[], .of_marked rfl (List.Subset.refl _)⟩
  | cons path later ih =>
      rcases (load_loading disk set path).grows with ⟨first, hfirst⟩
      rw [loadAll]
      split
      · next after error hload =>
        rw [hload] at hfirst
        exact ⟨first, hfirst⟩
      · next after hload =>
        rw [hload] at hfirst
        rcases ih after with ⟨second, hsecond⟩
        exact ⟨first ++ second, hfirst.trans hsecond⟩

end Loads

end FileSet
end InterfaceSchema
