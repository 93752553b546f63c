import InterfaceSchema.Proofs.FileSet.Failure

/-!
# Calls

A set is used by calls that load files into it, each of which may fail.

* `FileSet.LoadUnwinds`, `FileSet.CallUnwinds`: a call that fails, with the paths of the files on
  the way to the error.
* `FileSet.Spares`: a set gains nothing from the files on the way to an error.
* `FileSet.extends_of_reachable`: calls only extend a set, and spare it what they fail at.
-/

namespace InterfaceSchema
namespace FileSet

/-! ## Loads -/

/-- A load that fails, and the paths of the files from the one that was asked for to the one that
the error was met in. -/
inductive LoadUnwinds (disk : Disk) (set : FileSet) (path : String) :
    FileSet → LoadError → List String → Prop
  | unopened
      {after : FileSet}
      {error : LoadError}
      (fails : set.openFile disk path = (after, .error error)) :
      LoadUnwinds disk set path after error (set.sought? disk path).toList
  | mixed
      {after : FileSet}
      {file : SourceFile}
      {error : LoadError}
      (opened : set.openFile disk path = (after, .ok (some file)))
      (refuses : after.accept file = .error error) :
      LoadUnwinds disk set path after error [file.name]
  | added
      {after accepted final : FileSet}
      {file : SourceFile}
      {error : LoadError}
      {chain : List String}
      (opened : set.openFile disk path = (after, .ok (some file)))
      (accepts : after.accept file = .ok accepted)
      (inner : Unwinds disk (.file file) accepted final error chain) :
      LoadUnwinds disk set path final error chain

section Loads

variable {disk : Disk} {set final : FileSet} {path : String}
variable {error : LoadError} {chain : List String}

theorem Loading.exists_unwinds
    {result : Except LoadError Unit}
    (loading : Loading disk set path final result)
    (fails : result = .error error) :
    ∃ chain, LoadUnwinds disk set path final error chain := by
  cases loading with
  | unopened hfails =>
      cases fails
      exact ⟨_, .unopened hfails⟩
  | known passed =>
      cases fails
  | mixed opened refuses =>
      cases fails
      exact ⟨_, .mixed opened refuses⟩
  | added opened accepts inner =>
      rcases inner.exists_unwinds fails with ⟨chain, hinner⟩
      exact ⟨chain, .added opened accepts hinner⟩

theorem culprit?_of_accept
    {file : SourceFile}
    (refuses : set.accept file = .error error) :
    error.culprit? = some file.name := by
  rcases exists_mixed_of_accept refuses with ⟨_, rfl⟩
  rfl

theorem LoadUnwinds.getLast?_eq
    {name : String}
    (unwinds : LoadUnwinds disk set path final error chain)
    (culprit : error.culprit? = some name) :
    chain.getLast? = some name := by
  cases unwinds with
  | unopened fails =>
      rw [sought?_of_openFile fails culprit]
      rfl
  | mixed opened refuses =>
      rw [culprit?_of_accept refuses] at culprit
      exact culprit
  | added opened accepts inner =>
      exact inner.getLast?_eq culprit

/-- What leads to the error of a load is new to the set, and left out by the load. -/
theorem LoadUnwinds.leavesOut (unwinds : LoadUnwinds disk set path final error chain) :
    (∀ found ∈ chain, ∀ place, disk.locate found = .ok place → place ∉ set.loaded) ∧
      ∃ added, LeavesOut disk chain set final added := by
  cases unwinds with
  | unopened fails =>
      constructor
      · intro found hfound place hlocated
        exact not_mem_loaded_of_sought fails hfound hlocated
      · refine ⟨[], ?_, loaded_subset_of_openFile fails, by simp⟩
        rw [(fields_of_openFile fails).2.1, List.append_nil]
  | @mixed after file error opened refuses =>
      rcases holds_of_openFile opened with ⟨own, hmarked, hholds, _⟩
      have hanew : LeadsAnew disk final (.file file) [file.name] :=
        .cons ⟨own, hmarked, hholds⟩ (by simp)
      have hgrown : Grown disk noPlace final final [] :=
        .of_marked rfl (List.Subset.refl _)
      have hleaves := (LeavesOut.of_grown hgrown).cons ⟨own, hmarked, hholds⟩
      exact
        ⟨hanew.of_openFile opened, [],
          hleaves.since (fields_of_openFile opened).2.1 (loaded_subset_of_openFile opened)⟩
  | @added after accepted final file error chain opened accepts inner =>
      rcases fields_of_accept accepts with ⟨_, hfiles, hloaded⟩
      rcases holds_of_openFile opened with ⟨own, hmarked, hholds, _⟩
      rcases inner.leavesOut ⟨own, by rw [hloaded]; exact hmarked, hholds⟩ with
        ⟨hanew, added, hleaves⟩
      have hafter : LeadsAnew disk after (.file file) chain := by
        unfold LeadsAnew at hanew ⊢
        rw [← hloaded]
        exact hanew
      refine ⟨hafter.of_openFile opened, added, hleaves.since ?_ ?_⟩
      · rw [hfiles, (fields_of_openFile opened).2.1]
      · rw [hloaded]
        exact loaded_subset_of_openFile opened

end Loads

/-! ## Calls -/

/-- A call that loads files into a set. -/
inductive Call
  | load (path : String)
  | loadAll (paths : List String)

/-- How a call leaves a set, and whether it succeeds. -/
def Call.run (set : FileSet) (disk : Disk) : Call → FileSet × Except LoadError Unit
  | .load path => set.load disk path
  | .loadAll paths => set.loadAll disk paths

/-- A call that fails, and the paths of the files from the one that was asked for to the one that
the error was met in. Of several files the first that fails ends the call. -/
inductive CallUnwinds (disk : Disk) (set : FileSet) :
    Call → FileSet → LoadError → List String → Prop
  | load
      {path : String}
      {final : FileSet}
      {error : LoadError}
      {chain : List String}
      (fails : LoadUnwinds disk set path final error chain) :
      CallUnwinds disk set (.load path) final error chain
  | loadAll
      {earlier : List String}
      {path : String}
      {middle final : FileSet}
      {error : LoadError}
      {chain : List String}
      (later : List String)
      (succeeds : set.loadAll disk earlier = (middle, .ok ()))
      (fails : LoadUnwinds disk middle path final error chain) :
      CallUnwinds disk set (.loadAll (earlier ++ path :: later)) final error chain

section Calls

variable {disk : Disk} {set final : FileSet} {call : Call}
variable {error : LoadError} {chain : List String}

theorem exists_unwinds_of_loadAll
    {paths : List String}
    (fails : set.loadAll disk paths = (final, .error error)) :
    ∃ chain, CallUnwinds disk set (.loadAll paths) final error chain := by
  induction paths generalizing set with
  | nil =>
      cases fails
  | cons path later ih =>
      have hloading := load_loading disk set path
      rw [loadAll] at fails
      cases hload : set.load disk path with
      | mk after result =>
          rw [hload] at fails hloading
          cases result with
          | error found =>
              cases fails
              rcases hloading.exists_unwinds rfl with ⟨chain, hfails⟩
              have hnone : set.loadAll disk [] = (set, .ok ()) := rfl
              exact ⟨chain, .loadAll later hnone hfails⟩
          | ok value =>
              rcases ih fails with ⟨chain, hlater⟩
              cases hlater with
              | @loadAll earlier path' middle _ _ _ rest hsucceeds hfails =>
                  refine ⟨chain, ?_⟩
                  rw [← List.cons_append]
                  refine .loadAll rest ?_ hfails
                  rw [loadAll, hload]
                  exact hsucceeds

theorem Call.exists_unwinds (fails : call.run set disk = (final, .error error)) :
    ∃ chain, CallUnwinds disk set call final error chain := by
  cases call with
  | load path =>
      have hload : set.load disk path = (final, .error error) := fails
      have hloading := load_loading disk set path
      rw [hload] at hloading
      rcases hloading.exists_unwinds rfl with ⟨chain, hfails⟩
      exact ⟨chain, .load hfails⟩
  | loadAll paths =>
      exact exists_unwinds_of_loadAll fails

theorem CallUnwinds.getLast?_eq
    {name : String}
    (unwinds : CallUnwinds disk set call final error chain)
    (culprit : error.culprit? = some name) :
    chain.getLast? = some name := by
  cases unwinds with
  | load fails =>
      exact fails.getLast?_eq culprit
  | loadAll later succeeds fails =>
      exact fails.getLast?_eq culprit

theorem CallUnwinds.leavesOut (unwinds : CallUnwinds disk set call final error chain) :
    ∃ added, LeavesOut disk chain set final added := by
  cases unwinds with
  | load fails =>
      exact fails.leavesOut.2
  | @loadAll earlier path middle _ _ _ later succeeds fails =>
      rcases loadAll_grows disk set earlier with ⟨first, hfirst⟩
      rw [succeeds] at hfirst
      rcases fails.leavesOut with ⟨hanew, second, hsecond⟩
      exact ⟨first ++ second, hsecond.after hfirst hanew⟩

theorem Call.grows (call : Call) (set : FileSet) (disk : Disk) :
    ∃ added, Grown disk noPlace set (call.run set disk).1 added := by
  cases call with
  | load path =>
      exact (load_loading disk set path).grows
  | loadAll paths =>
      exact loadAll_grows disk set paths

theorem Call.consistent (call : Call) (disk : Disk) (consistent : set.Consistent) :
    (call.run set disk).1.Consistent ∧
      ∀ package, set.package = some package → (call.run set disk).1.package = some package := by
  cases call with
  | load path =>
      exact (load_loading disk set path).consistent consistent
  | loadAll paths =>
      exact loadAll_consistent disk paths consistent

/-- What a set gains although a call fails. The new files stand at places to which no path of the
chain leads, and the new entries, messages and services are theirs. -/
structure Spares
    (disk : Disk)
    (chain : List String)
    (before after : FileSet)
    (added : List SourceFile) : Prop where
  files : after.files = before.files ++ added
  places :
    ∀ file ∈ added,
      ∃ place,
        file.StandsAt disk place ∧ ∀ path ∈ chain, disk.locate path ≠ .ok place
  index :
    ∀ name ref,
      after.index.lookup name = some ref →
        before.index.lookup name = some ref ∨
          ∃ file ∈ added, ∃ message,
            after.Refers ref file (.message message) ∧
              name = QualifiedName.join file.package message.name
  messages :
    after.messages =
      before.messages ++ (added.filter after.owns).flatMap fun file => file.schema.messages
  services :
    after.services =
      before.services ++ (added.filter after.owns).flatMap fun file => file.schema.services

/-- Whatever was done to a set before, a call only extends it. If the call fails, the chain of files
from the one that was asked for to the one with the error leaves nothing in the set. -/
theorem extends_of_reachable
    {set : FileSet}
    (reachable : Reachable set)
    (disk : Disk)
    (call : Call) :
    set.ExtendedBy (call.run set disk).1 ∧
      ∀ final error,
        call.run set disk = (final, .error error) →
          (∃ chain, CallUnwinds disk set call final error chain) ∧
            ∀ chain,
              CallUnwinds disk set call final error chain →
                (∀ name, error.culprit? = some name → chain.getLast? = some name) ∧
                  ∃ added, Spares disk chain set final added := by
  have hconsistent := (consistent_of_steps reachable Consistent.empty).1
  rcases call.consistent disk hconsistent with ⟨hafter, hpackage⟩
  constructor
  · rcases call.grows set disk with ⟨added, hgrown⟩
    have hadds : Adds set (call.run set disk).1 added := ⟨hgrown.files, hpackage⟩
    exact hadds.extendedBy hconsistent hafter
  · intro final error hfails
    rw [hfails] at hafter hpackage
    refine ⟨Call.exists_unwinds hfails, ?_⟩
    intro chain hunwinds
    refine ⟨fun name hculprit => hunwinds.getLast?_eq hculprit, ?_⟩
    rcases hunwinds.leavesOut with ⟨added, hleaves⟩
    have hadds : Adds set final added := ⟨hleaves.files, hpackage⟩
    refine ⟨added, hleaves.files, ?_, ?_, ?_, ?_⟩
    · intro file hmember
      rcases hleaves.places file hmember with ⟨place, hstands, _, hapart⟩
      exact ⟨place, hstands, hapart⟩
    · intro name ref hfound
      exact hadds.index_lookup hconsistent hafter hfound
    · exact hadds.own_eq hconsistent hafter fun _ hcons => hcons.messages_eq
    · exact hadds.own_eq hconsistent hafter fun _ hcons => hcons.services_eq

end Calls

/-! ## Two files -/

/-- Adding a bare file without imports registers it at once. -/
theorem Runs.of_bare
    {disk : Disk}
    (set : FileSet)
    {file : SourceFile}
    {package : String}
    (bare : file.IsBare package []) :
    Runs disk (.file file) set (set.append file) (.ok ()) := by
  refine .registered ?_ (register_of_bare set bare.unnamed)
  rw [bare.imports_eq]
  exact .done file set

namespace Pair

/-- A disk with two files of given texts. -/
def disk (first second : String) : Disk where
  home := []
  entries :=
    [(["a.yarp"], .file first.toUTF8),
      (["b.yarp"], .file second.toUTF8)]

section Paths

variable (first second : String)

theorem locate_first : (disk first second).locate "a.yarp" = .ok ["a.yarp"] := by
  have hwalk (links : Nat) : (disk first second).walk links [] ["a.yarp"] = .ok ["a.yarp"] := by
    rw [Disk.walk_enter rfl (by decide) rfl (by simp), Disk.walk_nil]
    rfl
  exact Disk.locate_of_walk (by decide) rfl rfl (hwalk 40) rfl

theorem locate_second : (disk first second).locate "b.yarp" = .ok ["b.yarp"] := by
  have hwalk (links : Nat) : (disk first second).walk links [] ["b.yarp"] = .ok ["b.yarp"] := by
    rw [Disk.walk_enter rfl (by decide) rfl (by simp), Disk.walk_nil]
    rfl
  exact Disk.locate_of_walk (by decide) rfl rfl (hwalk 40) rfl

/-- The path of a missing file leads to the place where it would be. -/
theorem reach_missing
    {name : String}
    (plain : Char.ofNat 0 ∉ name.toList ∧ name ≠ "" ∧ ¬ Disk.pathLimit ≤ name.utf8ByteSize)
    (base : Disk.baseOf [] name = [])
    (split : Path.components name = [name])
    (isName : Disk.IsName name)
    (missing : (disk first second).get? [name] = none) :
    (disk first second).reach name = .ok [name] := by
  rw [Disk.reach_short plain.1 plain.2.1 plain.2.2, split]
  have hbase : Disk.baseOf (disk first second).home name = [] := base
  rw [hbase]
  exact Disk.walk_missing_last rfl isName missing

/-- Without the extension the second file is not found. -/
theorem resolve_second :
    resolve (disk first second) defaultExtension "b" = .ok "b.yarp" := by
  have hreach : (disk first second).reach "b" = .ok ["b"] :=
    reach_missing first second (by decide) rfl rfl (by decide) rfl
  have hvacant : (disk first second).IsVacant (.ok ["b"]) := by
    rintro ⟨hsome, _⟩
    cases hsome
  exact
    (resolve_of_vacant defaultExtension hreach hvacant).1
      (Disk.isFile_iff.2 ⟨["b.yarp"], locate_second first second, rfl, rfl⟩)

/-- There is no third file. -/
theorem resolve_third :
    resolve (disk first second) defaultExtension "c" = .error (.notFound "c") := by
  have hmissing :
      ∀ name,
        (disk first second).reach name = .ok [name] →
          (disk first second).get? [name] = none →
            (disk first second).locate name = .error .notFound := by
    intro name hreach hnone
    unfold Disk.locate
    rw [hreach]
    simp only [hnone]
    rfl
  have hplain := hmissing "c" (reach_missing _ _ (by decide) rfl rfl (by decide) rfl) rfl
  have hextended :=
    hmissing "c.yarp" (reach_missing _ _ (by decide) rfl rfl (by decide) rfl) rfl
  have hfile : (disk first second).isFile ("c" ++ "." ++ defaultExtension) = false := by
    unfold Disk.isFile
    rw [show "c" ++ "." ++ defaultExtension = "c.yarp" from rfl, hextended]
  unfold resolve
  rw [hplain]
  exact if_neg (by rw [hfile]; simp)

end Paths

section Files

variable {first second : String} {a b : SourceFile} {set : FileSet}

theorem open_first (read : SourceFile.openAt (disk first second) "a.yarp" = .ok a) :
    empty.openFile (disk first second) "a.yarp" =
      ({ empty with loaded := [["a.yarp"]] }, .ok (some a)) :=
  openFile_of_located (locate_first first second) rfl (by simp [empty]) read

theorem open_second
    (path : a.path = some "a.yarp")
    (read : SourceFile.openAt (disk first second) "b.yarp" = .ok b)
    (extension : set.extension = defaultExtension)
    (loaded : set.loaded = [["a.yarp"]]) :
    set.openFile (disk first second) (Path.beside a.directory "b") =
      ({ set with loaded := [["b.yarp"], ["a.yarp"]] }, .ok (some b)) := by
  have hpath : Path.beside a.directory "b" = "b" := by
    unfold SourceFile.directory
    rw [path]
    decide +kernel
  have hresolved : resolve (disk first second) set.extension "b" = .ok "b.yarp" := by
    rw [extension]
    exact resolve_second first second
  rw [hpath,
    openFile_of_not_mem hresolved (locate_second first second) (by rw [loaded]; decide), read,
    loaded]
  rfl

theorem open_third
    (path : a.path = some "a.yarp")
    (extension : set.extension = defaultExtension) :
    set.openFile (disk first second) (Path.beside a.directory "c") =
      (set, .error (.notFound "c")) := by
  have hpath : Path.beside a.directory "c" = "c" := by
    unfold SourceFile.directory
    rw [path]
    decide +kernel
  rw [hpath]
  apply openFile_of_error
  rw [extension]
  exact resolve_third first second

end Files

/-- If the first file imports the second and a third one, its load registers the second and fails at
the third. -/
theorem exists_load
    {first second : String}
    (holdsFirst : (disk first second).HoldsBare ["a.yarp"] "p" ["b", "c"])
    (holdsSecond : (disk first second).HoldsBare ["b.yarp"] "p" []) :
    ∃ final importer,
      empty.load (disk first second) "a.yarp" =
          (final, .error (.importNotFound "c" importer)) ∧
        SourceFile.openAt (disk first second) "a.yarp" = .ok importer := by
  rcases SourceFile.exists_openAt_of_holdsBare (locate_first _ _) holdsFirst with
    ⟨a, ha, hpath, hbare⟩
  rcases SourceFile.exists_openAt_of_holdsBare (locate_second _ _) holdsSecond with
    ⟨b, hb, _, hbareToo⟩
  have hrun :
      ∀ set : FileSet, set.extension = defaultExtension → set.loaded = [["a.yarp"]] →
        ∃ final,
          Runs (disk first second) (.file a) set final (.error (.importNotFound "c" a)) := by
    intro set hextension hloaded
    have hopened := open_second hpath hb hextension hloaded
    have hthird :
        ∀ later : FileSet, later.extension = defaultExtension →
          later.openFile (disk first second) (Path.beside a.directory "c") =
            (later, .error (.notFound "c")) :=
      fun _ => open_third hpath
    have hstops :
        Runs (disk first second) (.imports a a.schema.imports) set
          ({ set with loaded := [["b.yarp"], ["a.yarp"]] }.append b)
          (.error (.importNotFound "c" a)) := by
      rw [hbare.imports_eq]
      exact .added hopened (.of_bare _ hbareToo) (.unopened [] (hthird _ (by exact hextension)))
    exact ⟨_, .stopped hstops⟩
  rcases hrun { empty with package := some a.package, loaded := [["a.yarp"]] } rfl rfl with
    ⟨final, hfinal⟩
  exact ⟨final, a, Loading.load_eq (.added (open_first ha) rfl hfinal), ha⟩

end Pair

/-- A file whose second import is missing. -/
def lackingDisk : Disk :=
  Pair.disk "package p;import \"b\";import \"c\";" "package p;"

/-- The load registers the first import and fails at the second. -/
theorem exists_load_lackingDisk :
    ∃ final importer,
      empty.load lackingDisk "a.yarp" = (final, .error (.importNotFound "c" importer)) := by
  have hfirst : lackingDisk.HoldsBare ["a.yarp"] "p" ["b", "c"] :=
    Disk.holdsBare_of_text "package p;import \"b\";import \"c\";" rfl (by decide +kernel)
  have hsecond : lackingDisk.HoldsBare ["b.yarp"] "p" [] :=
    Disk.holdsBare_of_text "package p;" rfl (by decide +kernel)
  rcases Pair.exists_load hfirst hsecond with ⟨final, importer, hload, _⟩
  exact ⟨final, importer, hload⟩

theorem extends_of_reachable_lackingDisk :
    Reachable empty ∧
      ∃ final importer,
        (Call.load "a.yarp").run empty lackingDisk =
            (final, .error (.importNotFound "c" importer)) ∧
          empty.ExtendedBy final ∧
          ∃ chain,
            CallUnwinds lackingDisk empty (.load "a.yarp") final
                (.importNotFound "c" importer) chain ∧
              chain.getLast? = some importer.name ∧
              ∃ added, Spares lackingDisk chain empty final added := by
  have hreachable : Reachable empty := Relation.ReflTransGen.refl
  rcases exists_load_lackingDisk with ⟨final, importer, hload⟩
  have hrun :
      (Call.load "a.yarp").run empty lackingDisk =
        (final, .error (.importNotFound "c" importer)) :=
    hload
  rcases extends_of_reachable hreachable lackingDisk (.load "a.yarp") with ⟨hextended, hfails⟩
  rw [hrun] at hextended
  rcases hfails final _ hrun with ⟨⟨chain, hunwinds⟩, hall⟩
  rcases hall chain hunwinds with ⟨hlast, hspares⟩
  exact
    ⟨hreachable, final, importer, hrun, hextended, chain, hunwinds, hlast _ rfl, hspares⟩

end FileSet
end InterfaceSchema
