import InterfaceSchema.Proofs.FileSet.Call
import InterfaceSchema.Proofs.FileSet.Closure

/-!
# Openings

Whatever is loaded into a set, each file is opened once. This module follows the calls of
`SourceFile.openAt` through whole histories.

* `FileSet.opening?`: the call that opening a file for a set makes, if the file is new.
* `FileSet.Reads`, `FileSet.LoadReads`, `FileSet.CallReads`, `FileSet.History`: runs with the list
  of the calls they make. They are the runs of the loader, and each of these makes some list of
  calls (`FileSet.Runs.exists_reads`, `FileSet.Call.exists_reads`).
* `FileSet.Spends`: the calls of a run are no more than the files that were new before it.
* `FileSet.Ledger`: all calls of a history, in order, are those at the marked places. Files that
  have been opened and wait for their imports stand beside the registered ones.
* `FileSet.OpensOnce`, `FileSet.opensOnce_of_reachable`: what follows for the sets that come about.
-/

namespace InterfaceSchema

/-- A call of `SourceFile.openAt`. -/
structure Opening where
  disk : Disk
  path : String

namespace Opening

/-- The place of the file that is opened. -/
def place (opening : Opening) : Except DiskFault Place :=
  opening.disk.locate opening.path

/-- What the call returns. -/
def result (opening : Opening) : Except LoadError SourceFile :=
  SourceFile.openAt opening.disk opening.path

end Opening

namespace FileSet

/-- The call of `SourceFile.openAt` that `FileSet.openFile` makes. A file whose place is marked is
not opened. -/
def opening? (set : FileSet) (disk : Disk) (path : String) : Option Opening :=
  (set.sought? disk path).bind fun found =>
    (disk.locate found).toOption.bind fun place =>
      if set.loaded.contains place then none else some ⟨disk, found⟩

/-- A file is opened at a place that was not marked before and is then, or not at all. -/
theorem opening?_cases
    {disk : Disk}
    {set after : FileSet}
    {path : String}
    {result : Except LoadError (Option SourceFile)}
    (opened : set.openFile disk path = (after, result)) :
    (set.opening? disk path = none ∧ after = set ∧ ∀ file, result ≠ .ok (some file)) ∨
      ∃ opening place,
        set.opening? disk path = some opening ∧
          opening.disk = disk ∧
          opening.place = .ok place ∧
          place ∉ set.loaded ∧
          after = { set with loaded := place :: set.loaded } ∧
          result = opening.result.map some := by
  cases hresolved : resolve disk set.extension path with
  | error error =>
      have hnone : set.opening? disk path = none := by
        rw [opening?, sought?, hresolved]
        rfl
      cases (openFile_of_error hresolved).symm.trans opened
      exact Or.inl ⟨hnone, rfl, by simp⟩
  | ok found =>
      cases hlocated : disk.locate found with
      | error fault =>
          have hnone : set.opening? disk path = none := by
            rw [opening?, sought?, hresolved]
            simp only [Except.toOption, hlocated, Option.bind_some, Option.bind_none]
          have hfails : set.openFile disk path = (set, .error (.disk found fault)) := by
            simp only [openFile, hresolved, hlocated]
          cases hfails.symm.trans opened
          exact Or.inl ⟨hnone, rfl, by simp⟩
      | ok place =>
          by_cases hknown : place ∈ set.loaded
          · have hnone : set.opening? disk path = none := by
              rw [opening?, sought?, hresolved]
              simp only [Except.toOption, hlocated, Option.bind_some, List.contains_iff_mem,
                if_pos hknown]
            cases (openFile_of_mem hresolved hlocated hknown).symm.trans opened
            exact Or.inl ⟨hnone, rfl, by simp⟩
          · have hsome : set.opening? disk path = some ⟨disk, found⟩ := by
              rw [opening?, sought?, hresolved]
              simp only [Except.toOption, hlocated, Option.bind_some, List.contains_iff_mem,
                if_neg hknown]
            cases (openFile_of_not_mem hresolved hlocated hknown).symm.trans opened
            exact Or.inr ⟨_, place, hsome, rfl, hlocated, hknown, rfl, rfl⟩

/-! ## Runs with their calls -/

/-- The calls that opening a file makes. -/
def openings (set : FileSet) (disk : Disk) (path : String) : List Opening :=
  (set.opening? disk path).toList

/-- The run of a task, with the calls it makes in order. -/
inductive Reads (disk : Disk) :
    Task → FileSet → FileSet → Except LoadError Unit → List Opening → Prop
  | done (importer : SourceFile) (set : FileSet) :
      Reads disk (.imports importer []) set set (.ok ()) []
  | unopened
      {importer : SourceFile}
      {set after : FileSet}
      {path : String}
      {error : LoadError}
      (later : List String)
      (fails : set.openFile disk (Path.beside importer.directory path) = (after, .error error)) :
      Reads disk (.imports importer (path :: later)) set after
        (.error (error.atImport importer path))
        (set.openings disk (Path.beside importer.directory path))
  | known
      {importer : SourceFile}
      {set after final : FileSet}
      {path : String}
      {later : List String}
      {result : Except LoadError Unit}
      {calls : List Opening}
      (passed : set.openFile disk (Path.beside importer.directory path) = (after, .ok none))
      (rest : Reads disk (.imports importer later) after final result calls) :
      Reads disk (.imports importer (path :: later)) set final result
        (set.openings disk (Path.beside importer.directory path) ++ calls)
  | failed
      {importer file : SourceFile}
      {set after final : FileSet}
      {path : String}
      {error : LoadError}
      {calls : List Opening}
      (later : List String)
      (opened :
        set.openFile disk (Path.beside importer.directory path) = (after, .ok (some file)))
      (inner : Reads disk (.file file) after final (.error error) calls) :
      Reads disk (.imports importer (path :: later)) set final (.error error)
        (set.openings disk (Path.beside importer.directory path) ++ calls)
  | added
      {importer file : SourceFile}
      {set after middle final : FileSet}
      {path : String}
      {later : List String}
      {result : Except LoadError Unit}
      {calls others : List Opening}
      (opened :
        set.openFile disk (Path.beside importer.directory path) = (after, .ok (some file)))
      (inner : Reads disk (.file file) after middle (.ok ()) calls)
      (rest : Reads disk (.imports importer later) middle final result others) :
      Reads disk (.imports importer (path :: later)) set final result
        (set.openings disk (Path.beside importer.directory path) ++ calls ++ others)
  | stopped
      {file : SourceFile}
      {set final : FileSet}
      {error : LoadError}
      {calls : List Opening}
      (inner : Reads disk (.imports file file.schema.imports) set final (.error error) calls) :
      Reads disk (.file file) set final (.error error) calls
  | refused
      {file : SourceFile}
      {set middle : FileSet}
      {error : LoadError}
      {calls : List Opening}
      (inner : Reads disk (.imports file file.schema.imports) set middle (.ok ()) calls)
      (refuses : middle.register file = .error error) :
      Reads disk (.file file) set middle (.error error) calls
  | registered
      {file : SourceFile}
      {set middle final : FileSet}
      {calls : List Opening}
      (inner : Reads disk (.imports file file.schema.imports) set middle (.ok ()) calls)
      (accepts : middle.register file = .ok final) :
      Reads disk (.file file) set final (.ok ()) calls

/-- The run of a load, with the calls it makes. -/
inductive LoadReads (disk : Disk) (set : FileSet) (path : String) :
    FileSet → Except LoadError Unit → List Opening → Prop
  | unopened
      {after : FileSet}
      {error : LoadError}
      (fails : set.openFile disk path = (after, .error error)) :
      LoadReads disk set path after (.error error) (set.openings disk path)
  | known
      {after : FileSet}
      (passed : set.openFile disk path = (after, .ok none)) :
      LoadReads disk set path after (.ok ()) (set.openings disk path)
  | mixed
      {after : FileSet}
      {file : SourceFile}
      {error : LoadError}
      (opened : set.openFile disk path = (after, .ok (some file)))
      (refuses : after.accept file = .error error) :
      LoadReads disk set path after (.error error) (set.openings disk path)
  | added
      {after accepted final : FileSet}
      {file : SourceFile}
      {result : Except LoadError Unit}
      {calls : List Opening}
      (opened : set.openFile disk path = (after, .ok (some file)))
      (accepts : after.accept file = .ok accepted)
      (inner : Reads disk (.file file) accepted final result calls) :
      LoadReads disk set path final result (set.openings disk path ++ calls)

/-- The run of a call, with the calls of `SourceFile.openAt` in it. -/
inductive CallReads (disk : Disk) :
    Call → FileSet → FileSet → Except LoadError Unit → List Opening → Prop
  | load
      {set final : FileSet}
      {path : String}
      {result : Except LoadError Unit}
      {calls : List Opening}
      (reads : LoadReads disk set path final result calls) :
      CallReads disk (.load path) set final result calls
  | none (set : FileSet) :
      CallReads disk (.loadAll []) set set (.ok ()) []
  | stopped
      {set final : FileSet}
      {path : String}
      {error : LoadError}
      {calls : List Opening}
      (later : List String)
      (reads : LoadReads disk set path final (.error error) calls) :
      CallReads disk (.loadAll (path :: later)) set final (.error error) calls
  | more
      {set after final : FileSet}
      {path : String}
      {later : List String}
      {result : Except LoadError Unit}
      {calls others : List Opening}
      (reads : LoadReads disk set path after (.ok ()) calls)
      (rest : CallReads disk (.loadAll later) after final result others) :
      CallReads disk (.loadAll (path :: later)) set final result (calls ++ others)

/-- A history of a set, with all calls of `SourceFile.openAt` in it. The disk may be another one for
each call. -/
inductive History : FileSet → List Opening → Prop
  | start : History empty []
  | withExtension
      {set : FileSet}
      {calls : List Opening}
      (extension : String)
      (earlier : History set calls) :
      History (set.withExtension extension) calls
  | call
      {disk : Disk}
      {called : Call}
      {set final : FileSet}
      {result : Except LoadError Unit}
      {calls others : List Opening}
      (earlier : History set calls)
      (reads : CallReads disk called set final result others) :
      History final (calls ++ others)

section Existence

variable {disk : Disk} {set final : FileSet} {result : Except LoadError Unit}
variable {calls : List Opening}

theorem Runs.exists_reads {task : Task} (run : Runs disk task set final result) :
    ∃ calls, Reads disk task set final result calls := by
  induction run with
  | done importer set =>
      exact ⟨_, .done importer set⟩
  | unopened later fails =>
      exact ⟨_, .unopened later fails⟩
  | known passed rest ih =>
      rcases ih with ⟨calls, hrest⟩
      exact ⟨_, .known passed hrest⟩
  | failed later opened inner ih =>
      rcases ih with ⟨calls, hinner⟩
      exact ⟨_, .failed later opened hinner⟩
  | added opened inner rest ihFile ihLater =>
      rcases ihFile with ⟨calls, hinner⟩
      rcases ihLater with ⟨others, hrest⟩
      exact ⟨_, .added opened hinner hrest⟩
  | stopped inner ih =>
      rcases ih with ⟨calls, hinner⟩
      exact ⟨_, .stopped hinner⟩
  | refused inner refuses ih =>
      rcases ih with ⟨calls, hinner⟩
      exact ⟨_, .refused hinner refuses⟩
  | registered inner accepts ih =>
      rcases ih with ⟨calls, hinner⟩
      exact ⟨_, .registered hinner accepts⟩

theorem Reads.runs {task : Task} (reads : Reads disk task set final result calls) :
    Runs disk task set final result := by
  induction reads with
  | done importer set =>
      exact .done importer set
  | unopened later fails =>
      exact .unopened later fails
  | known passed rest ih =>
      exact .known passed ih
  | failed later opened inner ih =>
      exact .failed later opened ih
  | added opened inner rest ihFile ihLater =>
      exact .added opened ihFile ihLater
  | stopped inner ih =>
      exact .stopped ih
  | refused inner refuses ih =>
      exact .refused ih refuses
  | registered inner accepts ih =>
      exact .registered ih accepts

theorem Loading.exists_reads {path : String} (loading : Loading disk set path final result) :
    ∃ calls, LoadReads disk set path final result calls := by
  cases loading with
  | unopened fails =>
      exact ⟨_, .unopened fails⟩
  | known passed =>
      exact ⟨_, .known passed⟩
  | mixed opened refuses =>
      exact ⟨_, .mixed opened refuses⟩
  | added opened accepts inner =>
      rcases inner.exists_reads with ⟨calls, hinner⟩
      exact ⟨_, .added opened accepts hinner⟩

theorem LoadReads.load_eq {path : String} (reads : LoadReads disk set path final result calls) :
    set.load disk path = (final, result) := by
  cases reads with
  | unopened fails =>
      exact Loading.load_eq (.unopened fails)
  | known passed =>
      exact Loading.load_eq (.known passed)
  | mixed opened refuses =>
      exact Loading.load_eq (.mixed opened refuses)
  | added opened accepts inner =>
      exact Loading.load_eq (.added opened accepts inner.runs)

/-- Every call has a run. -/
theorem Call.exists_reads (call : Call) (set : FileSet) (disk : Disk) :
    ∃ calls, CallReads disk call set (call.run set disk).1 (call.run set disk).2 calls := by
  cases call with
  | load path =>
      rcases (load_loading disk set path).exists_reads with ⟨calls, hreads⟩
      exact ⟨calls, .load hreads⟩
  | loadAll paths =>
      simp only [Call.run]
      induction paths generalizing set with
      | nil =>
          exact ⟨[], .none set⟩
      | cons path later ih =>
          rcases (load_loading disk set path).exists_reads with ⟨calls, hreads⟩
          rw [FileSet.loadAll]
          cases hload : set.load disk path with
          | mk after result =>
              rw [hload] at hreads
              cases result with
              | error error =>
                  exact ⟨calls, .stopped later hreads⟩
              | ok value =>
                  rcases ih after with ⟨others, hrest⟩
                  exact ⟨calls ++ others, .more hreads hrest⟩

/-- A call ends as its run does. -/
theorem CallReads.run_eq {call : Call} (reads : CallReads disk call set final result calls) :
    call.run set disk = (final, result) := by
  induction reads with
  | load reads =>
      exact reads.load_eq
  | none set =>
      rfl
  | stopped later reads =>
      simp only [Call.run, loadAll, reads.load_eq]
  | more reads rest ih =>
      simp only [Call.run, loadAll, reads.load_eq]
      exact ih

/-- Every set that comes about has a history. -/
theorem exists_history_of_reachable (reachable : Reachable set) :
    ∃ calls, History set calls := by
  induction reachable with
  | refl =>
      exact ⟨[], .start⟩
  | tail _ step ih =>
      rcases ih with ⟨calls, hhistory⟩
      cases step with
      | withExtension extension =>
          exact ⟨calls, .withExtension extension hhistory⟩
      | load disk path =>
          rcases Call.exists_reads (.load path) _ disk with ⟨others, hreads⟩
          exact ⟨calls ++ others, .call hhistory hreads⟩
      | loadAll disk paths =>
          rcases Call.exists_reads (.loadAll paths) _ disk with ⟨others, hreads⟩
          exact ⟨calls ++ others, .call hhistory hreads⟩

end Existence

/-! ## How many calls there are -/

/-- The places that are marked meanwhile come first in the list, and each call uses up one of the
places of the disk that were not marked. -/
structure Spends (disk : Disk) (before after : FileSet) (calls : List Opening) : Prop where
  loaded : before.loaded <:+ after.loaded
  length_le : calls.length + disk.unopened after.loaded ≤ disk.unopened before.loaded

namespace Spends

variable {disk : Disk} {before middle after : FileSet} {calls others : List Opening}

/-- Nothing is spent while no place is marked. -/
theorem of_loaded_eq (same : after.loaded = before.loaded) : Spends disk before after [] := by
  refine ⟨⟨[], same.symm⟩, ?_⟩
  rw [same, List.length_nil, Nat.zero_add]

theorem trans
    (spends : Spends disk before middle calls)
    (further : Spends disk middle after others) :
    Spends disk before after (calls ++ others) := by
  refine ⟨spends.loaded.trans further.loaded, ?_⟩
  have hfirst := spends.length_le
  have hsecond := further.length_le
  rw [List.length_append]
  omega

theorem openFile
    {path : String}
    {result : Except LoadError (Option SourceFile)}
    (opened : before.openFile disk path = (after, result)) :
    Spends disk before after (before.openings disk path) := by
  unfold openings
  rcases opening?_cases opened with
    ⟨hnone, rfl, _⟩ | ⟨opening, place, hopening, rfl, hplace, hnew, rfl, _⟩
  · rw [hnone]
    exact .of_loaded_eq rfl
  · rw [hopening]
    refine ⟨List.suffix_cons _ _, ?_⟩
    have hfewer := opening.disk.unopened_cons_lt (Disk.mem_places_of_locate hplace) hnew
    rw [Option.toList_some, List.length_singleton]
    dsimp only
    omega

theorem register
    {file : SourceFile}
    (spends : Spends disk before middle calls)
    (accepts : middle.register file = .ok after) :
    Spends disk before after calls := by
  have hregister : Spends disk middle after [] := .of_loaded_eq (loaded_of_register accepts)
  have hboth := spends.trans hregister
  rw [List.append_nil] at hboth
  exact hboth

end Spends

section Bounds

variable {disk : Disk} {set final : FileSet} {result : Except LoadError Unit}
variable {calls : List Opening}

theorem Reads.spends {task : Task} (reads : Reads disk task set final result calls) :
    Spends disk set final calls := by
  induction reads with
  | done importer set =>
      exact .of_loaded_eq rfl
  | unopened later fails =>
      exact .openFile fails
  | known passed rest ih =>
      exact (Spends.openFile passed).trans ih
  | failed later opened inner ih =>
      exact (Spends.openFile opened).trans ih
  | added opened inner rest ihFile ihLater =>
      exact ((Spends.openFile opened).trans ihFile).trans ihLater
  | stopped inner ih =>
      exact ih
  | refused inner refuses ih =>
      exact ih
  | registered inner accepts ih =>
      exact ih.register accepts

theorem LoadReads.spends
    {path : String}
    (reads : LoadReads disk set path final result calls) :
    Spends disk set final calls := by
  cases reads with
  | unopened fails =>
      exact .openFile fails
  | known passed =>
      exact .openFile passed
  | mixed opened refuses =>
      exact .openFile opened
  | @added after accepted final file result calls opened accepts inner =>
      have haccepted : Spends disk after accepted [] :=
        .of_loaded_eq (fields_of_accept accepts).2.2
      exact (Spends.openFile opened).trans (haccepted.trans inner.spends)

theorem CallReads.spends {call : Call} (reads : CallReads disk call set final result calls) :
    Spends disk set final calls := by
  induction reads with
  | load reads =>
      exact reads.spends
  | none set =>
      exact .of_loaded_eq rfl
  | stopped later reads =>
      exact reads.spends
  | more reads rest ih =>
      exact reads.spends.trans ih

end Bounds

/-! ## Where files are opened -/

/-- A file was opened at a place. -/
def OpenedAt (calls : List Opening) (file : SourceFile) (place : Place) : Prop :=
  ∃ opening ∈ calls, opening.place = .ok place ∧ opening.result = .ok file

theorem OpenedAt.append
    {calls : List Opening}
    {file : SourceFile}
    {place : Place}
    (openedAt : OpenedAt calls file place)
    (others : List Opening) :
    OpenedAt (calls ++ others) file place := by
  rcases openedAt with ⟨opening, hmember, hopening⟩
  exact ⟨opening, List.mem_append_left others hmember, hopening⟩

/-- The calls of a history are those at the marked places, in the order of marking. Each registered
file was opened at a place of its own, apart from the places of those that are `pending`: opened,
but not registered yet. -/
structure Ledger (calls : List Opening) (set : FileSet) (pending : List Place) : Prop where
  marked : calls.map Opening.place = set.loaded.reverse.map .ok
  distinct : set.loaded.Nodup
  files :
    ∃ places,
      List.Forall₂ (OpenedAt calls) set.files places ∧
        (pending ++ places).Nodup ∧ pending ++ places ⊆ set.loaded

namespace Ledger

variable {calls : List Opening} {set after : FileSet} {pending : List Place}

theorem empty : Ledger [] FileSet.empty [] :=
  ⟨rfl, List.nodup_nil, [], .nil, List.nodup_nil, List.Subset.refl _⟩

/-- Only the files and the marked places of a set matter. -/
theorem of_eq
    (files_eq : after.files = set.files)
    (loaded_eq : after.loaded = set.loaded)
    (ledger : Ledger calls set pending) :
    Ledger calls after pending := by
  constructor
  · rw [loaded_eq]
    exact ledger.marked
  · rw [loaded_eq]
    exact ledger.distinct
  · rw [files_eq, loaded_eq]
    exact ledger.files

/-- A file that fails is not registered later. -/
theorem drop
    {place : Place}
    (ledger : Ledger calls set (place :: pending)) :
    Ledger calls set pending := by
  rcases ledger.files with ⟨places, hopened, hdistinct, hinside⟩
  exact
    ⟨ledger.marked, ledger.distinct, places, hopened, (List.nodup_cons.1 hdistinct).2,
      List.subset_of_cons_subset hinside⟩

/-- A file that is opened is pending. -/
theorem push
    {opening : Opening}
    {place : Place}
    (located : opening.place = .ok place)
    (new : place ∉ set.loaded)
    (ledger : Ledger calls set pending) :
    Ledger (calls ++ [opening]) { set with loaded := place :: set.loaded } (place :: pending) := by
  rcases ledger.files with ⟨places, hopened, hdistinct, hinside⟩
  refine ⟨?_, List.nodup_cons.2 ⟨new, ledger.distinct⟩, places, ?_, ?_, ?_⟩
  · simp [ledger.marked, located]
  · exact hopened.imp fun _ _ hfile => hfile.append _
  · exact List.nodup_cons.2 ⟨fun hmember => new (hinside hmember), hdistinct⟩
  · exact List.cons_subset_cons place hinside

/-- A pending file may be registered. -/
theorem register
    {file : SourceFile}
    {place : Place}
    (openedAt : OpenedAt calls file place)
    (accepts : set.register file = .ok after)
    (ledger : Ledger calls set (place :: pending)) :
    Ledger calls after pending := by
  rw [(register_eq_ok_iff.1 accepts).2]
  rcases ledger.files with ⟨places, hopened, hdistinct, hinside⟩
  have hperm : (place :: pending ++ places).Perm (pending ++ (places ++ [place])) := by
    rw [← List.append_assoc]
    exact (List.perm_append_singleton place (pending ++ places)).symm
  refine ⟨ledger.marked, ledger.distinct, places ++ [place], ?_, ?_, ?_⟩
  · exact List.rel_append hopened (.cons openedAt .nil)
  · exact hperm.nodup_iff.1 hdistinct
  · exact fun other hmember => hinside (hperm.mem_iff.2 hmember)

theorem openFile_failed
    {disk : Disk}
    {path : String}
    {result : Except LoadError (Option SourceFile)}
    (opened : set.openFile disk path = (after, result))
    (ledger : Ledger calls set pending) :
    Ledger (calls ++ set.openings disk path) after pending := by
  unfold openings
  rcases opening?_cases opened with
    ⟨hnone, rfl, _⟩ | ⟨opening, place, hopening, _, hplace, hnew, rfl, _⟩
  · rw [hnone, Option.toList_none, List.append_nil]
    exact ledger
  · rw [hopening]
    exact (ledger.push hplace hnew).drop

theorem openFile_opened
    {disk : Disk}
    {path : String}
    {file : SourceFile}
    (opened : set.openFile disk path = (after, .ok (some file)))
    (ledger : Ledger calls set pending) :
    ∃ place,
      OpenedAt (calls ++ set.openings disk path) file place ∧
        Ledger (calls ++ set.openings disk path) after (place :: pending) := by
  unfold openings
  rcases opening?_cases opened with
    ⟨_, _, hother⟩ | ⟨opening, place, hopening, _, hplace, hnew, rfl, hresult⟩
  · exact absurd rfl (hother file)
  · rw [hopening]
    refine ⟨place, ⟨opening, by simp, hplace, ?_⟩, ledger.push hplace hnew⟩
    cases hread : opening.result with
    | error error =>
        rw [hread] at hresult
        cases hresult
    | ok other =>
        rw [hread] at hresult
        cases hresult
        rfl

end Ledger

/-- What is pending before a task: its own file, and what is pending after it. -/
def Task.Pends (calls : List Opening) (pending later : List Place) : Task → Prop
  | .imports _ _ => pending = later
  | .file opened => ∃ place, pending = place :: later ∧ OpenedAt calls opened place

section Ledgers

variable {disk : Disk} {set final : FileSet} {result : Except LoadError Unit}
variable {earlier calls : List Opening}

/-- A run keeps the ledger. -/
theorem Reads.ledger
    {task : Task}
    (reads : Reads disk task set final result calls)
    {pending later : List Place}
    (pends : task.Pends earlier pending later)
    (ledger : Ledger earlier set pending) :
    Ledger (earlier ++ calls) final later := by
  induction reads generalizing earlier pending later with
  | done importer set =>
      cases pends
      rw [List.append_nil]
      exact ledger
  | unopened later fails =>
      cases pends
      exact ledger.openFile_failed fails
  | known passed rest ih =>
      cases pends
      rw [← List.append_assoc]
      exact ih rfl (ledger.openFile_failed passed)
  | failed later opened inner ih =>
      cases pends
      rcases ledger.openFile_opened opened with ⟨place, hopened, hledger⟩
      rw [← List.append_assoc]
      exact ih ⟨place, rfl, hopened⟩ hledger
  | added opened inner rest ihFile ihLater =>
      cases pends
      rcases ledger.openFile_opened opened with ⟨place, hopened, hledger⟩
      have hmiddle := ihFile ⟨place, rfl, hopened⟩ hledger
      rw [List.append_assoc] at hmiddle
      rw [← List.append_assoc]
      exact ihLater rfl hmiddle
  | stopped inner ih =>
      rcases pends with ⟨place, rfl, _⟩
      exact (ih rfl ledger).drop
  | refused inner refuses ih =>
      rcases pends with ⟨place, rfl, _⟩
      exact (ih rfl ledger).drop
  | registered inner accepts ih =>
      rcases pends with ⟨place, rfl, hopened⟩
      exact (ih rfl ledger).register (hopened.append _) accepts

theorem LoadReads.ledger
    {path : String}
    (reads : LoadReads disk set path final result calls)
    (ledger : Ledger earlier set []) :
    Ledger (earlier ++ calls) final [] := by
  cases reads with
  | unopened fails =>
      exact ledger.openFile_failed fails
  | known passed =>
      exact ledger.openFile_failed passed
  | mixed opened refuses =>
      exact ledger.openFile_failed opened
  | added opened accepts inner =>
      rcases ledger.openFile_opened opened with ⟨place, hopened, hledger⟩
      rcases fields_of_accept accepts with ⟨_, hfiles, hloaded⟩
      rw [← List.append_assoc]
      exact inner.ledger ⟨place, rfl, hopened⟩ (hledger.of_eq hfiles hloaded)

theorem CallReads.ledger
    {call : Call}
    (reads : CallReads disk call set final result calls)
    (ledger : Ledger earlier set []) :
    Ledger (earlier ++ calls) final [] := by
  induction reads generalizing earlier with
  | load reads =>
      exact reads.ledger ledger
  | none set =>
      rw [List.append_nil]
      exact ledger
  | stopped later reads =>
      exact reads.ledger ledger
  | more reads rest ih =>
      rw [← List.append_assoc]
      exact ih (reads.ledger ledger)

/-- Every history keeps the ledger. -/
theorem History.ledger (history : History set calls) : Ledger calls set [] := by
  induction history with
  | start =>
      exact .empty
  | withExtension extension earlier ih =>
      exact ⟨ih.marked, ih.distinct, ih.files⟩
  | call earlier reads ih =>
      exact reads.ledger ih

end Ledgers

/-! ## Sets that come about -/

/-- However a set came about, no two calls of `SourceFile.openAt` were made at one place, the places
are the marked ones, and each file of the set was opened at its own. Every call that loads files
ends after no more of these calls than there are places that were not marked, and unmarks no place.
A load of a marked place changes nothing. -/
structure OpensOnce (set : FileSet) : Prop where
  recorded : ∃ calls, History set calls
  distinct : ∀ calls, History set calls → (calls.map Opening.place).Nodup
  marked : ∀ calls, History set calls → calls.map Opening.place = set.loaded.reverse.map .ok
  files :
    ∀ calls, History set calls →
      ∃ places,
        List.Forall₂ (OpenedAt calls) set.files places ∧
          places.Nodup ∧ places ⊆ set.loaded
  ends :
    ∀ disk call,
      ∃ final result calls,
        CallReads disk call set final result calls ∧
          call.run set disk = (final, result) ∧
          calls.length ≤ disk.unopened set.loaded ∧
          set.loaded <:+ final.loaded
  known :
    ∀ disk path found place,
      resolve disk set.extension path = .ok found →
        disk.locate found = .ok place →
          place ∈ set.loaded → set.load disk path = (set, .ok ())

theorem opensOnce_of_reachable
    {set : FileSet}
    (reachable : Reachable set) :
    set.OpensOnce := by
  constructor
  · exact exists_history_of_reachable reachable
  · intro calls hhistory
    have hledger := hhistory.ledger
    have hinjective : Function.Injective (Except.ok : Place → Except DiskFault Place) := by
      intro first second hsame
      cases hsame
      rfl
    rw [hledger.marked]
    exact (List.nodup_reverse.2 hledger.distinct).map hinjective
  · exact fun calls hhistory => hhistory.ledger.marked
  · exact fun calls hhistory => hhistory.ledger.files
  · intro disk call
    rcases Call.exists_reads call set disk with ⟨calls, hreads⟩
    have hspends := hreads.spends
    exact
      ⟨_, _, calls, hreads, rfl, Nat.le_trans (Nat.le_add_right _ _) hspends.length_le,
        hspends.loaded⟩
  · intro disk path found place hresolved hlocated hmarked
    exact Loading.load_eq (.known (openFile_of_mem hresolved hlocated hmarked))

theorem opensOnce_cycle :
    ∃ set,
      empty.load Cycle.disk "a.yarp" = (set, .ok ()) ∧ Reachable set ∧ set.OpensOnce := by
  rcases Cycle.exists_load with ⟨set, hload⟩
  have hreachable : Reachable set := by
    have hstep := Step.load empty Cycle.disk "a.yarp"
    rw [hload] at hstep
    exact Relation.ReflTransGen.single hstep
  exact ⟨set, hload, hreachable, opensOnce_of_reachable hreachable⟩

end FileSet
end InterfaceSchema
