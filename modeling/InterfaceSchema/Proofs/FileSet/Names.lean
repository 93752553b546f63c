import InterfaceSchema.Proofs.FileSet.Call
import InterfaceSchema.Proofs.FileSet.Preserved

/-!
# Names of declarations in a set

A schema has one table for the names of its messages and services. A file set has two: qualified
names of messages, and names of services. So the names are kept apart within a file, and for each
kind within a set, but not for both kinds.

* `FileSet.distinct_of_loadAll`: the declarations of each file of a set are distinct.
* `FileSet.ref_eq_of_name`: two declarations of the set's own package that share their name are a
  message and a service of two files.
* `FileSet.not_ref_eq_of_name`: such two are accepted, although they are refused in one file.
-/

namespace InterfaceSchema

/-- One of two declarations is a message, and the other is a service. -/
def Declaration.Crosses : Declaration → Declaration → Prop
  | message _, service _ => True
  | service _, message _ => True
  | _, _ => False

/-- Distinct names belong to distinct numbers. -/
theorem number_eq_of_name
    {declarations : List Declaration}
    (distinct : (declaredNames declarations).Nodup)
    {name : String}
    {number other : Nat}
    {declaration repeated : Declaration}
    (found : declarations[number]? = some declaration)
    (foundToo : declarations[other]? = some repeated)
    (named : declaration.name? = some name)
    (namedToo : repeated.name? = some name) :
    number = other := by
  rw [declaredNames, List.Nodup, List.pairwise_filterMap, List.pairwise_iff_getElem] at distinct
  rcases List.getElem?_eq_some_iff.1 found with ⟨hbound, rfl⟩
  rcases List.getElem?_eq_some_iff.1 foundToo with ⟨hboundToo, rfl⟩
  rcases Nat.lt_trichotomy number other with hbefore | hsame | hbehind
  · exact absurd rfl (distinct number other hbound hboundToo hbefore name named name namedToo)
  · exact hsame
  · exact absurd rfl (distinct other number hboundToo hbound hbehind name namedToo name named)

namespace FileSet

/-! ## Files of a set -/

/-- The declarations of each file are distinct. -/
def HoldsDistinct (set : FileSet) : Prop :=
  ∀ file ∈ set.files, Schema.Distinct file.schema.declarations

/-- Loads keep the declarations of each file distinct. -/
theorem distinct_of_loadAll
    {disk : Disk}
    {set final : FileSet}
    {paths : List String}
    (loads : set.loadAll disk paths = (final, .ok ()))
    (holds : set.HoldsDistinct) :
    final.HoldsDistinct := by
  have hpreserved : Preserved HoldsDistinct :=
    .of_files fun disk file hopened => hopened.distinct
  have hkept : (set.loadAll disk paths).1.HoldsDistinct := hpreserved.loadAll paths holds
  rw [loads] at hkept
  exact hkept

/-! ## Declarations of one name -/

/-- Declarations of one name in one file are the same. -/
theorem HoldsDistinct.ref_eq
    {set : FileSet}
    (holds : set.HoldsDistinct)
    {name : String}
    {first second : DeclarationRef}
    {file other : SourceFile}
    {declaration repeated : Declaration}
    (refers : set.Refers first file declaration)
    (also : set.Refers second other repeated)
    (named : declaration.name? = some name)
    (namedToo : repeated.name? = some name)
    (same : first.file = second.file) :
    first = second := by
  cases first with
  | mk number place =>
      cases second with
      | mk _ placeToo =>
          cases same
          cases refers.1.symm.trans also.1
          have hnames := (holds file (List.mem_of_getElem? refers.1)).names
          cases number_eq_of_name hnames refers.2 also.2 named namedToo
          rfl

section Shared

variable {set : FileSet} {first second : DeclarationRef} {file other : SourceFile}
variable (consistent : set.Consistent)

include consistent

/-- Messages of one name in the set's own package are the same. -/
theorem Consistent.ref_eq_of_message
    {message repeated : Message}
    (refers : set.Refers first file (.message message))
    (also : set.Refers second other (.message repeated))
    (owned : set.owns file = true)
    (ownedToo : set.owns other = true)
    (same : message.name = repeated.name) :
    first = second := by
  have hpackages : file.package = other.package := by
    unfold owns at owned ownedToo
    rw [decide_eq_true_eq] at owned ownedToo
    exact Option.some.inj (owned.symm.trans ownedToo)
  have hfound := (consistent.index_lookup _ first).2 ⟨file, message, refers, rfl⟩
  have hfoundToo :=
    (consistent.index_lookup (QualifiedName.join file.package message.name) second).2
      ⟨other, repeated, also, by rw [hpackages, same]⟩
  exact Option.some.inj (hfound.symm.trans hfoundToo)

/-- Services of one name in the set's own package are the same. -/
theorem Consistent.ref_eq_of_service
    {service repeated : Service}
    (refers : set.Refers first file (.service service))
    (also : set.Refers second other (.service repeated))
    (owned : set.owns file = true)
    (ownedToo : set.owns other = true)
    (same : service.name = repeated.name) :
    first = second := by
  have hfound :=
    (consistent.knownServices_lookup _ first).2 ⟨file, service, refers, owned, rfl⟩
  have hfoundToo :=
    (consistent.knownServices_lookup _ second).2 ⟨other, repeated, also, ownedToo, same⟩
  exact Option.some.inj (hfound.symm.trans hfoundToo)

end Shared

/-- In a set that has been loaded, two declarations of the set's own package have different names,
unless one is a message and the other a service, in two files. -/
theorem ref_eq_of_name
    {disk : Disk}
    {paths : List String}
    {set : FileSet}
    (loads : ofPaths disk paths = .ok set)
    {name : String}
    {first second : DeclarationRef}
    {file other : SourceFile}
    {declaration repeated : Declaration}
    (refers : set.Refers first file declaration)
    (also : set.Refers second other repeated)
    (owned : set.owns file = true)
    (ownedToo : set.owns other = true)
    (named : declaration.name? = some name)
    (namedToo : repeated.name? = some name) :
    first = second ∨ first.file ≠ second.file ∧ declaration.Crosses repeated := by
  have hloads := ofPaths_eq_ok_iff.1 loads
  have hconsistent := (loadAll_consistent disk paths Consistent.empty).1
  rw [hloads] at hconsistent
  have hdistinct : set.HoldsDistinct := by
    refine distinct_of_loadAll hloads ?_
    intro file hmember
    cases hmember
  have hwithin : first.file = second.file → first = second :=
    hdistinct.ref_eq refers also named namedToo
  cases declaration with
  | package clause =>
      cases named
  | importing statement =>
      cases named
  | message message =>
      cases repeated with
      | package clause =>
          cases namedToo
      | importing statement =>
          cases namedToo
      | message again =>
          exact
            Or.inl
              (hconsistent.ref_eq_of_message refers also owned ownedToo
                (Option.some.inj (named.trans namedToo.symm)))
      | service again =>
          by_cases hsame : first.file = second.file
          · exact Or.inl (hwithin hsame)
          · exact Or.inr ⟨hsame, trivial⟩
  | service service =>
      cases repeated with
      | package clause =>
          cases namedToo
      | importing statement =>
          cases namedToo
      | message again =>
          by_cases hsame : first.file = second.file
          · exact Or.inl (hwithin hsame)
          · exact Or.inr ⟨hsame, trivial⟩
      | service again =>
          exact
            Or.inl
              (hconsistent.ref_eq_of_service refers also owned ownedToo
                (Option.some.inj (named.trans namedToo.symm)))

/-! ## A message and a service of one name -/

/-- A message and a service of one name, in two files of one package. -/
def crossedDisk : Disk :=
  Pair.disk "package p;message X\x7b\x7d" "package p;service X\x7b\x7d"

namespace Crossed

/-- A file of the package imports nothing and declares no more than the listed names. -/
structure Declares (file : SourceFile) (messages services : List String) : Prop where
  package_eq : file.package = "p"
  imports_eq : file.schema.imports = []
  messages_eq : file.schema.messages.map Message.name = messages
  services_eq : file.schema.services.map Service.name = services

theorem exists_declares
    {path : String}
    {place : Place}
    (text : String)
    (messages services : List String)
    (located : crossedDisk.locate path = .ok place)
    (content : crossedDisk.content? place = some text.toUTF8)
    (reads :
      ((Schema.ofText text.toList).toOption.map fun schema =>
        (schema.package, schema.imports, schema.messages.map Message.name,
          schema.services.map Service.name)) =
        some ("p", [], messages, services)) :
    ∃ file, SourceFile.openAt crossedDisk path = .ok file ∧ Declares file messages services := by
  cases hparsed : Schema.ofText text.toList with
  | error failure =>
      rw [hparsed] at reads
      cases reads
  | ok schema =>
      rw [hparsed] at reads
      rcases Prod.mk.inj (Option.some.inj reads) with ⟨hpackage, hrest⟩
      rcases Prod.mk.inj hrest with ⟨himports, hnames⟩
      rcases Prod.mk.inj hnames with ⟨hmessages, hservices⟩
      rcases
        SourceFile.exists_openAt_of_schemaAt located
          (Disk.schemaAt?_of_text content hparsed) with
        ⟨file, hopened, _, rfl⟩
      exact ⟨file, hopened, hpackage, himports, hmessages, hservices⟩

namespace Declares

variable {set : FileSet} {file : SourceFile} {messages services : List String}

theorem no_message
    (declares : Declares file [] services)
    {message : Message} :
    .message message ∉ file.schema.declarations := by
  intro hmember
  have hlisted := List.mem_map_of_mem (f := Message.name) (Schema.mem_messages.2 hmember)
  rw [declares.messages_eq] at hlisted
  cases hlisted

theorem no_service
    (declares : Declares file messages [])
    {service : Service} :
    .service service ∉ file.schema.declarations := by
  intro hmember
  have hlisted := List.mem_map_of_mem (f := Service.name) (Schema.mem_services.2 hmember)
  rw [declares.services_eq] at hlisted
  cases hlisted

/-- The first messages of a set are accepted. -/
theorem register_messages
    (declares : Declares file messages [])
    (index_eq : set.index = []) :
    set.register file = .ok (set.append file) := by
  refine register_eq_ok_iff.2 ⟨?_, rfl⟩
  rw [List.findSome?_eq_none_iff]
  intro declaration hmember
  cases declaration with
  | package clause =>
      rfl
  | importing statement =>
      rfl
  | message message =>
      simp [clash?, index_eq]
  | service service =>
      exact absurd hmember declares.no_service

/-- The first services of a set are accepted, whatever its messages are. -/
theorem register_services
    (declares : Declares file [] services)
    (services_eq : set.knownServices = []) :
    set.register file = .ok (set.append file) := by
  refine register_eq_ok_iff.2 ⟨?_, rfl⟩
  rw [List.findSome?_eq_none_iff]
  intro declaration hmember
  cases declaration with
  | package clause =>
      rfl
  | importing statement =>
      rfl
  | message message =>
      exact absurd hmember declares.no_message
  | service service =>
      simp [clash?, services_eq]

/-- Messages are no known services. -/
theorem knownServices_append
    (declares : Declares file messages []) :
    (set.append file).knownServices = set.knownServices := by
  have hreferences : set.serviceReferences file = [] := by
    rw [List.eq_nil_iff_forall_not_mem]
    rintro ⟨name, ref⟩ hmember
    rcases mem_serviceReferences.1 hmember with ⟨_, service, hdeclared, _⟩
    exact declares.no_service (List.mem_of_getElem? hdeclared)
  unfold append
  simp [hreferences]

end Declares

/-- The two files make a set. -/
theorem exists_ofPaths :
    ∃ set a b,
      ofPaths crossedDisk ["a.yarp", "b.yarp"] = .ok set ∧
        set.package = some "p" ∧ set.files = [a, b] ∧
        Declares a ["X"] [] ∧ Declares b [] ["X"] := by
  have hfirst : crossedDisk.locate "a.yarp" = .ok ["a.yarp"] := Pair.locate_first _ _
  have hsecond : crossedDisk.locate "b.yarp" = .ok ["b.yarp"] := Pair.locate_second _ _
  rcases
    exists_declares "package p;message X\x7b\x7d" ["X"] [] hfirst rfl
      (by decide +kernel) with
    ⟨a, ha, hmessages⟩
  rcases
    exists_declares "package p;service X\x7b\x7d" [] ["X"] hsecond rfl
      (by decide +kernel) with
    ⟨b, hb, hservices⟩
  have hopened :
      ∀ set : FileSet, set.loaded = [["a.yarp"]] →
        set.openFile crossedDisk "b.yarp" =
          ({ set with loaded := ["b.yarp"] :: set.loaded }, .ok (some b)) :=
    fun set hloaded => openFile_of_located hsecond rfl (by rw [hloaded]; decide) hb
  have haccepted :
      ∀ set : FileSet, set.package = some a.package → set.accept b = .ok set := by
    intro set hpackage
    unfold accept
    rw [hpackage]
    exact if_pos (by rw [hmessages.package_eq, hservices.package_eq])
  have hrun : ∀ set : FileSet, set.index = [] →
      Runs crossedDisk (.file a) set (set.append a) (.ok ()) := by
    intro set hindex
    refine .registered ?_ (hmessages.register_messages hindex)
    rw [hmessages.imports_eq]
    exact .done a set
  have hrunToo : ∀ set : FileSet, set.knownServices = [] →
      Runs crossedDisk (.file b) set (set.append b) (.ok ()) := by
    intro set hnone
    refine .registered ?_ (hservices.register_services hnone)
    rw [hservices.imports_eq]
    exact .done b set
  have hload :
      empty.load crossedDisk "a.yarp" =
        ({ empty with package := some a.package, loaded := [["a.yarp"]] }.append a, .ok ()) :=
    Loading.load_eq (.added (Pair.open_first ha) rfl (hrun _ rfl))
  have hloadToo :
      ∀ set : FileSet, set.loaded = [["a.yarp"]] → set.package = some a.package →
        set.knownServices = [] →
          set.load crossedDisk "b.yarp" =
            ({ set with loaded := ["b.yarp"] :: set.loaded }.append b, .ok ()) :=
    fun set hloaded hpackage hnone =>
      Loading.load_eq (.added (hopened set hloaded) (haccepted _ hpackage) (hrunToo _ hnone))
  have hloads :
      ofPaths crossedDisk ["a.yarp", "b.yarp"] =
        .ok
          ({ { empty with package := some a.package, loaded := [["a.yarp"]] }.append a with
            loaded := [["b.yarp"], ["a.yarp"]] }.append b) := by
    rw [ofPaths_eq_ok_iff, loadAll, hload]
    dsimp only
    rw [loadAll, hloadToo _ rfl rfl hmessages.knownServices_append]
    rfl
  exact ⟨_, a, b, hloads, congrArg some hmessages.package_eq, rfl, hmessages, hservices⟩

/-- The set holds the message and the service. -/
theorem exists_refers :
    ∃ set first second file other message service,
      ofPaths crossedDisk ["a.yarp", "b.yarp"] = .ok set ∧
        set.Refers first file (.message message) ∧
        set.Refers second other (.service service) ∧
        set.owns file = true ∧
        set.owns other = true ∧
        message.name = "X" ∧
        service.name = "X" := by
  rcases exists_ofPaths with ⟨set, a, b, hset, hpackage, hfiles, hmessages, hservices⟩
  have howns : ∀ file : SourceFile, file.package = "p" → set.owns file = true :=
    fun file => (owns_iff hpackage file).2
  have ha : a ∈ set.files := by
    rw [hfiles]
    exact List.mem_cons_self
  have hb : b ∈ set.files := by
    rw [hfiles]
    exact List.mem_cons_of_mem a List.mem_cons_self
  have hmessage : "X" ∈ a.schema.messages.map Message.name := by
    rw [hmessages.messages_eq]
    exact List.mem_cons_self
  have hservice : "X" ∈ b.schema.services.map Service.name := by
    rw [hservices.services_eq]
    exact List.mem_cons_self
  rcases List.mem_map.1 hmessage with ⟨message, hlisted, hname⟩
  rcases List.mem_map.1 hservice with ⟨service, hlistedToo, hnameToo⟩
  rcases exists_refers_of_mem ha (Schema.mem_messages.1 hlisted) with ⟨first, hrefers⟩
  rcases exists_refers_of_mem hb (Schema.mem_services.1 hlistedToo) with ⟨second, hrefersToo⟩
  exact
    ⟨set, first, second, a, b, message, service, hset, hrefers, hrefersToo,
      howns a hmessages.package_eq, howns b hservices.package_eq, hname, hnameToo⟩

end Crossed

/-- A message and a service of one name are accepted in two files of a package, and refused in one
file. -/
theorem not_ref_eq_of_name :
    (∃ set first second file other message service,
      ofPaths crossedDisk ["a.yarp", "b.yarp"] = .ok set ∧
        set.Refers first file (.message message) ∧
        set.Refers second other (.service service) ∧
        set.owns file = true ∧
        set.owns other = true ∧
        message.name = "X" ∧
        service.name = "X" ∧
        first ≠ second) ∧
      Schema.parse "c.yarp" "package p;message X\x7b\x7dservice X\x7b\x7d" =
        .error ⟨"c.yarp", .duplicateName "X" ⟨10, 21⟩, ⟨29, 30⟩, ⟨1, 30⟩⟩ := by
  refine ⟨?_, by decide +kernel⟩
  rcases Crossed.exists_refers with
    ⟨set, first, second, file, other, message, service, hset, hrefers, hrefersToo, howned,
      hownedToo, hname, hnameToo⟩
  refine
    ⟨set, first, second, file, other, message, service, hset, hrefers, hrefersToo, howned,
      hownedToo, hname, hnameToo, ?_⟩
  rintro rfl
  have hsame := hrefers.declaration?_eq.symm.trans hrefersToo.declaration?_eq
  cases hsame

theorem ref_eq_of_name_crossedDisk :
    ∃ set first second file other declaration repeated,
      ofPaths crossedDisk ["a.yarp", "b.yarp"] = .ok set ∧
        set.Refers first file declaration ∧
        set.Refers second other repeated ∧
        set.owns file = true ∧
        set.owns other = true ∧
        declaration.name? = some "X" ∧
        repeated.name? = some "X" ∧
        (first = second ∨ first.file ≠ second.file ∧ declaration.Crosses repeated) := by
  rcases Crossed.exists_refers with
    ⟨set, first, second, file, other, message, service, hset, hrefers, hrefersToo, howned,
      hownedToo, hname, hnameToo⟩
  have hnamed : (Declaration.message message).name? = some "X" := congrArg some hname
  have hnamedToo : (Declaration.service service).name? = some "X" := congrArg some hnameToo
  exact
    ⟨set, first, second, file, other, .message message, .service service, hset, hrefers,
      hrefersToo, howned, hownedToo, hnamed, hnamedToo,
      ref_eq_of_name hset hrefers hrefersToo howned hownedToo hnamed hnamedToo⟩

end FileSet
end InterfaceSchema
