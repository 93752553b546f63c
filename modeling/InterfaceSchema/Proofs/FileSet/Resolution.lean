import InterfaceSchema.Proofs.FileSet.Names
import InterfaceSchema.Proofs.Locations.Laid

/-!
# Resolution of names

A set files its messages under texts, a package and a name with a dot between them. A package may
hold dots of its own, but a declared name holds none, so each such text stands for one pair.

* `dot_not_mem_of_scan`, `Schema.dotless_of_ofText`: declared names hold no dots.
* `FileSet.listsOwn_of_reachable`: the list of a set's own messages holds those of its package.
* `FileSet.ResolvesExactly`, `FileSet.resolvesExactly_of_reachable`: to which declaration a name
  leads.
-/

namespace InterfaceSchema

/-! ## Names without dots -/

/-- No identifier of a text holds a dot. -/
theorem dot_not_mem_of_scan
    {text : List Char}
    {lexemes : List Lexeme}
    (scanned : scanText text = .ok lexemes)
    {name : String}
    {place : Location}
    (member : ⟨.ident name, place⟩ ∈ lexemes) :
    '.' ∉ name.toList := by
  have hstands := standsIn_of_scanText scanned member (by simp)
  exact Token.not_mem_of_writable hstands.1 (by decide)

/-- A declaration is spelled with its name. -/
theorem DeclarationPhrase.ident_mem
    {notes : Notes}
    {taken : List Lexeme}
    {declaration : Declaration}
    (spelled : DeclarationPhrase notes taken declaration)
    {name : String}
    (named : declaration.name? = some name) :
    ∃ place, ⟨.ident name, place⟩ ∈ taken := by
  cases spelled with
  | message spelled =>
      cases spelled with
      | mk name' start place opening closing entries =>
          cases named
          exact ⟨place, by simp⟩
  | service spelled =>
      cases spelled with
      | mk name' start place opening closing entries =>
          cases named
          exact ⟨place, by simp⟩

namespace Schema

/-- The declared names hold no dots. -/
def Dotless (schema : Schema) : Prop :=
  ∀ declaration ∈ schema.declarations,
    ∀ name, declaration.name? = some name → '.' ∉ name.toList

theorem dotless_of_ofText
    {text : List Char}
    {schema : Schema}
    (succeeds : ofText text = .ok schema) :
    schema.Dotless := by
  rcases exists_scanText_of_ofText succeeds with ⟨lexemes, hlexemes⟩
  rcases (ofText_eq_ok_iff hlexemes).1 succeeds with ⟨declarations, hspelled, _, rfl⟩
  intro declaration hmember name hnamed
  rw [declarations_ofDeclarations] at hmember
  cases hspelled with
  | mk stop idle packaged imported entries =>
      rcases List.mem_cons.1 hmember with rfl | hlater
      · cases hnamed
      · rcases List.mem_append.1 hlater with himport | hitem
        · rcases List.mem_map.1 himport with ⟨statement, _, rfl⟩
          cases hnamed
        · rcases entries.exists_spelled hitem with ⟨notes, taken, hspelled, hinside⟩
          rcases hspelled.ident_mem hnamed with ⟨place, hident⟩
          refine dot_not_mem_of_scan hlexemes (?_ : (⟨.ident name, place⟩ : Lexeme) ∈ _)
          simp [hinside hident]

end Schema

namespace QualifiedName

theorem isQualified_join (package name : String) : isQualified (join package name) = true := by
  simp [isQualified, join]

/-- A dotted name is its package and its bare name with a dot between them. -/
theorem join_split
    {name : String}
    (dotted : isQualified name = true) :
    join (split name).1 (split name).2 = name := by
  have hmember : '.' ∈ name.toList.reverse := by
    simpa [isQualified] using dotted
  rcases List.eq_append_cons_of_mem hmember with ⟨bare, package, hsplit, hbare⟩
  have hname : name = join (String.ofList package.reverse) (String.ofList bare.reverse) := by
    apply String.toList_inj.1
    rw [← List.reverse_reverse name.toList, hsplit]
    simp [join]
  rw [hname, split_join _ (by simpa using hbare)]

end QualifiedName

namespace FileSet

/-! ## Files of a history -/

/-- The files of every set that comes about declare names without dots. -/
theorem dotless_of_reachable
    {set : FileSet}
    (reachable : Reachable set) :
    ∀ file ∈ set.files, file.schema.Dotless := by
  refine Preserved.of_reachable (Preserved.of_files fun disk file hopened => ?_) reachable
  rcases hopened with ⟨path, hpath⟩
  rcases SourceFile.openAt_eq_ok hpath with ⟨_, _, _, hparsed, _, _⟩
  exact Schema.dotless_of_ofText (mapError_eq_ok_iff.1 hparsed)

/-- The references among a set's own messages are those to messages of its own package. -/
def ListsOwn (set : FileSet) : Prop :=
  ∀ ref,
    ref ∈ set.ownMessages ↔
      ∃ file message, set.Refers ref file (.message message) ∧ set.owns file = true

/-- Registering a file lists its messages if it is of the set's own package. -/
theorem ListsOwn.append
    {set : FileSet}
    (lists : set.ListsOwn)
    (file : SourceFile) :
    (set.append file).ListsOwn := by
  intro ref
  have howns : (set.append file).owns = set.owns := rfl
  have hlist :
      (set.append file).ownMessages =
        set.ownMessages ++
          (if set.owns file then set.messageReferences file else []).map Prod.snd :=
    rfl
  have hnew :
      ref ∈ (if set.owns file then set.messageReferences file else []).map Prod.snd ↔
        set.owns file = true ∧ ∃ name, (name, ref) ∈ set.messageReferences file := by
    by_cases howned : set.owns file = true
    · simp [howned]
    · simp [howned]
  rw [hlist, howns, List.mem_append, lists ref, hnew]
  constructor
  · rintro (⟨owner, message, hrefers, howned⟩ | ⟨howned, name, hreference⟩)
    · exact ⟨owner, message, refers_append.2 (Or.inl hrefers), howned⟩
    · rcases mem_messageReferences.1 hreference with ⟨hfile, message, hdeclared, _⟩
      exact ⟨file, message, refers_append.2 (Or.inr ⟨hfile, rfl, hdeclared⟩), howned⟩
  · rintro ⟨owner, message, hrefers, howned⟩
    rcases refers_append.1 hrefers with hold | ⟨hfile, rfl, hdeclared⟩
    · exact Or.inl ⟨owner, message, hold, howned⟩
    · exact Or.inr ⟨howned, _, mem_messageReferences.2 ⟨hfile, message, hdeclared, rfl⟩⟩

theorem listsOwn_of_reachable
    {set : FileSet}
    (reachable : Reachable set) :
    set.ListsOwn := by
  have hpreserved : Preserved fun set => set.Consistent ∧ set.ListsOwn := by
    constructor
    · refine ⟨Consistent.empty, ?_⟩
      intro ref
      constructor
      · intro hmember
        cases hmember
      · rintro ⟨file, message, hrefers, _⟩
        cases hrefers.1
    · rintro set extension ⟨hconsistent, hlists⟩
      exact ⟨hconsistent.withExtension extension, hlists⟩
    · rintro set place ⟨hconsistent, hlists⟩
      exact ⟨hconsistent.mark place, hlists⟩
    · rintro set file hnone ⟨hconsistent, _⟩
      have hfiles := hconsistent.files_of_noPackage hnone
      have haccepts : set.accept file = .ok { set with package := some file.package } := by
        rw [FileSet.accept, hnone]
      refine ⟨hconsistent.accept haccepts, ?_⟩
      intro ref
      constructor
      · intro hmember
        rcases hconsistent.ownMessages_refer ref hmember with ⟨owner, message, hrefers⟩
        have hfile := hrefers.1
        rw [hfiles] at hfile
        cases hfile
      · rintro ⟨owner, message, hrefers, _⟩
        have hfile : set.files[ref.file]? = some owner := hrefers.1
        rw [hfiles] at hfile
        cases hfile
    · rintro disk set final file hopened hpackage ⟨hconsistent, hlists⟩ hregistered
      refine ⟨hconsistent.register hregistered hopened.distinct.names hpackage, ?_⟩
      rw [(register_eq_ok_iff.1 hregistered).2]
      exact hlists.append file
  exact (hpreserved.of_reachable reachable).2

/-! ## Names that lead to messages -/

/-- A name leads to a message: the table of the set finds a reference to it. -/
def Resolves (set : FileSet) (name : String) (ref : DeclarationRef) (message : Message) : Prop :=
  set.index.lookup (set.qualify name) = some ref ∧
    set.declaration? ref = some (.message message)

/-- A reference leads to a message of a name, in a file of a package. -/
def Declares
    (set : FileSet)
    (ref : DeclarationRef)
    (package bare : String)
    (message : Message) : Prop :=
  ∃ file,
    set.Refers ref file (.message message) ∧ file.package = package ∧ message.name = bare

/-- What a name leads to. A dotted name leads to the only message that its package declares under
its bare name; a name without dots to what it leads to behind the package of the set. -/
structure ResolvesExactly (set : FileSet) (name : String) : Prop where
  found :
    ∀ message, set.findMessage? name = some message ↔ ∃ ref, set.Resolves name ref message
  dotted :
    QualifiedName.isQualified name = true →
      ∀ ref message,
        set.Resolves name ref message ↔
          set.Declares ref (QualifiedName.split name).1 (QualifiedName.split name).2 message
  single :
    ∀ package bare ref other message second,
      set.Declares ref package bare message →
        set.Declares other package bare second → ref = other
  plain :
    QualifiedName.isQualified name = false →
      set.findMessage? name =
        set.package.bind fun package => set.findMessage? (QualifiedName.join package name)
  own :
    set.isOwnMessage name = true ↔
      ∃ ref message, set.Resolves name ref message ∧ ref ∈ set.ownMessages
  listed :
    List.Forall₂ (fun ref message => ∃ file, set.Refers ref file (.message message))
      set.ownMessages set.messages
  pair :
    ∀ ref message,
      set.Resolves name ref message →
        ∃ file,
          set.Refers ref file (.message message) ∧
            QualifiedName.split (set.qualify name) = (file.package, message.name)
  noService :
    ∀ ref file service,
      set.Refers ref file (.service service) →
        set.index.lookup (set.qualify name) ≠ some ref

section Resolution

variable {set : FileSet} {name : String} {ref : DeclarationRef} {message : Message}

theorem findMessage?_eq_some_iff :
    set.findMessage? name = some message ↔ ∃ ref, set.Resolves name ref message := by
  unfold findMessage? Resolves
  constructor
  · intro hfound
    rcases Option.bind_eq_some_iff.1 hfound with ⟨ref, hlookup, hmessage⟩
    rcases Option.bind_eq_some_iff.1 hmessage with ⟨declaration, hdeclared, hview⟩
    cases declaration <;> cases hview
    exact ⟨ref, hlookup, hdeclared⟩
  · rintro ⟨ref, hlookup, hdeclared⟩
    rw [hlookup, Option.bind_some, hdeclared]
    rfl

theorem qualify_of_isQualified (dotted : QualifiedName.isQualified name = true) :
    set.qualify name = name := by
  unfold qualify
  split
  · rw [if_pos dotted]
  · rfl

theorem qualify_of_package
    {package : String}
    (packaged : set.package = some package)
    (plain : QualifiedName.isQualified name = false) :
    set.qualify name = QualifiedName.join package name := by
  unfold qualify
  rw [packaged]
  simp [plain]

theorem split_join_of_refers
    (dotless : ∀ file ∈ set.files, file.schema.Dotless)
    {file : SourceFile}
    (refers : set.Refers ref file (.message message)) :
    QualifiedName.split (QualifiedName.join file.package message.name) =
      (file.package, message.name) :=
  QualifiedName.split_join _
    (dotless file (List.mem_of_getElem? refers.1) _ (List.mem_of_getElem? refers.2) _ rfl)

section Consistent

variable (consistent : set.Consistent)

include consistent

/-- A name leads to a declaration if it is that of its package and its own name. -/
theorem resolves_iff :
    set.Resolves name ref message ↔
      ∃ file,
        set.Refers ref file (.message message) ∧
          set.qualify name = QualifiedName.join file.package message.name := by
  unfold Resolves
  rw [consistent.index_lookup]
  constructor
  · rintro ⟨⟨file, found, hrefers, hname⟩, hdeclared⟩
    rw [hrefers.declaration?_eq] at hdeclared
    cases hdeclared
    exact ⟨file, hrefers, hname⟩
  · rintro ⟨file, hrefers, hname⟩
    exact ⟨⟨file, message, hrefers, hname⟩, hrefers.declaration?_eq⟩

theorem findMessage?_of_noPackage (unpackaged : set.package = none) :
    set.findMessage? name = none := by
  rw [Option.eq_none_iff_forall_ne_some]
  intro message hfound
  rcases findMessage?_eq_some_iff.1 hfound with ⟨ref, hresolves⟩
  rcases (resolves_iff consistent).1 hresolves with ⟨file, hrefers, _⟩
  have hfile := hrefers.1
  rw [consistent.files_of_noPackage unpackaged] at hfile
  cases hfile

theorem findMessage?_of_plain (plain : QualifiedName.isQualified name = false) :
    set.findMessage? name =
      set.package.bind fun package => set.findMessage? (QualifiedName.join package name) := by
  cases hpackage : set.package with
  | none =>
      exact findMessage?_of_noPackage consistent hpackage
  | some package =>
      rw [Option.bind_some]
      unfold findMessage?
      rw [qualify_of_package hpackage plain,
        qualify_of_isQualified (QualifiedName.isQualified_join package name)]

/-- One name in one package is declared once. -/
theorem ref_eq_of_declares
    {other : DeclarationRef}
    {second : Message}
    {package bare : String}
    (declares : set.Declares ref package bare message)
    (also : set.Declares other package bare second) :
    ref = other := by
  rcases declares with ⟨file, hrefers, rfl, rfl⟩
  rcases also with ⟨later, hrefersToo, hpackage, hbare⟩
  have hfound := (consistent.index_lookup _ ref).2 ⟨file, message, hrefers, rfl⟩
  have hfoundToo :=
    (consistent.index_lookup (QualifiedName.join file.package message.name) other).2
      ⟨later, second, hrefersToo, by rw [hpackage, hbare]⟩
  exact Option.some.inj (hfound.symm.trans hfoundToo)

theorem messages_forall₂ :
    List.Forall₂ (fun ref message => ∃ file, set.Refers ref file (.message message))
      set.ownMessages set.messages := by
  have hrefer := consistent.ownMessages_refer
  unfold messages
  generalize set.ownMessages = refs at hrefer ⊢
  induction refs with
  | nil =>
      exact .nil
  | cons ref later ih =>
      rcases hrefer ref List.mem_cons_self with ⟨file, message, hrefers⟩
      have hview : (set.declaration? ref).bind Declaration.message? = some message := by
        rw [hrefers.declaration?_eq]
        rfl
      rw [List.filterMap_cons]
      simp only [hview]
      exact .cons ⟨file, hrefers⟩ (ih fun other hmember => hrefer other (.tail ref hmember))

theorem isOwnMessage_iff (lists : set.ListsOwn) :
    set.isOwnMessage name = true ↔
      ∃ ref message, set.Resolves name ref message ∧ ref ∈ set.ownMessages := by
  unfold isOwnMessage
  constructor
  · intro hown
    cases hlookup : set.index.lookup (set.qualify name) with
    | none =>
        rw [hlookup] at hown
        cases hown
    | some ref =>
        rw [hlookup] at hown
        rcases (consistent.index_lookup _ ref).1 hlookup with ⟨file, message, hrefers, hname⟩
        simp only [hrefers.1, Option.any_some] at hown
        exact
          ⟨ref, message, (resolves_iff consistent).2 ⟨file, hrefers, hname⟩,
            (lists ref).2 ⟨file, message, hrefers, hown⟩⟩
  · rintro ⟨ref, message, ⟨hlookup, _⟩, hmember⟩
    rcases (lists ref).1 hmember with ⟨file, other, hrefers, howned⟩
    simp only [hlookup, hrefers.1, Option.any_some]
    exact howned

theorem resolves_iff_declares
    (dotless : ∀ file ∈ set.files, file.schema.Dotless)
    (dotted : QualifiedName.isQualified name = true) :
    set.Resolves name ref message ↔
      set.Declares ref (QualifiedName.split name).1 (QualifiedName.split name).2 message := by
  rw [resolves_iff consistent, qualify_of_isQualified dotted]
  constructor
  · rintro ⟨file, hrefers, rfl⟩
    rw [split_join_of_refers dotless hrefers]
    exact ⟨file, hrefers, rfl, rfl⟩
  · rintro ⟨file, hrefers, hpackage, hbare⟩
    refine ⟨file, hrefers, ?_⟩
    rw [hpackage, hbare, QualifiedName.join_split dotted]

end Consistent

end Resolution

/-- In every set that comes about each name leads to the one message that it stands for, if there is
one, and belongs to the set's own package exactly if that message is listed among the set's own. -/
theorem resolvesExactly_of_reachable
    {set : FileSet}
    (reachable : Reachable set)
    (name : String) :
    set.ResolvesExactly name := by
  have hconsistent := (consistent_of_steps reachable Consistent.empty).1
  have hdotless := dotless_of_reachable reachable
  constructor
  · exact fun _ => findMessage?_eq_some_iff
  · exact fun hdotted _ _ => resolves_iff_declares hconsistent hdotless hdotted
  · intro package bare ref other message second hdeclares halso
    exact ref_eq_of_declares hconsistent hdeclares halso
  · exact findMessage?_of_plain hconsistent
  · exact isOwnMessage_iff hconsistent (listsOwn_of_reachable reachable)
  · exact messages_forall₂ hconsistent
  · intro ref message hresolves
    rcases (resolves_iff hconsistent).1 hresolves with ⟨file, hrefers, hname⟩
    refine ⟨file, hrefers, ?_⟩
    rw [hname, split_join_of_refers hdotless hrefers]
  · intro ref file service hrefers hlookup
    rcases (hconsistent.index_lookup _ ref).1 hlookup with ⟨other, message, hmessage, _⟩
    have hsame := hrefers.declaration?_eq.symm.trans hmessage.declaration?_eq
    cases hsame

theorem resolvesExactly_crossedDisk :
    ∃ set,
      ofPaths crossedDisk ["a.yarp", "b.yarp"] = .ok set ∧
        Reachable set ∧
        set.ResolvesExactly "X" ∧
        set.isOwnMessage "X" = true := by
  rcases Crossed.exists_refers with
    ⟨set, first, second, file, other, message, service, hset, hrefers, _, howned, _, hname, _⟩
  have hreachable : Reachable set := by
    have hstep := Step.loadAll empty crossedDisk ["a.yarp", "b.yarp"]
    rw [ofPaths_eq_ok_iff.1 hset] at hstep
    exact Relation.ReflTransGen.single hstep
  have hexact := resolvesExactly_of_reachable hreachable "X"
  have hconsistent := (consistent_of_steps hreachable Consistent.empty).1
  have hpackage : set.package = some file.package := by
    simpa [owns] using howned
  refine ⟨set, hset, hreachable, hexact, hexact.own.2 ⟨first, message, ?_, ?_⟩⟩
  · refine (resolves_iff hconsistent).2 ⟨file, hrefers, ?_⟩
    rw [qualify_of_package hpackage (by decide), hname]
  · exact (listsOwn_of_reachable hreachable first).2 ⟨file, message, hrefers, howned⟩

end FileSet
end InterfaceSchema
