import InterfaceSchema.Proofs.Agreement.Items

/-!
# Schemas at other places

What is read before a message, a service, an import or a package clause is a schema, of which the
readers ask whether it has a name or a path. The answer does not depend on places, so the readers of
a whole schema do the same before lexemes that correspond, too.

* `Schema.unplaced`: a schema without places, and what it knows.
* `Pairing.Mishaps`: the failures of the readers of whole schemas that correspond.
* `Pairing.declaration_agrees`, `Pairing.declarations_agrees`, `Pairing.imports_agrees`,
  `Pairing.package_keeps`: the readers.
* `Pairing.ofLexemes_agrees`: the whole schema.
-/

namespace InterfaceSchema

/-! ## Schemas without places -/

namespace Schema

/-- A schema with all locations left out. -/
def unplaced (schema : Schema) : Schema :=
  { schema with declarations := schema.declarations.map Declaration.unplaced }

theorem unplaced_push (schema : Schema) (declaration : Declaration) :
    (schema.push declaration).unplaced = schema.unplaced.push declaration.unplaced := by
  cases declaration <;>
    simp [unplaced, push, Declaration.unplaced, Package.unplaced, Import.unplaced,
      Message.unplaced, Service.unplaced]

theorem declaration?_unplaced (schema : Schema) (name : String) :
    schema.unplaced.declaration? name = (schema.declaration? name).map Declaration.unplaced := by
  unfold declaration? unplaced
  cases schema.names.lookup name with
  | none =>
      rfl
  | some place =>
      exact List.getElem?_map

theorem declarationLocation?_unplaced (schema : Schema) (name : String) :
    schema.unplaced.declarationLocation? name =
      (schema.declarationLocation? name).map fun _ => .nowhere := by
  unfold declarationLocation?
  rw [declaration?_unplaced]
  rcases schema.declaration? name with _ | declaration
  · rfl
  · cases declaration <;> rfl

variable {schema twin : Schema}

/-- Whether a name is known does not depend on places. -/
theorem declarationLocation?_eq_none_of_unplaced
    (same : schema.unplaced = twin.unplaced)
    {name : String}
    (unknown : schema.declarationLocation? name = none) :
    twin.declarationLocation? name = none := by
  have hnone : twin.unplaced.declarationLocation? name = none := by
    rw [← same, declarationLocation?_unplaced, unknown]
    rfl
  rw [declarationLocation?_unplaced, Option.map_eq_none_iff] at hnone
  exact hnone

/-- Whether a path is imported does not depend on places. -/
theorem importLocation?_eq_none_of_unplaced
    (same : schema.unplaced = twin.unplaced)
    {path : String}
    (unknown : schema.importLocation? path = none) :
    twin.importLocation? path = none := by
  have hdeclarations :
      schema.declarations.map Declaration.unplaced =
        twin.declarations.map Declaration.unplaced :=
    congrArg Schema.declarations same
  rw [importLocation?_eq_none_iff] at unknown ⊢
  rw [← importPaths_eq_of_unplaced hdeclarations]
  exact unknown

end Schema

/-- A cause, with the place of what is repeated left out. -/
def Cause.unplaced : Cause → Cause
  | duplicatePackage _ => .duplicatePackage Location.nowhere.span
  | duplicateImport path _ => .duplicateImport path Location.nowhere.span
  | duplicateName name _ => .duplicateName name Location.nowhere.span
  | cause => cause

@[simp]
theorem Cause.message_unplaced (cause : Cause) : cause.unplaced.message = cause.message := by
  cases cause <;> rfl

@[simp]
theorem Cause.ctorIdx_unplaced (cause : Cause) : cause.unplaced.ctorIdx = cause.ctorIdx := by
  cases cause <;> rfl

namespace Pairing

open Grammar

variable {pairing : Pairing} {schema twin : Schema} {clause clause' : Location}

/-! ## Failures -/

/-- Failures of the readers of two schemas, whose package clauses stand at the given places. They
are found at lexemes that correspond, or the same is repeated. -/
inductive Mishaps (pairing : Pairing) (clause clause' : Location) : Failure → Failure → Prop
  | found
      {first second : Failure}
      (failures : pairing.Failures first second) :
      Mishaps pairing clause clause' first second
  | package
      {place other : Location}
      (paired : pairing .packageWord place other) :
      Mishaps pairing clause clause'
        ⟨.duplicatePackage clause.span, place.span⟩
        ⟨.duplicatePackage clause'.span, other.span⟩
  | importing
      {path : String}
      {first second span other : Span} :
      Mishaps pairing clause clause'
        ⟨.duplicateImport path first, span⟩
        ⟨.duplicateImport path second, other⟩
  | name
      {name : String}
      {first second span other : Span} :
      Mishaps pairing clause clause'
        ⟨.duplicateName name first, span⟩
        ⟨.duplicateName name second, other⟩

theorem Mishaps.cause_unplaced
    {first second : Failure}
    (mishaps : pairing.Mishaps clause clause' first second) :
    first.cause.unplaced = second.cause.unplaced := by
  cases mishaps with
  | found failures =>
      rw [failures.cause]
  | package paired =>
      rfl
  | importing =>
      rfl
  | name =>
      rfl

/-- Failures with a local cause are found at lexemes. -/
theorem Mishaps.failures
    {first second : Failure}
    (mishaps : pairing.Mishaps clause clause' first second)
    (isLocal : first.cause.IsLocal) :
    pairing.Failures first second := by
  cases mishaps with
  | found failures =>
      exact failures
  | package paired =>
      cases isLocal
  | importing =>
      cases isLocal
  | name =>
      cases isLocal

/-- What reads a part of a schema may also fail where the whole does. -/
theorem Keeps.mishaps
    {α : Type}
    {holds : α → α → Prop}
    {read : (cursor : Cursor) → Except Failure (Advance cursor α)}
    (keeps : pairing.Keeps holds read)
    {first second : Cursor}
    (cursors : pairing.Cursors first second) :
    Agree (pairing.Mishaps clause clause') (pairing.Advances holds) (read first) (read second) :=
  (keeps first second cursors).mono fun _ _ => .found

/-! ## Messages and services -/

theorem newName_agrees
    (same : schema.unplaced = twin.unplaced)
    {first second : Cursor}
    (cursors : pairing.Cursors first second)
    (expected : Expected) :
    Agree (pairing.Mishaps clause clause') (pairing.Advances Eq)
      (newName schema expected first) (newName twin expected second) := by
  unfold newName
  refine .bind ((ident_keeps expected).mishaps cursors) ?_
  intro name name' hname
  rw [← hname.value.1]
  cases hknown : schema.declarationLocation? name.value.1 with
  | none =>
      rw [Schema.declarationLocation?_eq_none_of_unplaced same hknown]
      exact .ok (hname.map fun _ _ hpicked => hpicked.1)
  | some place =>
      cases hother : twin.declarationLocation? name.value.1 with
      | none =>
          rw [Schema.declarationLocation?_eq_none_of_unplaced same.symm hother] at hknown
          cases hknown
      | some other =>
          exact .error .name

section Bodies

variable {before other : Cursor} {word : Advance before Location} {word' : Advance other Location}
variable {holds : Location → Location → Prop} {notes notes' : Notes}

/-- A name and a body between braces. -/
theorem namedBody_agrees
    {α β : Type}
    {item : Item α}
    {unplaced : α → α}
    {later : β → β → Prop}
    {finish :
      Advance before String → Advance before (List α × Location) →
        Except Failure (Advance before β)}
    {finish' :
      Advance other String → Advance other (List α × Location) →
        Except Failure (Advance other β)}
    (same : schema.unplaced = twin.unplaced)
    (expected : Expected)
    (keeps : pairing.Keeps (fun value twin => unplaced value = unplaced twin) item)
    (advances : pairing.Advances holds word word')
    (finishes :
      ∀ (name : Advance before String) (name' : Advance other String) body body',
        name.value = name'.value →
          pairing.Advances
              (fun found twin : List α × Location =>
                found.1.map unplaced = twin.1.map unplaced)
              body body' →
            Agree (pairing.Mishaps clause clause') (pairing.Advances later)
              (finish name body) (finish' name' body')) :
    Agree (pairing.Mishaps clause clause') (pairing.Advances later)
      (do
        let name ← word.detach.andThen (newName schema expected)
        let opening ← name.andThen fun after => after.expect .leftBrace
        let body ← opening.andThen (block item)
        finish name body)
      (do
        let name ← word'.detach.andThen (newName twin expected)
        let opening ← name.andThen fun after => after.expect .leftBrace
        let body ← opening.andThen (block item)
        finish' name body) := by
  refine .bind (andThen_agrees (newName_agrees same advances.detach.after expected)) ?_
  intro name name' hname
  refine .bind (andThen_agrees ((expect_keeps .leftBrace).mishaps hname.after)) ?_
  intro opening opening' hopening
  refine .bind (andThen_agrees ((block_keeps keeps).mishaps hopening.after)) ?_
  intro body body' hbody
  exact finishes name name' body body' hname.value hbody

theorem message_agrees
    (same : schema.unplaced = twin.unplaced)
    (advances : pairing.Advances holds word word')
    (sameNotes : notes.unplaced = notes'.unplaced) :
    Agree (pairing.Mishaps clause clause')
      (pairing.Advances fun declared other : Message => declared.unplaced = other.unplaced)
      (message schema notes word) (message twin notes' word') := by
  unfold message
  refine namedBody_agrees same .messageName member_keeps advances ?_
  intro name name' body body' hname hbody
  refine .ok (hbody.detach.map ?_)
  rintro ⟨members, close⟩ ⟨members', close'⟩ hmembers
  dsimp only at hmembers
  simp only [Message.unplaced, hname, sameNotes, hmembers]

theorem service_agrees
    (same : schema.unplaced = twin.unplaced)
    (advances : pairing.Advances holds word word')
    (sameNotes : notes.unplaced = notes'.unplaced) :
    Agree (pairing.Mishaps clause clause')
      (pairing.Advances fun declared other : Service => declared.unplaced = other.unplaced)
      (service schema notes word) (service twin notes' word') := by
  unfold service
  refine namedBody_agrees same .serviceName method_keeps advances ?_
  intro name name' body body' hname hbody
  refine .ok (hbody.detach.map ?_)
  rintro ⟨methods, close⟩ ⟨methods', close'⟩ hmethods
  dsimp only at hmethods
  simp only [Service.unplaced, hname, sameNotes, hmethods]

end Bodies

/-! ## Declarations -/

/-- Two schemas that have been read behind package clauses at the given places, and that differ only
in places. -/
structure Schemas (clause clause' : Location) (schema twin : Schema) : Prop where
  same : schema.unplaced = twin.unplaced
  packaged : schema.packageLocation? = some clause
  packagedToo : twin.packageLocation? = some clause'

theorem Schemas.push
    (schemas : Schemas clause clause' schema twin)
    {declaration other : Declaration}
    (same : declaration.unplaced = other.unplaced) :
    Schemas clause clause' (schema.push declaration) (twin.push other) where
  same := by
    rw [Schema.unplaced_push, Schema.unplaced_push, schemas.same, same]
  packaged := Schema.packageLocation?_push schemas.packaged declaration
  packagedToo := Schema.packageLocation?_push schemas.packagedToo other

variable {first second : Cursor}

theorem misplaced_agrees
    (schemas : Schemas clause clause' schema twin)
    (cursors : pairing.Cursors first second) :
    pairing.Mishaps clause clause' (misplaced schema first) (misplaced twin second) := by
  unfold misplaced
  dsimp only
  rw [← cursors.peek.1, schemas.packaged, schemas.packagedToo]
  split
  · exact .found (cursors.failures trivial (by simp))
  · split
    · next hword =>
      have hplaces := cursors.peek.2
      rw [hword] at hplaces
      exact .package hplaces
    · exact .found (cursors.unexpected .declaration)

theorem declaration_agrees
    (schemas : Schemas clause clause' schema twin)
    (cursors : pairing.Cursors first second) :
    Agree (pairing.Mishaps clause clause')
      (pairing.Advances fun declaration other => declaration.unplaced = other.unplaced)
      (declaration schema first) (declaration twin second) := by
  unfold declaration
  rcases cursors.take? .messageWord with ⟨hfirst, hsecond⟩ | ⟨word, word', hfirst, hsecond, hword⟩
  · rw [hfirst, hsecond]
    dsimp only
    rcases cursors.take? .serviceWord with
      ⟨hfirst, hsecond⟩ | ⟨word, word', hfirst, hsecond, hword⟩
    · rw [hfirst, hsecond]
      exact .error (misplaced_agrees schemas cursors)
    · rw [hfirst, hsecond]
      refine .bind (service_agrees schemas.same hword cursors.pending) ?_
      intro declared declared' hdeclared
      exact .ok (hdeclared.map fun _ _ hsame => congrArg Declaration.service hsame)
  · rw [hfirst, hsecond]
    refine .bind (message_agrees schemas.same hword cursors.pending) ?_
    intro declared declared' hdeclared
    exact .ok (hdeclared.map fun _ _ hsame => congrArg Declaration.message hsame)

theorem declarations_agrees
    (schemas : Schemas clause clause' schema twin)
    (cursors : pairing.Cursors first second) :
    Agree (pairing.Mishaps clause clause')
      (fun schema twin : Schema => schema.unplaced = twin.unplaced)
      (declarations schema first) (declarations twin second) := by
  induction schema, first using declarations.induct generalizing twin second with
  | case1 schema first hend =>
      have hendToo : second.peek.token = .eof := cursors.peek.1.symm.trans hend
      rw [declarations, if_pos hend, declarations, if_pos hendToo]
      exact .ok schemas.same
  | case2 schema first hmore ih =>
      have hmoreToo : ¬ second.peek.token = .eof := by
        rw [← cursors.peek.1]
        exact hmore
      rw [declarations, if_neg hmore, declarations, if_neg hmoreToo]
      have hentry :=
        entry_agrees (fun _ _ => Mishaps.found) cursors (declaration_agrees schemas cursors)
      refine .bind hentry ?_
      intro found found' hfound
      have hvalue := hfound.value
      refine ih found ?_ hfound.after
      generalize found.value = value at hvalue
      generalize found'.value = other at hvalue
      cases value with
      | none =>
          rw [Option.map_eq_none_iff.1 hvalue.symm]
          exact schemas
      | some declared =>
          rcases Option.map_eq_some_iff.1 hvalue.symm with ⟨declared', rfl, hsame⟩
          exact schemas.push hsame.symm

/-! ## Imports -/

theorem importing_agrees
    {before other : Cursor}
    {word : Advance before Location}
    {word' : Advance other Location}
    {holds : Location → Location → Prop}
    (same : schema.unplaced = twin.unplaced)
    (advances : pairing.Advances holds word word') :
    Agree (pairing.Mishaps clause clause')
      (pairing.Advances fun statement other : Import => statement.path = other.path)
      (importing schema word) (importing twin word') := by
  unfold importing
  refine .bind
    (andThen_agrees ((select_keeps .importPath Token.stringLiteral?).mishaps advances.after)) ?_
  intro path path' hpath
  refine .bind (andThen_agrees ((expect_keeps .semicolon).mishaps hpath.after)) ?_
  intro close close' hclose
  dsimp only
  rw [← hpath.value.1]
  cases hknown : schema.importLocation? (Path.clean path.value.1) with
  | none =>
      rw [Schema.importLocation?_eq_none_of_unplaced same hknown]
      exact .ok (hclose.map fun _ _ _ => rfl)
  | some place =>
      cases hother : twin.importLocation? (Path.clean path.value.1) with
      | none =>
          rw [Schema.importLocation?_eq_none_of_unplaced same.symm hother] at hknown
          cases hknown
      | some other =>
          exact .error .importing

theorem imports_agrees
    (schemas : Schemas clause clause' schema twin)
    (cursors : pairing.Cursors first second) :
    Agree (pairing.Mishaps clause clause')
      (fun found other : Schema × Cursor =>
        Schemas clause clause' found.1 other.1 ∧ pairing.Cursors found.2 other.2)
      (imports schema first) (imports twin second) := by
  induction schema, first using imports.induct generalizing twin second with
  | case1 schema first passed hpassed ih =>
      rcases cursors.trivia?.of_some hpassed with ⟨passed', htwin, hboth⟩
      rw [imports, hpassed, imports, htwin]
      exact ih schemas hboth.after
  | case2 schema first hnone hword =>
      have hnoneToo := cursors.trivia?.of_none hnone
      have hwordToo := (cursors.take? .importWord).of_none hword
      rw [imports, hnone, hword, imports, hnoneToo, hwordToo]
      exact .ok ⟨schemas, cursors⟩
  | case3 schema first hnone word hword ih =>
      have hnoneToo := cursors.trivia?.of_none hnone
      rcases (cursors.take? .importWord).of_some hword with ⟨word', hwordToo, hboth⟩
      rw [imports, hnone, hword, imports, hnoneToo, hwordToo]
      refine .bind (importing_agrees schemas.same hboth.detach) ?_
      intro statement statement' hstatement
      refine ih statement (schemas.push ?_) hstatement.after
      exact congrArg (fun path => Declaration.importing ⟨.nowhere, path⟩) hstatement.value

/-! ## Whole schemas -/

theorem skipTrivia_cursors (cursors : pairing.Cursors first second) :
    pairing.Cursors (skipTrivia first) (skipTrivia second) := by
  induction first using skipTrivia.induct generalizing second with
  | case1 first passed hpassed ih =>
      rcases cursors.trivia?.of_some hpassed with ⟨passed', htwin, hboth⟩
      rw [skipTrivia, hpassed, skipTrivia, htwin]
      exact ih hboth.detach.after
  | case2 first hnone =>
      have hnoneToo := cursors.trivia?.of_none hnone
      rw [skipTrivia, hnone, skipTrivia, hnoneToo]
      exact cursors

theorem package_keeps :
    pairing.Keeps (fun clause other : Package => clause.name = other.name) package := by
  intro first second hcursors
  unfold package
  refine .bind (expect_keeps .packageWord _ _ hcursors) ?_
  intro word word' hword
  refine .bind ((dottedName_keeps .packageName).andThen hword) ?_
  intro name name' hname
  refine .bind ((expect_keeps .semicolon).andThen hname) ?_
  intro close close' hclose
  exact .ok (hclose.map fun _ _ _ => hname.value)

theorem start_cursors
    {eof stop : Location}
    {lexemes others : List Lexeme}
    (ahead : List.Forall₂ pairing.Lexemes lexemes others)
    (ends : pairing .eof eof stop) :
    pairing.Cursors (Cursor.start eof lexemes) (Cursor.start stop others) :=
  ⟨rfl, ahead, ends, rfl⟩

/-- From lexemes that correspond the same schema is read but for places, or the same is found
wrong. -/
theorem ofLexemes_agrees
    {eof stop : Location}
    {lexemes others : List Lexeme}
    (ahead : List.Forall₂ pairing.Lexemes lexemes others)
    (ends : pairing .eof eof stop) :
    Agree (fun failure other => ∃ clause clause', pairing.Mishaps clause clause' failure other)
      (fun schema twin => schema.unplaced = twin.unplaced)
      (Schema.ofLexemes eof lexemes) (Schema.ofLexemes stop others) := by
  unfold Schema.ofLexemes
  have hclause := package_keeps _ _ (skipTrivia_cursors (start_cursors ahead ends))
  refine .bind (hclause.mono fun _ _ hfailures => ⟨eof, stop, .found hfailures⟩) ?_
  intro clause clause' hclause
  have hschemas :
      Schemas clause.value.location clause'.value.location
        (Schema.empty.push (.package clause.value))
        (Schema.empty.push (.package clause'.value)) := by
    refine ⟨?_, rfl, rfl⟩
    rw [Schema.unplaced_push, Schema.unplaced_push]
    exact congrArg (fun name => Schema.empty.push (.package ⟨.nowhere, name⟩)) hclause.value
  have himports := imports_agrees hschemas hclause.after
  refine .bind (himports.mono fun _ _ hmishaps => ⟨_, _, hmishaps⟩) ?_
  rintro ⟨schema, after⟩ ⟨twin, after'⟩ ⟨hschemas, hcursors⟩
  exact (declarations_agrees hschemas hcursors).mono fun _ _ hmishaps => ⟨_, _, hmishaps⟩

end Pairing
end InterfaceSchema
