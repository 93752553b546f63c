import InterfaceSchema.Proofs.Kinds.Items
import InterfaceSchema.Proofs.Reading.Repeated

/-!
# Where declarations and imports break

A schema breaks as its grammar says, or at a name or an import that it has already.

* `Kinds.declaration_tells`: a message or service whose name is new.
* `Kinds.StopsAtName`, `Kinds.declarations_error`: the declarations up to the end of a text. Those
  before a repeated name are entries with distinct names.
* `Kinds.StopsAtImport`, `Kinds.imports_leads`, `Kinds.imports_error`: the same for the imports.
-/

open scoped Computability

namespace InterfaceSchema
namespace Kinds

open Grammar

/-! ## Messages and services -/

section Declared

variable {schema : Schema} {cursor : Cursor} {K L : Language Kind}

/-- No identifier ahead is a name that the schema has. -/
def FreshName (schema : Schema) (cursor : Cursor) : Prop :=
  ∀ name place rest,
    cursor.ahead = ⟨.ident name, place⟩ :: rest → schema.declarationLocation? name = none

theorem newName_tells
    (expected : Expected)
    [Possible K]
    (fresh : FreshName schema cursor) :
    Tells (newName schema expected cursor) (name * K) K := by
  unfold newName
  refine .ident expected opens_named.mul ?_
  intro name hahead
  simp only [fresh _ _ _ hahead]
  refine .ok (.first hahead ?_)
  intro later
  refine ident_cons_mem_named_mul.trans ?_
  simp

/-- A name and a body between braces. -/
theorem namedBody_tells
    {α β : Type}
    {item : Item α}
    {I : Language Kind}
    {word : Advance cursor Location}
    {finish :
      Advance cursor String → Advance cursor (List α × Location) →
        Except Failure (Advance cursor β)}
    (expected : Expected)
    [Possible I]
    [Possible K]
    (opens : Opens IsName I)
    (items :
      ∀ (after : Cursor) (M : Language Kind) [Possible M], Tells (item after) (I * M) M)
    (fresh : FreshName schema word.after)
    (leads : Leads cursor L word.after (name * (block I * K)))
    (finishes : ∀ name body, Leads cursor L body.after K → Tells (finish name body) L K) :
    Tells
      (do
        let name ← word.detach.andThen (newName schema expected)
        let opening ← name.andThen fun after => after.expect .leftBrace
        let body ← opening.andThen (Grammar.block item)
        finish name body)
      L K := by
  have hword : Leads cursor L word.detach.after (name * (block I * K)) := leads
  unfold block at hword
  rw [mul_assoc, mul_assoc] at hword
  refine .bind (.andThen hword (newName_tells expected fresh)) ?_
  intro name hname
  refine .bind (.andThen hname (expect_tells (by rfl))) ?_
  intro opening hopening
  exact .bind (.andThen hopening (block_tells opens items)) (finishes name)

section Bodies

variable {word : Advance cursor Location}

theorem message_tells
    [Possible K]
    (notes : Notes)
    (fresh : FreshName schema word.after)
    (leads : Leads cursor L word.after (name * (block member * K))) :
    Tells (Grammar.message schema notes word) L K := by
  unfold Grammar.message
  refine namedBody_tells .messageName opens_member (fun _ _ _ => member_tells) fresh leads ?_
  intro name body hbody
  exact .ok hbody

theorem service_tells
    [Possible K]
    (notes : Notes)
    (fresh : FreshName schema word.after)
    (leads : Leads cursor L word.after (name * (block method * K))) :
    Tells (Grammar.service schema notes word) L K := by
  unfold Grammar.service
  refine namedBody_tells .serviceName opens_method (fun _ _ _ => method_tells) fresh leads ?_
  intro name body hbody
  exact .ok hbody

end Bodies

/-- What is neither a message nor a service is refused. -/
theorem misplaced_breaks
    [Possible L]
    {Allowed : Kind → Prop}
    (opens : Opens Allowed L)
    (away : ¬ Meets Allowed cursor.ahead) :
    Breaks L cursor.ahead (misplaced schema cursor) := by
  have hrefusal
      {cause : Cause}
      (hcause : cause.IsRefusal)
      (htoken : cursor.peek.token ≠ .eof) :
      Breaks L cursor.ahead ⟨cause, cursor.peek.location.span⟩ := by
    rcases Cursor.exists_ahead_eq_peek htoken with ⟨rest, hahead⟩
    rw [hahead, meets_cons] at away
    exact refusal_breaks hahead hcause rfl (opens.not_begins away)
  unfold misplaced
  dsimp only
  split
  · next himport =>
    exact hrefusal trivial (by simp [himport, Token.importWord])
  · split
    · next hpackage =>
      split
      · exact hrefusal trivial (by simp [hpackage, Token.packageWord])
      · exact unexpected_breaks .declaration opens away
    · exact unexpected_breaks .declaration opens away

/-- The words with which declarations begin. -/
def OpensDeclaration (word : Lexeme) : Prop :=
  word.token = .messageWord ∨ word.token = .serviceWord

/-- What is ahead declares a name that the schema has. -/
def RepeatsName
    (schema : Schema)
    (ahead : List Lexeme)
    (name : String)
    (place : Location) : Prop :=
  schema.declarationLocation? name ≠ none ∧
    ∃ word rest, ahead = word :: ⟨.ident name, place⟩ :: rest ∧ OpensDeclaration word

theorem declaration_tells
    [Possible K]
    (fresh : ∀ name place, ¬ RepeatsName schema cursor.ahead name place) :
    Tells (Grammar.declaration schema cursor) (declaration * K) K := by
  have hfresh
      {token : Token}
      {word : Advance cursor Location}
      (hword : cursor.take? token = some word)
      (htoken : token = .messageWord ∨ token = .serviceWord) :
      FreshName schema word.after := by
    intro name place rest hrest
    by_contra hknown
    refine fresh name place ⟨hknown, ⟨token, word.value⟩, rest, ?_, htoken⟩
    rw [Cursor.take?_ahead hword, hrest]
  have hother :
      ¬ Begins (one (.ident "service") * (name * (block method * K))) [.ident "message"] :=
    opens_one.mul.not_begins (by simp)
  unfold declaration message service
  rw [add_mul, mul_assoc, mul_assoc, mul_assoc, mul_assoc]
  unfold Grammar.declaration
  split
  · next word hword =>
    refine .bind (message_tells _ (hfresh hword (Or.inl rfl)) (take?_leads_left hother hword)) ?_
    intro declared hdeclared
    exact .ok hdeclared
  · next hnoMessage =>
    refine .narrow (.right opens_one.mul (not_meets_of_take? hnoMessage rfl)) ?_
    split
    · next word hword =>
      refine .bind (service_tells _ (hfresh hword (Or.inr rfl)) (take?_leads hword)) ?_
      intro declared hdeclared
      exact .ok hdeclared
    · next hnoService =>
      exact .error (misplaced_breaks opens_one.mul (not_meets_of_take? hnoService rfl))

/-! ### Repeated names -/

theorem entry_of_repeatsName
    {name : String}
    {place : Location}
    (repeats : RepeatsName schema cursor.ahead name place) :
    ∃ first,
      entry (Grammar.declaration schema) cursor =
        .error ⟨.duplicateName name first, place.span⟩ := by
  rcases repeats with ⟨hknown, ⟨token, start⟩, rest, hahead, hword⟩
  rcases Option.ne_none_iff_exists'.1 hknown with ⟨first, hfirst⟩
  exact ⟨first.span, entry_of_known hfirst hword hahead⟩

end Declared

/-! ## Up to the end of the text -/

theorem declarations_eq : declarations = one .eof + (filler + declaration) * declarations :=
  entries_mul_eq

theorem not_begins_declarations_leftParen : ¬ Begins declarations [.leftParen] :=
  not_begins_entries_mul opens_declaration (by simp [IsEntry, IsFiller, IsIdle, IsName])
    (opens_one.not_begins (by simp))

theorem declarations_leads {cursor : Cursor} (more : cursor.peek.token ≠ .eof) :
    Leads cursor declarations cursor ((filler + declaration) * declarations) := by
  have hfixed : Token.IsFixed .eof := rfl
  have haway : ¬ Meets (fun kind => kind = .eof) cursor.ahead := by
    refine not_meets_of_noToken hfixed ?_
    intro place rest hahead
    exact more (peek_eq_eof_iff.2 (Or.inr ⟨place, rest, hahead⟩))
  have hleads := Leads.right (M := (filler + declaration) * declarations) opens_one haway
  rw [← declarations_eq] at hleads
  exact hleads

/-- Behind declarations with distinct names comes one whose name is taken, and a failure says
so. -/
inductive StopsAtName
    (schema : Schema)
    (margin : Margin)
    (ahead : List Lexeme)
    (failure : Failure) : Prop
  | mk
      (body rest : List Lexeme)
      (items : List Declaration)
      (name : String)
      (place : Location)
      (first : Span)
      (entries : Entries DeclarationPhrase margin body items)
      (cut : ahead = body ++ rest)
      (distinct : (declaredNames (items.foldl Schema.push schema).declarations).Nodup)
      (repeats : RepeatsName (items.foldl Schema.push schema) rest name place)
      (reported : failure = ⟨.duplicateName name first, place.span⟩)

section StopsAtName

variable
  {schema : Schema}
  {margin next : Margin}
  {taken ahead : List Lexeme}
  {failure : Failure}

theorem StopsAtName.filler
    (passed : Filler margin taken next)
    (stops : StopsAtName schema next ahead failure) :
    StopsAtName schema margin (taken ++ ahead) failure := by
  rcases stops with
    ⟨body, rest, items, name, place, first, hentries, rfl, hdistinct, hrepeats, hreported⟩
  have hcut : taken ++ (body ++ rest) = taken ++ body ++ rest := by
    rw [List.append_assoc]
  exact
    ⟨taken ++ body, rest, items, name, place, first, .filler passed hentries, hcut, hdistinct,
      hrepeats, hreported⟩

theorem StopsAtName.item
    {declared : Declaration}
    (spelled : DeclarationPhrase margin.waiting taken declared)
    (stops : StopsAtName (schema.push declared) .clear ahead failure) :
    StopsAtName schema margin (taken ++ ahead) failure := by
  rcases stops with
    ⟨body, rest, items, name, place, first, hentries, rfl, hdistinct, hrepeats, hreported⟩
  have hcut : taken ++ (body ++ rest) = taken ++ body ++ rest := by
    rw [List.append_assoc]
  exact
    ⟨taken ++ body, rest, declared :: items, name, place, first, .item spelled hentries, hcut,
      hdistinct, hrepeats, hreported⟩

end StopsAtName

/-- The declarations of a text break as its grammar says, or at the name of one of them that is
taken. -/
theorem declarations_error
    {schema : Schema}
    {cursor : Cursor}
    {failure : Failure}
    (faithful : schema.Faithful)
    (distinct : (declaredNames schema.declarations).Nodup)
    (fails : Grammar.declarations schema cursor = .error failure) :
    Breaks declarations cursor.ahead failure ∨
      StopsAtName schema cursor.margin cursor.ahead failure := by
  induction schema, cursor using declarations.induct with
  | case1 schema cursor hend =>
      rw [Grammar.declarations, if_pos hend] at fails
      simp at fails
  | case2 schema cursor hmore ih =>
      rw [Grammar.declarations, if_neg hmore] at fails
      by_cases hrepeats : ∃ name place, RepeatsName schema cursor.ahead name place
      · rcases hrepeats with ⟨name, place, hname⟩
        rcases entry_of_repeatsName hname with ⟨first, hfirst⟩
        rw [hfirst] at fails
        cases fails
        exact Or.inr ⟨[], _, [], name, place, first, .nil _, rfl, distinct, hname, rfl⟩
      · simp only [not_exists] at hrepeats
        have hentry :=
          Tells.narrow (declarations_leads hmore)
            (entry_tells opens_declaration not_begins_declarations_leftParen
              (declaration_tells hrepeats))
        cases hfound : entry (Grammar.declaration schema) cursor with
        | error other =>
            rw [hfound] at fails
            cases fails
            exact Or.inl (hentry.breaks hfound)
        | ok found =>
            rw [hfound] at fails
            have hlater :
                Grammar.declarations (found.value.elim schema schema.push) found.after =
                  .error failure := fails
            have hrest := ih found
            rcases entry_sound (declaration_reads faithful) hfound with
              ⟨taken, next, hfiller, hvalue, hcovers⟩ |
                ⟨taken, declared, ⟨hspelled, hadmitted⟩, hvalue, hcovers⟩
            · rw [hvalue] at hrest hlater
              rcases hrest faithful distinct hlater with hbreaks | hstops
              · exact Or.inl ((hentry.leads hfound).breaks hbreaks)
              · rw [hcovers.margin] at hstops
                rw [hcovers.ahead]
                exact Or.inr (hstops.filler hfiller)
            · rw [hvalue] at hrest hlater
              have hdistinct := Schema.nodup_declaredNames_push_iff.2 ⟨distinct, hadmitted⟩
              rcases hrest (Schema.push_faithful faithful declared) hdistinct hlater with
                hbreaks | hstops
              · exact Or.inl ((hentry.leads hfound).breaks hbreaks)
              · rw [hcovers.margin] at hstops
                rw [hcovers.ahead]
                exact Or.inr (hstops.item hspelled)

/-! ## Imports -/

section Imports

variable {schema : Schema} {cursor : Cursor} {K L : Language Kind}

/-- What is ahead is an import that the schema has. -/
def RepeatsImport
    (schema : Schema)
    (ahead : List Lexeme)
    (path : String)
    (start stop : Location) : Prop :=
  schema.importLocation? (Path.clean path) ≠ none ∧
    ∃ place rest,
      ahead =
        ⟨.importWord, start⟩ :: ⟨.stringLiteral path, place⟩ :: ⟨.semicolon, stop⟩ :: rest

theorem importing_tells
    {word : Advance cursor Location}
    [Possible K]
    (covers : word.Covers [⟨.importWord, word.value⟩] .clear)
    (fresh : ∀ path start stop, ¬ RepeatsImport schema cursor.ahead path start stop) :
    Tells (Grammar.importing schema word) (importing * K) K := by
  have hliteral (token : Token) : token.stringLiteral? ≠ none ↔ token.kind = .stringLiteral := by
    cases token <;> simp [Token.stringLiteral?, Token.kind]
  have hword :
      Leads cursor (importing * K) word.after (one .stringLiteral * (one .semicolon * K)) := by
    refine .first covers.ahead ?_
    intro later
    unfold importing
    rw [mul_assoc, mul_assoc]
    refine cons_mem_one_mul.trans ?_
    simp [Lexeme.kind, Token.kind, Token.importWord]
  unfold Grammar.importing
  refine .bindOk (.andThen hword (select_tells .importPath hliteral)) ?_
  intro path hpath hpathLeads
  refine .bindOk (.andThen hpathLeads (expect_tells (by rfl))) ?_
  intro close hclose hcloseLeads
  rcases (Cursor.select_reads .importPath rfl).andThen_sound covers hpath with
    ⟨_, ⟨token, htoken, rfl⟩, hpathCovers⟩
  rw [Token.stringLiteral?_eq_some_iff] at htoken
  subst htoken
  rcases (Cursor.expect_reads (by simp)).andThen_sound hpathCovers hclose with
    ⟨_, rfl, hcovers⟩
  dsimp only
  split
  · next first hfirst =>
    refine absurd ?_ (fresh path.value.1 word.value close.value)
    exact ⟨by simp [hfirst], path.value.2, close.after.ahead, hcovers.ahead⟩
  · exact .ok hcloseLeads

theorem importing_of_repeatsImport
    {word : Advance cursor Location}
    {path : String}
    {start stop : Location}
    (covers : word.Covers [⟨.importWord, word.value⟩] .clear)
    (repeats : RepeatsImport schema cursor.ahead path start stop) :
    ∃ first,
      Grammar.importing schema word =
        .error ⟨.duplicateImport path first, (start.through stop).span⟩ := by
  rcases repeats with ⟨hknown, place, rest, hahead⟩
  rcases Option.ne_none_iff_exists'.1 hknown with ⟨known, hfirst⟩
  rcases covers.head_eq hahead with ⟨hword, _⟩
  simp only [Lexeme.mk.injEq, true_and] at hword
  subst hword
  rcases (Cursor.select_reads .importPath rfl).andThen_complete covers
      [⟨.stringLiteral path, place⟩] _ (path, place)
      ⟨_, Token.stringLiteral?_eq_some_iff.2 rfl, rfl⟩ trivial hahead with
    ⟨literal, hliteral, hpath, hcovers⟩
  rcases (Cursor.expect_reads (by simp)).andThen_complete hcovers
      [⟨.semicolon, stop⟩] rest stop rfl trivial hahead with
    ⟨close, hclose, rfl, _⟩
  refine ⟨known.span, ?_⟩
  unfold Grammar.importing
  rw [hliteral]
  simp only [bind, Except.bind, hclose, hpath, hfirst]

end Imports

/-! ### Up to the first declaration -/

theorem imports_eq : imports = declarations + (trivia + importing) * imports :=
  kstar_mul_eq

/-- Declarations do not begin with an import. -/
theorem opens_declarations : Opens (fun kind => kind ≠ .ident "import") declarations := by
  rw [declarations_eq]
  refine .add (opens_one.mono ?_) (.mul (.add (opens_filler.mono ?_) (.add ?_ ?_)))
  · rintro kind rfl
    simp
  · rintro kind hfiller rfl
    simp [IsFiller, IsIdle] at hfiller
  · refine opens_one.mul.mono ?_
    rintro kind rfl
    simp
  · refine opens_one.mul.mono ?_
    rintro kind rfl
    simp

/-- Trivia before the first annotation or declaration may be counted with the imports. -/
theorem idle_cons_mem_imports {kind : Kind} {later : List Kind} (idle : IsIdle kind) :
    kind :: later ∈ imports ↔ later ∈ imports := by
  have hstart : later ∈ declarations → later ∈ imports := by
    intro hlater
    rw [imports_eq]
    exact Or.inl hlater
  conv_lhs => rw [imports_eq, add_mul, declarations_eq]
  rw [Language.mem_add, Language.mem_add, Language.mem_add]
  constructor
  · rintro ((hend | hentry) | htrivia | himporting)
    · rw [mem_one, List.cons.injEq] at hend
      rcases hend with ⟨rfl, _⟩
      simp [IsIdle] at idle
    · exact hstart ((idle_cons_mem_entry_mul opens_declaration idle).1 hentry)
    · exact (cons_mem_among_mul.1 htrivia).2
    · have hword := opens_one.mul.mul.allowed himporting
      rw [hword] at idle
      simp [IsIdle] at idle
  · intro hlater
    exact Or.inr (Or.inl (cons_mem_among_mul.2 ⟨idle, hlater⟩))

theorem imports_leads_end
    {cursor : Cursor}
    (noTrivia : cursor.trivia? = none)
    (noImport : cursor.take? .importWord = none) :
    Leads cursor imports cursor declarations := by
  have hopens :
      Opens (fun kind => IsIdle kind ∨ kind = .ident "import")
        ((trivia + importing) * imports) := by
    refine .mul (.add (opens_among.mono ?_) (opens_one.mul.mono ?_))
    · intro kind hidle
      exact Or.inl hidle
    · intro kind hword
      exact Or.inr hword
  have haway : ¬ Meets (fun kind => IsIdle kind ∨ kind = .ident "import") cursor.ahead := by
    rintro ⟨lexeme, rest, hahead, hidle | hword⟩
    · exact not_meets_of_trivia? noTrivia ⟨lexeme, rest, hahead, hidle⟩
    · exact not_meets_of_take? noImport rfl ⟨lexeme, rest, hahead, hword⟩
  have hleads := Leads.left (L := declarations) hopens haway
  rw [← imports_eq] at hleads
  exact hleads

theorem importing_tells_imports
    {schema : Schema}
    {cursor : Cursor}
    {word : Advance cursor Location}
    (noTrivia : cursor.trivia? = none)
    (taken : cursor.take? .importWord = some word)
    (fresh : ∀ path start stop, ¬ RepeatsImport schema cursor.ahead path start stop) :
    Tells (Grammar.importing schema word.detach) imports imports := by
  have haway : ¬ Meets (fun kind => kind ≠ .ident "import") cursor.ahead := by
    rw [Cursor.take?_ahead taken, meets_cons]
    simp [Lexeme.kind, Token.kind, Token.importWord]
  have hleads :
      Leads cursor (declarations + (trivia + importing) * imports) cursor
        (importing * imports) := by
    rw [add_mul]
    refine Leads.trans (.right opens_declarations haway) ?_
    exact .right opens_among.mul (not_meets_of_trivia? noTrivia)
  rw [← imports_eq] at hleads
  have hcovers := Cursor.take?_covers (by simp [Token.importWord]) taken
  exact .narrow hleads (importing_tells hcovers.detach fresh)

/-- The imports lead to the declarations. -/
theorem imports_leads
    {schema final : Schema}
    {cursor after : Cursor}
    (succeeds : Grammar.imports schema cursor = .ok (final, after)) :
    Leads cursor imports after declarations := by
  induction schema, cursor using imports.induct with
  | case1 schema cursor passed hpassed ih =>
      rw [Grammar.imports, hpassed] at succeeds
      rcases trivia?_ahead hpassed with ⟨lexeme, hahead, hidle⟩
      exact (Leads.first hahead fun _ => idle_cons_mem_imports hidle).trans (ih succeeds)
  | case2 schema cursor hnone hnoImport =>
      rw [Grammar.imports, hnone, hnoImport] at succeeds
      simp only [Except.ok.injEq, Prod.mk.injEq] at succeeds
      rw [← succeeds.2]
      exact imports_leads_end hnone hnoImport
  | case3 schema cursor hnone word hword ih =>
      rw [Grammar.imports, hnone, hword] at succeeds
      simp only [bind_eq_ok_iff] at succeeds
      rcases succeeds with ⟨statement, hstatement, hlater⟩
      have hcovers := Cursor.take?_covers (by simp [Token.importWord]) hword
      have hfresh (path : String) (start stop : Location) :
          ¬ RepeatsImport schema cursor.ahead path start stop := by
        intro hrepeats
        rcases importing_of_repeatsImport hcovers.detach hrepeats with ⟨first, hfirst⟩
        rw [hstatement] at hfirst
        simp at hfirst
      have htells := importing_tells_imports hnone hword hfresh
      exact (htells.leads hstatement).trans (ih statement hlater)

/-- Behind imports with distinct paths comes one whose path is taken, and a failure says so. -/
inductive StopsAtImport
    (schema : Schema)
    (margin : Margin)
    (ahead : List Lexeme)
    (failure : Failure) : Prop
  | mk
      (taken rest : List Lexeme)
      (statements : List Import)
      (last : Margin)
      (path : String)
      (start stop : Location)
      (first : Span)
      (block : ImportBlock margin taken statements last)
      (cut : ahead = taken ++ rest)
      (distinct :
        (importPaths
          ((statements.map Declaration.importing).foldl Schema.push schema).declarations).Nodup)
      (repeats :
        RepeatsImport ((statements.map Declaration.importing).foldl Schema.push schema) rest path
          start stop)
      (reported : failure = ⟨.duplicateImport path first, (start.through stop).span⟩)

section StopsAtImport

variable
  {schema : Schema}
  {margin next : Margin}
  {ahead : List Lexeme}
  {failure : Failure}

theorem StopsAtImport.trivia
    {passed : List Lexeme}
    (idle : Trivia margin passed next)
    (stops : StopsAtImport schema next ahead failure) :
    StopsAtImport schema margin (passed ++ ahead) failure := by
  rcases stops with
    ⟨taken, rest, statements, last, path, start, stop, first, hblock, rfl, hdistinct, hrepeats,
      hreported⟩
  have hcut : passed ++ (taken ++ rest) = passed ++ taken ++ rest := by
    rw [List.append_assoc]
  exact
    ⟨passed ++ taken, rest, statements, last, path, start, stop, first, .trivia idle hblock, hcut,
      hdistinct, hrepeats, hreported⟩

theorem StopsAtImport.importing
    (path : String)
    (start place stop : Location)
    (stops :
      StopsAtImport (schema.push (.importing ⟨start.through stop, path⟩)) .clear ahead failure) :
    StopsAtImport schema margin
      (⟨.importWord, start⟩ :: ⟨.stringLiteral path, place⟩ :: ⟨.semicolon, stop⟩ :: ahead)
      failure := by
  rcases stops with
    ⟨taken, rest, statements, last, later, begun, ended, first, hblock, rfl, hdistinct, hrepeats,
      hreported⟩
  exact
    ⟨_, rest, ⟨start.through stop, path⟩ :: statements, last, later, begun, ended, first,
      .importing path start place stop hblock, rfl, hdistinct, hrepeats, hreported⟩

end StopsAtImport

/-- The imports of a text break as its grammar says, or at one of them that repeats another. -/
theorem imports_error
    {schema : Schema}
    {cursor : Cursor}
    {failure : Failure}
    (distinct : (importPaths schema.declarations).Nodup)
    (fails : Grammar.imports schema cursor = .error failure) :
    Breaks imports cursor.ahead failure ∨
      StopsAtImport schema cursor.margin cursor.ahead failure := by
  induction schema, cursor using imports.induct with
  | case1 schema cursor passed hpassed ih =>
      rw [Grammar.imports, hpassed] at fails
      rcases ih distinct fails with hbreaks | hstops
      · rcases trivia?_ahead hpassed with ⟨lexeme, hahead, hidle⟩
        exact Or.inl ((Leads.first hahead fun _ => idle_cons_mem_imports hidle).breaks hbreaks)
      · rcases Cursor.trivia?_sound hpassed with ⟨lexemes, next, htrivia, hcovers⟩
        rw [hcovers.margin] at hstops
        rw [hcovers.ahead]
        exact Or.inr (hstops.trivia htrivia)
  | case2 schema cursor hnone hnoImport =>
      rw [Grammar.imports, hnone, hnoImport] at fails
      simp at fails
  | case3 schema cursor hnone word hword ih =>
      rw [Grammar.imports, hnone, hword] at fails
      have hwordCovers := (Cursor.take?_covers (by simp [Token.importWord]) hword).detach
      by_cases hrepeats : ∃ path start stop, RepeatsImport schema cursor.ahead path start stop
      · rcases hrepeats with ⟨path, start, stop, hpath⟩
        rcases importing_of_repeatsImport hwordCovers hpath with ⟨first, hfirst⟩
        have hfails :
            (Except.error ⟨.duplicateImport path first, (start.through stop).span⟩ :
              Except Failure (Schema × Cursor)) = .error failure := by
          rw [← fails]
          simp only [hfirst, bind, Except.bind]
        cases hfails
        exact
          Or.inr ⟨[], _, [], _, path, start, stop, first, .nil _, rfl, distinct, hpath, rfl⟩
      · simp only [not_exists] at hrepeats
        have htells := importing_tells_imports hnone hword hrepeats
        cases hstatement : Grammar.importing schema word.detach with
        | error other =>
            simp only [hstatement, bind, Except.bind, Except.error.injEq] at fails
            subst fails
            exact Or.inl (htells.breaks hstatement)
        | ok statement =>
            simp only [hstatement, bind, Except.bind] at fails
            rcases importing_sound hwordCovers hstatement with
              ⟨path, place, stop, hvalue, hfresh, hcovers⟩
            have hextended :
                (importPaths (schema.push (.importing statement.value)).declarations).Nodup := by
              rw [Schema.nodup_importPaths_push_importing_iff, hvalue]
              exact ⟨distinct, hfresh⟩
            rcases ih statement hextended fails with hbreaks | hstops
            · exact Or.inl ((htells.leads hstatement).breaks hbreaks)
            · rw [hcovers.margin, hvalue] at hstops
              rw [hcovers.ahead]
              exact Or.inr (hstops.importing path word.value place stop)

end Kinds
end InterfaceSchema
