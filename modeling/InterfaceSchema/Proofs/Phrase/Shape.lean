import InterfaceSchema.Proofs.Phrase.Basic

/-!
# The shape of phrases

* `ValueList`: what stands between the parentheses of an annotation is cut at its commas. So an
  annotation is read in one way only (`AnnotationPhrase.unique`).
* `OpensWithName`: fields, groups, methods and declarations begin with an identifier, so that the
  first lexeme tells an item from a filler.
* `Plain`, `Ended`: no annotation begins inside a name, a type, or what ends with a semicolon.
* `Entries.split`: the stretch of one item of a body.
* `NoEnd`: the end of the text is no part of any phrase inside a schema.
* `SchemaPhrase.exists_parts`, `SchemaPhrase.exists_stretch`: the parts of a schema before its end,
  and the stretch of one declaration.
-/

namespace InterfaceSchema

/-! ## Value lists -/

/-- Two ways to cut a list at the first lexeme that is not of a kind are the same. -/
theorem cut_unique
    {Inner : Lexeme → Prop}
    {first second later rest : List Lexeme}
    {stop other : Lexeme}
    (firstInner : ∀ lexeme ∈ first, Inner lexeme)
    (secondInner : ∀ lexeme ∈ second, Inner lexeme)
    (stops : ¬ Inner stop)
    (stopsToo : ¬ Inner other)
    (same : first ++ stop :: later = second ++ other :: rest) :
    first = second ∧ stop = other ∧ later = rest := by
  induction first generalizing second with
  | nil =>
      cases second with
      | nil =>
          simp only [List.nil_append, List.cons.injEq] at same
          exact ⟨rfl, same⟩
      | cons lexeme more =>
          simp only [List.nil_append, List.cons_append, List.cons.injEq] at same
          rw [same.1] at stops
          exact absurd (secondInner lexeme (by simp)) stops
  | cons lexeme more ih =>
      cases second with
      | nil =>
          simp only [List.nil_append, List.cons_append, List.cons.injEq] at same
          rw [← same.1] at stopsToo
          exact absurd (firstInner lexeme (by simp)) stopsToo
      | cons lexeme' more' =>
          simp only [List.cons_append, List.cons.injEq] at same
          obtain ⟨hmore, hstop, hlater⟩ :=
            ih (fun found hmem => firstInner found (List.mem_cons_of_mem _ hmem))
              (fun found hmem => secondInner found (List.mem_cons_of_mem _ hmem)) same.2
          exact ⟨by rw [same.1, hmore], hstop, hlater⟩

namespace ValueList

/-- Between parentheses there are only words and commas. -/
theorem word_or_comma
    {inner : List Lexeme}
    {values : List String}
    (listed : ValueList inner values) :
    ∀ lexeme ∈ inner, lexeme.token.IsWord ∨ lexeme.token = .comma := by
  induction listed with
  | nil =>
      intro lexeme hmem
      simp at hmem
  | last whole =>
      intro lexeme hmem
      exact Or.inl (whole.2 lexeme hmem)
  | @comma run rest values place whole later ih =>
      intro lexeme hmem
      rcases List.mem_append.1 hmem with hrun | hrest
      · exact Or.inl (whole.2 lexeme hrun)
      · rcases List.mem_cons.1 hrest with rfl | hlater
        · exact Or.inr rfl
        · exact ih lexeme hlater

/-- A list without commas holds at most one value. -/
theorem eq_of_words
    {run : List Lexeme}
    {values : List String}
    (words : ∀ lexeme ∈ run, lexeme.token.IsWord)
    (listed : ValueList run values) :
    values = if run = [] then [] else [runValue run] := by
  cases listed with
  | nil =>
      simp
  | last whole =>
      simp [whole.1]
  | @comma before rest later place whole listed =>
      have hcomma := words ⟨.comma, place⟩ (by simp)
      exact absurd rfl hcomma.1

/-- The value before the first comma is not empty, and what follows is a list again. -/
theorem of_comma
    {run rest : List Lexeme}
    {place : Location}
    {values : List String}
    (words : ∀ lexeme ∈ run, lexeme.token.IsWord)
    (listed : ValueList (run ++ ⟨.comma, place⟩ :: rest) values) :
    ∃ later, IsRun run ∧ values = runValue run :: later ∧ ValueList rest later := by
  generalize hinner : run ++ ⟨.comma, place⟩ :: rest = inner at listed
  cases listed with
  | nil =>
      simp at hinner
  | last whole =>
      have hcomma := whole.2 ⟨.comma, place⟩ (by simp [← hinner])
      exact absurd rfl hcomma.1
  | @comma before later values' place' whole listed =>
      have hcomma (spot : Location) : ¬ (⟨.comma, spot⟩ : Lexeme).token.IsWord :=
        fun hword => hword.1 rfl
      obtain ⟨rfl, _, rfl⟩ := cut_unique words whole.2 (hcomma _) (hcomma _) hinner
      exact ⟨values', whole, rfl, listed⟩

/-- A list has its values in one way only. -/
theorem unique
    {inner : List Lexeme}
    {values others : List String}
    (first : ValueList inner values)
    (second : ValueList inner others) :
    values = others := by
  induction first generalizing others with
  | nil =>
      exact (second.eq_of_words (by simp)).symm
  | last whole =>
      rw [second.eq_of_words whole.2, if_neg whole.1]
  | comma place whole later ih =>
      obtain ⟨values', _, rfl, hlisted⟩ := second.of_comma whole.2
      rw [ih hlisted]

end ValueList

/-! ## First lexemes -/

/-- What follows does not begin with a given token. -/
def NoToken (token : Token) (rest : List Lexeme) : Prop :=
  ∀ place more, rest ≠ ⟨token, place⟩ :: more

theorem noToken_cons
    {token : Token}
    {lexeme : Lexeme}
    {rest : List Lexeme}
    (other : lexeme.token ≠ token) :
    NoToken token (lexeme :: rest) := by
  intro place more hsame
  simp only [List.cons.injEq] at hsame
  rw [hsame.1] at other
  exact other rfl

/-- From one place at most one annotation is read, if its value list belongs to it where it has
one. -/
theorem AnnotationPhrase.unique
    {taken taken' rest rest' : List Lexeme}
    {mark mark' : AnnotationMark}
    (first : AnnotationPhrase taken mark)
    (second : AnnotationPhrase taken' mark')
    (stops : NoToken .leftParen rest)
    (stopsToo : NoToken .leftParen rest')
    (same : taken ++ rest = taken' ++ rest') :
    taken = taken' ∧ mark = mark' := by
  cases first with
  | bare name place =>
      cases second with
      | bare name' place' =>
          simp only [List.singleton_append, List.cons.injEq, Lexeme.mk.injEq,
            Token.atName.injEq] at same
          rcases same with ⟨⟨rfl, rfl⟩, _⟩
          exact ⟨rfl, rfl⟩
      | list name' start opening closing listed =>
          simp only [List.cons_append, List.nil_append, List.cons.injEq] at same
          exact absurd same.2 (stops _ _)
  | @list inner values name start opening closing listed =>
      cases second with
      | bare name' place' =>
          simp only [List.cons_append, List.nil_append, List.cons.injEq] at same
          exact absurd same.2.symm (stopsToo _ _)
      | @list inner' values' name' start' opening' closing' listed' =>
          simp only [List.cons_append, List.append_assoc, List.nil_append, List.cons.injEq,
            Lexeme.mk.injEq, Token.atName.injEq] at same
          rcases same with ⟨⟨rfl, rfl⟩, ⟨_, rfl⟩, hinner⟩
          have hopen {inner : List Lexeme} {values : List String}
              (listed : ValueList inner values) :
              ∀ lexeme ∈ inner, lexeme.token ≠ .rightParen := by
            intro lexeme hmem
            rcases listed.word_or_comma lexeme hmem with hword | hcomma
            · exact hword.2.1
            · simp [hcomma]
          rcases cut_unique (hopen listed) (hopen listed') (by simp) (by simp) hinner with
            ⟨rfl, hclose, _⟩
          cases hclose
          rw [listed.unique listed']
          exact ⟨rfl, rfl⟩

/-- Every phrase of a kind begins with an identifier. -/
def OpensWithName {α : Type} (Item : Notes → List Lexeme → α → Prop) : Prop :=
  ∀ notes taken value,
    Item notes taken value → ∃ name place rest, taken = ⟨.ident name, place⟩ :: rest

theorem FieldPhrase.opensWithName : OpensWithName FieldPhrase := by
  rintro notes taken value ⟨start, noGroup, typed, indexed⟩
  exact ⟨_, _, _, rfl⟩

theorem MemberPhrase.opensWithName : OpensWithName MemberPhrase := by
  rintro notes taken value (⟨spelled⟩ | ⟨spelled⟩)
  · exact FieldPhrase.opensWithName _ _ _ spelled
  · cases spelled
    exact ⟨_, _, _, rfl⟩

theorem MethodPhrase.opensWithName : OpensWithName MethodPhrase := by
  rintro notes taken value ⟨name, start, opening, closing, stop, argument, result⟩
  exact ⟨_, _, _, rfl⟩

theorem DeclarationPhrase.opensWithName : OpensWithName DeclarationPhrase := by
  rintro notes taken value (⟨spelled⟩ | ⟨spelled⟩)
  · cases spelled
    exact ⟨_, _, _, rfl⟩
  · cases spelled
    exact ⟨_, _, _, rfl⟩

/-- Trivia is a single lexeme. -/
theorem Trivia.singleton
    {margin next : Margin}
    {taken : List Lexeme}
    (passed : Trivia margin taken next) :
    ∃ lexeme, taken = [lexeme] ∧ lexeme.IsIdle := by
  cases passed with
  | newline place =>
      exact ⟨_, rfl, Or.inl rfl⟩
  | comment text place =>
      exact ⟨_, rfl, Or.inr ⟨text, rfl⟩⟩

/-- The first lexeme of an annotation is its name. -/
theorem AnnotationPhrase.opens
    {taken : List Lexeme}
    {mark : AnnotationMark}
    (marked : AnnotationPhrase taken mark) :
    ∃ name place rest, taken = ⟨.atName name, place⟩ :: rest := by
  cases marked with
  | bare name place =>
      exact ⟨_, _, _, rfl⟩
  | list name start opening closing listed =>
      exact ⟨_, _, _, rfl⟩

theorem DottedName.opens
    {taken : List Lexeme}
    {name : String}
    (spelled : DottedName taken name) :
    ∃ first place rest, taken = ⟨.ident first, place⟩ :: rest := by
  cases spelled with
  | mk first place tail =>
      exact ⟨_, _, _, rfl⟩

theorem ResultPhrase.none_or_arrow
    {taken : List Lexeme}
    {type : String}
    {isStream : Bool}
    (spelled : ResultPhrase taken type isStream) :
    (taken = [] ∧ type = voidName ∧ isStream = false) ∨
      ∃ place rest, taken = ⟨.arrow, place⟩ :: rest := by
  cases spelled with
  | none =>
      exact Or.inl ⟨rfl, rfl, rfl⟩
  | single arrow place noStream tail =>
      exact Or.inr ⟨_, _, rfl⟩
  | stream arrow word spelled =>
      exact Or.inr ⟨_, _, rfl⟩

theorem PackagePhrase.opens
    {taken : List Lexeme}
    {clause : Package}
    (spelled : PackagePhrase taken clause) :
    ∃ place rest, taken = ⟨.packageWord, place⟩ :: rest := by
  cases spelled with
  | mk start stop spelled =>
      exact ⟨_, _, rfl⟩

/-- Tokens with which neither a filler nor an item begins. -/
structure Token.OpensNothing (token : Token) : Prop where
  noBreak : token ≠ .newline
  noComment : ∀ text, token ≠ .comment text
  noAnnotation : ∀ name, token ≠ .atName name
  noName : ∀ name, token ≠ .ident name

theorem Filler.noToken
    {token : Token}
    (opensNothing : token.OpensNothing)
    {margin next : Margin}
    {taken rest : List Lexeme}
    (passed : Filler margin taken next) :
    NoToken token (taken ++ rest) := by
  cases passed with
  | trivia passed =>
      obtain ⟨lexeme, rfl, hnewline | ⟨text, hcomment⟩⟩ := passed.singleton
      · apply noToken_cons
        rw [hnewline]
        exact opensNothing.noBreak.symm
      · apply noToken_cons
        rw [hcomment]
        exact (opensNothing.noComment text).symm
  | noted margin marked =>
      obtain ⟨name, place, more, rfl⟩ := marked.opens
      exact noToken_cons (opensNothing.noAnnotation name).symm

theorem OpensWithName.noToken
    {α : Type}
    {Item : Notes → List Lexeme → α → Prop}
    (opens : OpensWithName Item)
    {token : Token}
    (noName : ∀ name, token ≠ .ident name)
    {notes : Notes}
    {taken rest : List Lexeme}
    {value : α}
    (spelled : Item notes taken value) :
    NoToken token (taken ++ rest) := by
  obtain ⟨name, place, more, rfl⟩ := opens _ _ _ spelled
  exact noToken_cons (noName name).symm

theorem Entries.noToken
    {α : Type}
    {Item : Notes → List Lexeme → α → Prop}
    (opens : OpensWithName Item)
    {token : Token}
    (opensNothing : token.OpensNothing)
    {margin : Margin}
    {body rest : List Lexeme}
    {items : List α}
    (entries : Entries Item margin body items)
    (stops : NoToken token rest) :
    NoToken token (body ++ rest) := by
  cases entries with
  | nil =>
      exact stops
  | filler passed later =>
      rw [List.append_assoc]
      exact passed.noToken opensNothing
  | item spelled later =>
      rw [List.append_assoc]
      exact opens.noToken opensNothing.noName spelled

/-- Each item of a body has a stretch of its own, with the items before it and behind it on both
sides. -/
theorem Entries.split
    {α : Type}
    {Item : Notes → List Lexeme → α → Prop}
    {margin : Margin}
    {body : List Lexeme}
    {items before after : List α}
    {item : α}
    (entries : Entries Item margin body items)
    (whole : items = before ++ item :: after) :
    ∃ front notes taken behind,
      body = front ++ (taken ++ behind) ∧
        Entries Item margin front before ∧
        Item notes taken item ∧ Entries Item .clear behind after := by
  induction entries generalizing before with
  | nil margin =>
      simp at whole
  | @filler margin next lexemes rest items passed later ih =>
      rcases ih whole with ⟨front, notes, taken, behind, rfl, hfront, hspelled, hbehind⟩
      refine ⟨lexemes ++ front, notes, taken, behind, ?_, .filler passed hfront, hspelled, hbehind⟩
      rw [List.append_assoc]
  | @item margin lexemes rest value items spelled later ih =>
      cases before with
      | nil =>
          cases whole
          exact ⟨[], margin.waiting, lexemes, rest, rfl, .nil margin, spelled, later⟩
      | cons first before =>
          cases whole
          rcases ih rfl with ⟨front, notes, taken, behind, rfl, hfront, hspelled, hbehind⟩
          refine
            ⟨lexemes ++ front, notes, taken, behind, ?_, .item spelled hfront, hspelled, hbehind⟩
          rw [List.append_assoc]

/-- Each item of a body is spelled by lexemes of the body. -/
theorem Entries.exists_spelled
    {α : Type}
    {Item : Notes → List Lexeme → α → Prop}
    {margin : Margin}
    {body : List Lexeme}
    {items : List α}
    (entries : Entries Item margin body items)
    {item : α}
    (member : item ∈ items) :
    ∃ notes taken, Item notes taken item ∧ taken ⊆ body := by
  rcases List.append_of_mem member with ⟨before, after, hitems⟩
  rcases entries.split hitems with ⟨front, notes, taken, behind, rfl, _, hspelled, _⟩
  refine ⟨notes, taken, hspelled, ?_⟩
  exact List.subset_append_of_subset_right _ (List.subset_append_left _ _)

/-! ## The end of the text -/

/-- A stretch of lexemes inside a text. -/
def NoEnd (lexemes : List Lexeme) : Prop :=
  ∀ lexeme ∈ lexemes, lexeme.token ≠ .eof

@[simp]
theorem noEnd_nil : NoEnd [] := by
  simp [NoEnd]

@[simp]
theorem noEnd_cons {lexeme : Lexeme} {rest : List Lexeme} :
    NoEnd (lexeme :: rest) ↔ lexeme.token ≠ .eof ∧ NoEnd rest := by
  simp [NoEnd]

@[simp]
theorem noEnd_append {first second : List Lexeme} :
    NoEnd (first ++ second) ↔ NoEnd first ∧ NoEnd second :=
  List.forall_mem_append

/-- A stretch of lexemes inside a text that no annotation begins in. -/
def Plain (lexemes : List Lexeme) : Prop :=
  ∀ lexeme ∈ lexemes, lexeme.token ≠ .eof ∧ ∀ name, lexeme.token ≠ .atName name

@[simp]
theorem plain_nil : Plain [] := by
  simp [Plain]

@[simp]
theorem plain_cons {lexeme : Lexeme} {rest : List Lexeme} :
    Plain (lexeme :: rest) ↔
      (lexeme.token ≠ .eof ∧ ∀ name, lexeme.token ≠ .atName name) ∧ Plain rest := by
  simp [Plain]

@[simp]
theorem plain_append {first second : List Lexeme} :
    Plain (first ++ second) ↔ Plain first ∧ Plain second :=
  List.forall_mem_append

theorem Plain.noEnd {lexemes : List Lexeme} (plain : Plain lexemes) : NoEnd lexemes :=
  fun lexeme hmem => (plain lexeme hmem).1

theorem DottedTail.plain
    {taken : List Lexeme}
    {text : String}
    (tail : DottedTail taken text) :
    Plain taken := by
  induction tail with
  | nil =>
      simp
  | cons part dot place later ih =>
      simpa using ih

theorem DottedName.plain
    {taken : List Lexeme}
    {name : String}
    (spelled : DottedName taken name) :
    Plain taken := by
  cases spelled with
  | mk first place tail =>
      simpa using tail.plain

theorem TypePhrase.plain
    {taken : List Lexeme}
    {type : FieldType}
    (spelled : TypePhrase taken type) :
    Plain taken := by
  induction spelled with
  | primitive place spelled =>
      simp
  | array word opening closing spelled ih =>
      simpa [Token.arrayWord] using ih
  | map word opening place comma closing keySpelled allowed spelled ih =>
      simpa [Token.mapWord] using ih
  | reference place noPrimitive noArray noMap tail =>
      simpa using tail.plain

theorem ArgumentPhrase.plain
    {taken : List Lexeme}
    {name : String}
    (spelled : ArgumentPhrase taken name) :
    Plain taken := by
  cases spelled with
  | none =>
      simp
  | named spelled =>
      exact spelled.plain

theorem ResultPhrase.plain
    {taken : List Lexeme}
    {name : String}
    {isStream : Bool}
    (spelled : ResultPhrase taken name isStream) :
    Plain taken := by
  cases spelled with
  | none =>
      simp
  | single arrow place noStream tail =>
      simpa using tail.plain
  | stream arrow word spelled =>
      simpa [Token.streamWord] using spelled.plain

/-! What ends with a semicolon is plain, and the semicolon is its last lexeme. -/

/-- Plain lexemes and a semicolon. -/
def Ended (taken : List Lexeme) : Prop :=
  ∃ front stop, taken = front ++ [⟨.semicolon, stop⟩] ∧ Plain front

theorem Ended.noEnd {taken : List Lexeme} (ended : Ended taken) : NoEnd taken := by
  rcases ended with ⟨front, stop, rfl, hplain⟩
  simp [hplain.noEnd]

theorem Ended.append
    {first second : List Lexeme}
    (plain : Plain first)
    (ended : Ended second) :
    Ended (first ++ second) := by
  rcases ended with ⟨front, stop, rfl, hfront⟩
  exact ⟨first ++ front, stop, by simp, plain_append.2 ⟨plain, hfront⟩⟩

theorem IndexPhrase.ended
    {taken : List Lexeme}
    {number : UInt64}
    {stop : Location}
    (indexed : IndexPhrase taken number stop) :
    Ended taken := by
  cases indexed with
  | mk number equals digits stop =>
      exact ⟨[⟨.equals, equals⟩, ⟨.number number, digits⟩], stop, rfl, by simp⟩

theorem FieldPhrase.ended
    {notes : Notes}
    {taken : List Lexeme}
    {field : Field}
    (spelled : FieldPhrase notes taken field) :
    Ended taken := by
  cases spelled with
  | @mk typeLexemes indexLexemes name type number stop start noGroup typed indexed =>
      rw [← List.cons_append]
      exact Ended.append (by simp [typed.plain]) indexed.ended

theorem MethodPhrase.ended
    {notes : Notes}
    {taken : List Lexeme}
    {method : Method}
    (spelled : MethodPhrase notes taken method) :
    Ended taken := by
  cases spelled with
  | @mk argument result argumentType returnType returnsStream name start opening closing stop
      argumentSpelled resultSpelled =>
      refine ⟨⟨.ident name, start⟩ :: ⟨.leftParen, opening⟩ ::
        (argument ++ ⟨.rightParen, closing⟩ :: result), stop, by simp, ?_⟩
      simp [argumentSpelled.plain, resultSpelled.plain]

theorem PackagePhrase.ended
    {taken : List Lexeme}
    {clause : Package}
    (spelled : PackagePhrase taken clause) :
    Ended taken := by
  cases spelled with
  | @mk nameLexemes name start stop spelled =>
      refine ⟨⟨.packageWord, start⟩ :: nameLexemes, stop, rfl, ?_⟩
      simp [Token.packageWord, spelled.plain]

/-! No other phrase holds the end of the text either. -/

theorem ValueList.noEnd
    {inner : List Lexeme}
    {values : List String}
    (listed : ValueList inner values) :
    NoEnd inner := by
  intro lexeme hmem
  rcases listed.word_or_comma lexeme hmem with hword | hcomma
  · exact hword.2.2.2
  · simp [hcomma]

theorem AnnotationPhrase.noEnd
    {taken : List Lexeme}
    {mark : AnnotationMark}
    (marked : AnnotationPhrase taken mark) :
    NoEnd taken := by
  cases marked with
  | bare name place =>
      simp
  | list name start opening closing listed =>
      simpa using listed.noEnd

theorem Trivia.noEnd
    {margin next : Margin}
    {taken : List Lexeme}
    (passed : Trivia margin taken next) :
    NoEnd taken := by
  obtain ⟨lexeme, rfl, hnewline | ⟨text, hcomment⟩⟩ := passed.singleton
  · simp [hnewline]
  · simp [hcomment]

theorem Filler.noEnd
    {margin next : Margin}
    {taken : List Lexeme}
    (passed : Filler margin taken next) :
    NoEnd taken := by
  cases passed with
  | trivia passed =>
      exact passed.noEnd
  | noted margin marked =>
      exact marked.noEnd

theorem Entries.noEnd
    {α : Type}
    {Item : Notes → List Lexeme → α → Prop}
    (itemNoEnd : ∀ {notes taken value}, Item notes taken value → NoEnd taken)
    {margin : Margin}
    {body : List Lexeme}
    {items : List α}
    (entries : Entries Item margin body items) :
    NoEnd body := by
  induction entries with
  | nil =>
      simp
  | filler passed later ih =>
      exact noEnd_append.2 ⟨passed.noEnd, ih⟩
  | item spelled later ih =>
      exact noEnd_append.2 ⟨itemNoEnd spelled, ih⟩

theorem MemberPhrase.noEnd
    {notes : Notes}
    {taken : List Lexeme}
    {member : Member}
    (spelled : MemberPhrase notes taken member) :
    NoEnd taken := by
  cases spelled with
  | field spelled =>
      exact spelled.ended.noEnd
  | oneof spelled =>
      cases spelled with
      | mk start opening closing entries indexed =>
          have hbody := entries.noEnd fun field => field.ended.noEnd
          simp [Token.oneofWord, hbody, indexed.ended.noEnd]

theorem DeclarationPhrase.noEnd
    {notes : Notes}
    {taken : List Lexeme}
    {declaration : Declaration}
    (spelled : DeclarationPhrase notes taken declaration) :
    NoEnd taken := by
  cases spelled with
  | message spelled =>
      cases spelled with
      | mk name start place opening closing entries =>
          have hbody := entries.noEnd MemberPhrase.noEnd
          simp [Token.messageWord, hbody]
  | service spelled =>
      cases spelled with
      | mk name start place opening closing entries =>
          have hbody := entries.noEnd fun method => method.ended.noEnd
          simp [Token.serviceWord, hbody]

theorem ImportBlock.noEnd
    {margin last : Margin}
    {taken : List Lexeme}
    {imports : List Import}
    (imported : ImportBlock margin taken imports last) :
    NoEnd taken := by
  induction imported with
  | nil =>
      simp
  | trivia passed later ih =>
      exact noEnd_append.2 ⟨passed.noEnd, ih⟩
  | importing path start place stop later ih =>
      simpa [Token.importWord] using ih

/-! ## Whole schemas -/

/-- The parts of a schema before its end. -/
theorem SchemaPhrase.exists_parts
    {front : List Lexeme}
    {stop : Location}
    {declarations : List Declaration}
    (spelled : SchemaPhrase (front ++ [⟨.eof, stop⟩]) declarations) :
    ∃ leading clauseLexemes importLexemes body clause imports margin items,
      front = leading ++ (clauseLexemes ++ (importLexemes ++ body)) ∧
        declarations = .package clause :: (imports.map .importing ++ items) ∧
        (∀ lexeme ∈ leading, lexeme.IsIdle) ∧
        PackagePhrase clauseLexemes clause ∧
        ImportBlock .clear importLexemes imports margin ∧
        Entries DeclarationPhrase margin body items := by
  generalize hwhole : front ++ [⟨.eof, stop⟩] = lexemes at spelled
  cases spelled with
  | @mk leading clauseLexemes importLexemes body clause imports margin items last idle packaged
      imported entries =>
      have hsame :
          front ++ [⟨.eof, stop⟩] =
            (leading ++ (clauseLexemes ++ (importLexemes ++ body))) ++ [⟨.eof, last⟩] := by
        rw [hwhole]
        simp
      exact
        ⟨leading, clauseLexemes, importLexemes, body, clause, imports, margin, items,
          (List.append_inj' hsame rfl).1, rfl, idle, packaged, imported, entries⟩

/-- Each message and service of a schema has a stretch of its own. -/
theorem SchemaPhrase.exists_stretch
    {lexemes : List Lexeme}
    {declarations : List Declaration}
    (spelled : SchemaPhrase lexemes declarations)
    {declaration : Declaration}
    (member : declaration ∈ declarations)
    (named : declaration.name? ≠ none) :
    ∃ front notes taken behind,
      lexemes = front ++ (taken ++ behind) ∧ DeclarationPhrase notes taken declaration := by
  cases spelled with
  | @mk leading clauseLexemes importLexemes body clause imports margin items stop idle packaged
      imported entries =>
      have hitem : declaration ∈ items := by
        rcases List.mem_cons.1 member with rfl | hrest
        · exact absurd rfl named
        · rcases List.mem_append.1 hrest with himport | hitem
          · rcases List.mem_map.1 himport with ⟨statement, _, rfl⟩
            exact absurd rfl named
          · exact hitem
      rcases List.append_of_mem hitem with ⟨before, after, hitems⟩
      rcases entries.split hitems with ⟨front, notes, taken, behind, rfl, _, hspelled, _⟩
      refine
        ⟨leading ++ (clauseLexemes ++ (importLexemes ++ front)), notes, taken,
          behind ++ [⟨.eof, stop⟩], ?_, hspelled⟩
      simp

end InterfaceSchema
