import InterfaceSchema.Proofs.Kinds.Grammar
import InterfaceSchema.Proofs.Phrase.Shape

/-!
# Phrases and their kinds

The language `Kinds.schema` holds just the kinds of whole schemas: a stretch of lexemes is a phrase
of the schema language exactly if its kinds are a word of the rule for it
(`Kinds.schemaPhrase_spells`). What the lexemes spell besides makes no difference to that.
-/

open scoped Computability

namespace InterfaceSchema
namespace Kinds

/-! ## Cutting lexemes as their kinds are cut -/

section Cutting

variable {lexemes : List Lexeme} {K L M : Language Kind} {kind : Kind}

theorem kinds_mem_mul :
    kinds lexemes ∈ L * M ↔
      ∃ first second, lexemes = first ++ second ∧ kinds first ∈ L ∧ kinds second ∈ M := by
  rw [Language.mem_mul]
  constructor
  · rintro ⟨front, hfront, back, hback, hsame⟩
    rcases kinds_eq_append_iff.1 hsame.symm with ⟨first, second, rfl, rfl, rfl⟩
    exact ⟨first, second, rfl, hfront, hback⟩
  · rintro ⟨first, second, rfl, hfirst, hsecond⟩
    exact ⟨_, hfirst, _, hsecond, (kinds_append first second).symm⟩

theorem kinds_mem_among_mul {Allowed : Kind → Prop} :
    kinds lexemes ∈ among Allowed * K ↔
      ∃ lexeme rest, lexemes = lexeme :: rest ∧ Allowed lexeme.kind ∧ kinds rest ∈ K := by
  cases lexemes with
  | nil =>
      simp [mem_among_mul]
  | cons lexeme rest =>
      rw [kinds_cons, cons_mem_among_mul]
      simp

theorem kinds_mem_among {Allowed : Kind → Prop} :
    kinds lexemes ∈ among Allowed ↔ ∃ lexeme, lexemes = [lexeme] ∧ Allowed lexeme.kind := by
  rw [← mul_one (among Allowed), kinds_mem_among_mul]
  simp

theorem kinds_mem_token_mul (token : Token) (fixed : token.IsFixed) :
    kinds lexemes ∈ one token.kind * K ↔
      ∃ place rest, lexemes = ⟨token, place⟩ :: rest ∧ kinds rest ∈ K := by
  unfold one
  rw [kinds_mem_among_mul]
  constructor
  · rintro ⟨⟨other, place⟩, rest, rfl, hkind, hrest⟩
    have hother : other = token := Token.eq_of_kind_eq fixed hkind
    subst hother
    exact ⟨place, rest, rfl, hrest⟩
  · rintro ⟨place, rest, rfl, hrest⟩
    exact ⟨_, rest, rfl, rfl, hrest⟩

theorem kinds_mem_named_mul {Fits : String → Prop} :
    kinds lexemes ∈ named Fits * K ↔
      ∃ name place rest,
        lexemes = ⟨.ident name, place⟩ :: rest ∧ Fits name ∧ kinds rest ∈ K := by
  cases lexemes with
  | nil =>
      simp [mem_named_mul]
  | cons lexeme rest =>
      rcases lexeme with ⟨token, place⟩
      rw [kinds_cons, mem_named_mul]
      constructor
      · rintro ⟨name, later, hsame, hfits, hlater⟩
        rw [List.cons.injEq] at hsame
        have htoken : token = .ident name := Token.kind_eq_ident_iff.1 hsame.1
        rw [← hsame.2] at hlater
        exact ⟨name, place, rest, by rw [htoken], hfits, hlater⟩
      · rintro ⟨name, place', rest', hsame, hfits, hrest⟩
        cases hsame
        exact ⟨name, _, rfl, hfits, hrest⟩

theorem kinds_mem_token (token : Token) (fixed : token.IsFixed) :
    kinds lexemes ∈ one token.kind ↔ ∃ place, lexemes = [⟨token, place⟩] := by
  rw [← mul_one (one token.kind), kinds_mem_token_mul token fixed]
  simp

theorem kinds_mem_named {Fits : String → Prop} :
    kinds lexemes ∈ named Fits ↔ ∃ name place, lexemes = [⟨.ident name, place⟩] ∧ Fits name := by
  rw [← mul_one (named Fits), kinds_mem_named_mul]
  simp

theorem append_mem_kstar
    {front back : List Kind}
    (first : front ∈ L)
    (rest : back ∈ L∗) :
    front ++ back ∈ L∗ := by
  rw [← Language.one_add_self_mul_kstar_eq_kstar]
  exact Or.inr (Language.append_mem_mul first rest)

theorem append_mem_kstar_of_mem
    {front back : List Kind}
    (rounds : front ∈ L∗)
    (last : back ∈ L) :
    front ++ back ∈ L∗ := by
  rw [← Language.one_add_kstar_mul_self_eq_kstar]
  exact Or.inr (Language.append_mem_mul rounds last)

/-- What holds of no round, and of one round more whenever it holds of those behind it, holds of any
number of rounds. -/
theorem kinds_kstar_induction
    {motive : List Lexeme → Prop}
    (nil : motive [])
    (append :
      ∀ first second, kinds first ∈ L → motive second → motive (first ++ second))
    (member : kinds lexemes ∈ L∗) :
    motive lexemes := by
  rcases Language.mem_kstar.1 member with ⟨rounds, hsame, hrounds⟩
  clear member
  induction rounds generalizing lexemes with
  | nil =>
      rw [kinds_eq_nil_iff.1 hsame]
      exact nil
  | cons round rounds ih =>
      rw [List.flatten_cons] at hsame
      rcases kinds_eq_append_iff.1 hsame with ⟨first, second, rfl, rfl, hsecond⟩
      refine append first second (hrounds _ (by simp)) (ih hsecond ?_)
      intro other hother
      exact hrounds other (List.mem_cons_of_mem _ hother)

theorem kinds_mem_among_kstar {Allowed : Kind → Prop} :
    kinds lexemes ∈ (among Allowed)∗ ↔ ∀ lexeme ∈ lexemes, Allowed lexeme.kind := by
  constructor
  · refine
      kinds_kstar_induction
        (motive := fun lexemes => ∀ lexeme ∈ lexemes, Allowed lexeme.kind) (by simp) ?_
    intro first rest hfirst hrest
    rcases kinds_mem_among.1 hfirst with ⟨lexeme, rfl, hallowed⟩
    rw [List.singleton_append, List.forall_mem_cons]
    exact ⟨hallowed, hrest⟩
  · intro hallowed
    induction lexemes with
    | nil =>
        exact Language.nil_mem_kstar _
    | cons lexeme rest ih =>
        rw [List.forall_mem_cons] at hallowed
        have hfirst : [lexeme.kind] ∈ among Allowed := ⟨_, hallowed.1, rfl⟩
        exact append_mem_kstar hfirst (ih hallowed.2)

end Cutting

/-- Lexemes make a phrase exactly if their kinds are a word of a language. -/
def Spells {α : Type} (Phrase : List Lexeme → α → Prop) (L : Language Kind) : Prop :=
  ∀ lexemes, (∃ value, Phrase lexemes value) ↔ kinds lexemes ∈ L

/-! ## Names and types -/

theorem dottedTail_spells : Spells DottedTail dottedTail := by
  intro lexemes
  constructor
  · rintro ⟨text, htail⟩
    induction htail with
    | nil =>
        exact Language.nil_mem_kstar _
    | cons part dot place later ih =>
        have hround : [.dot, .ident part] ∈ one .dot * name :=
          cons_mem_one_mul.2 ⟨rfl, mem_named.2 ⟨part, trivial, rfl⟩⟩
        exact append_mem_kstar hround ih
  · refine
      kinds_kstar_induction (motive := fun lexemes => ∃ text, DottedTail lexemes text)
        ⟨"", .nil⟩ ?_
    rintro first rest hfirst ⟨text, htail⟩
    rcases (kinds_mem_token_mul .dot rfl).1 hfirst with ⟨dot, _, rfl, hname⟩
    rcases kinds_mem_named.1 hname with ⟨part, place, rfl, _⟩
    exact ⟨_, .cons part dot place htail⟩

theorem dottedName_spells : Spells DottedName dotted := by
  intro lexemes
  unfold dotted name
  rw [kinds_mem_named_mul]
  constructor
  · rintro ⟨_, @⟨rest, text, first, place, tail⟩⟩
    exact ⟨first, place, rest, rfl, trivial, (dottedTail_spells rest).1 ⟨text, tail⟩⟩
  · rintro ⟨first, place, rest, rfl, _, hrest⟩
    rcases (dottedTail_spells rest).2 hrest with ⟨text, htail⟩
    exact ⟨_, .mk first place htail⟩

theorem typePhrase_spells : Spells TypePhrase type := by
  intro lexemes
  constructor
  · rintro ⟨type, htype⟩
    show IsType (kinds lexemes)
    induction htype with
    | primitive place spelled =>
        exact .primitive ⟨_, spelled⟩
    | array word opening closing spelled ih =>
        rw [kinds_cons, kinds_cons, kinds_append]
        exact .array ih
    | map word opening place comma closing keySpelled allowed spelled ih =>
        rw [kinds_cons, kinds_cons, kinds_cons, kinds_cons, kinds_append]
        exact .map ⟨_, keySpelled, allowed⟩ ih
    | reference place noPrimitive noArray noMap tail =>
        refine .reference ⟨noPrimitive, ?_, ?_⟩ ((dottedTail_spells _).1 ⟨_, tail⟩)
        · intro hname
          exact noArray (congrArg Token.ident hname)
        · intro hname
          exact noMap (congrArg Token.ident hname)
  · intro hmember
    induction hlength : lexemes.length using Nat.strong_induction_on generalizing lexemes with
    | _ length ih =>
      have hclosed
          {rest : List Lexeme}
          (hrest : kinds rest ∈ type * one .rightAngle)
          (hshorter : rest.length < length) :
          ∃ inner closing type,
            rest = inner ++ [⟨.rightAngle, closing⟩] ∧ TypePhrase inner type := by
        rcases kinds_mem_mul.1 hrest with ⟨inner, last, rfl, hinner, hlast⟩
        rcases (kinds_mem_token .rightAngle rfl).1 hlast with ⟨closing, rfl⟩
        rw [List.length_append] at hshorter
        rcases ih inner.length (by omega) inner hinner rfl with ⟨type, htype⟩
        exact ⟨inner, closing, type, rfl, htype⟩
      rw [type_eq, Language.mem_add, Language.mem_add, Language.mem_add] at hmember
      rcases hmember with hprimitive | harray | hmap | hreference
      · rcases kinds_mem_named.1 hprimitive with ⟨name, place, rfl, type, htype⟩
        exact ⟨_, .primitive place htype⟩
      · rcases (kinds_mem_token_mul .arrayWord rfl).1 harray with ⟨word, _, rfl, hopened⟩
        rcases (kinds_mem_token_mul .leftAngle rfl).1 hopened with ⟨opening, rest, rfl, hrest⟩
        have hshorter : rest.length < length := by
          simp only [← hlength, List.length_cons]
          omega
        rcases hclosed hrest hshorter with ⟨inner, closing, type, rfl, htype⟩
        exact ⟨_, .array word opening closing htype⟩
      · rcases (kinds_mem_token_mul .mapWord rfl).1 hmap with ⟨word, _, rfl, hopened⟩
        rcases (kinds_mem_token_mul .leftAngle rfl).1 hopened with ⟨opening, _, rfl, hkeyed⟩
        rcases kinds_mem_named_mul.1 hkeyed with
          ⟨keyName, place, _, rfl, ⟨key, hkey, hallowed⟩, hparted⟩
        rcases (kinds_mem_token_mul .comma rfl).1 hparted with ⟨comma, rest, rfl, hrest⟩
        have hshorter : rest.length < length := by
          simp only [← hlength, List.length_cons]
          omega
        rcases hclosed hrest hshorter with ⟨inner, closing, type, rfl, htype⟩
        exact ⟨_, .map word opening place comma closing hkey hallowed htype⟩
      · rcases kinds_mem_named_mul.1 hreference with
          ⟨name, place, rest, rfl, ⟨hprimitive, harray, hmap⟩, hrest⟩
        rcases (dottedTail_spells rest).2 hrest with ⟨text, htail⟩
        refine ⟨_, .reference place hprimitive ?_ ?_ htail⟩
        · simpa [Token.arrayWord] using harray
        · simpa [Token.mapWord] using hmap

theorem indexPhrase_spells (lexemes : List Lexeme) :
    (∃ number stop, IndexPhrase lexemes number stop) ↔ kinds lexemes ∈ index := by
  constructor
  · rintro ⟨_, _, ⟨number, equals, digits, stop⟩⟩
    exact cons_mem_one_mul.2 ⟨rfl, cons_mem_one_mul.2 ⟨rfl, mem_one.2 rfl⟩⟩
  · intro hmember
    rcases (kinds_mem_token_mul .equals rfl).1 hmember with ⟨equals, rest, rfl, hrest⟩
    rcases kinds_mem_among_mul.1 hrest with ⟨⟨token, digits⟩, rest, rfl, hnumber, hstop⟩
    rcases (kinds_mem_token .semicolon rfl).1 hstop with ⟨stop, rfl⟩
    cases token with
    | number number =>
      exact ⟨number, stop, .mk number equals digits stop⟩
    | _ =>
      cases hnumber

/-! ## Annotations -/

theorem isWord_kind_iff {token : Token} : IsWord token.kind ↔ token.IsWord := by
  unfold IsWord Token.IsWord
  cases token <;> simp [Token.kind]

theorem words_iff {lexemes : List Lexeme} :
    (∀ lexeme ∈ lexemes, lexeme.token.IsWord) ↔ kinds lexemes ∈ word∗ := by
  unfold word
  rw [kinds_mem_among_kstar]
  simp only [Lexeme.kind, isWord_kind_iff]

theorem isRun_iff {lexemes : List Lexeme} : IsRun lexemes ↔ kinds lexemes ∈ run := by
  constructor
  · rintro ⟨hbegun, hwords⟩
    cases lexemes with
    | nil =>
        exact absurd rfl hbegun
    | cons lexeme rest =>
        rw [List.forall_mem_cons] at hwords
        exact cons_mem_among_mul.2 ⟨isWord_kind_iff.2 hwords.1, words_iff.1 hwords.2⟩
  · intro hmember
    rcases kinds_mem_among_mul.1 hmember with ⟨lexeme, rest, rfl, hword, hrest⟩
    refine ⟨by simp, ?_⟩
    rw [List.forall_mem_cons]
    exact ⟨isWord_kind_iff.1 hword, words_iff.2 hrest⟩

theorem values_eq : values = 1 + run * (1 + one .comma * values) := by
  have hlater : laterValues = 1 + one .comma * values := by
    simpa using laterValues_mul_eq (K := 1)
  rw [← hlater]
  rfl

theorem valueList_spells : Spells ValueList values := by
  intro lexemes
  constructor
  · rintro ⟨_, hlisted⟩
    induction hlisted with
    | nil =>
        exact Or.inl rfl
    | last whole =>
        rw [values_eq, Language.mem_add]
        refine Or.inr (kinds_mem_mul.2 ⟨_, [], (List.append_nil _).symm, isRun_iff.1 whole, ?_⟩)
        exact Or.inl rfl
    | comma place whole later ih =>
        rw [values_eq, Language.mem_add]
        refine Or.inr (kinds_mem_mul.2 ⟨_, _, rfl, isRun_iff.1 whole, ?_⟩)
        exact Or.inr (cons_mem_one_mul.2 ⟨rfl, ih⟩)
  · intro hmember
    induction hlength : lexemes.length using Nat.strong_induction_on generalizing lexemes with
    | _ length ih =>
      rw [values_eq, Language.mem_add] at hmember
      rcases hmember with hnil | hrun
      · rw [kinds_eq_nil_iff.1 hnil]
        exact ⟨[], .nil⟩
      · rcases kinds_mem_mul.1 hrun with ⟨first, rest, rfl, hfirst, hrest⟩
        have hwhole := isRun_iff.2 hfirst
        rw [Language.mem_add] at hrest
        rcases hrest with hnil | hcomma
        · rw [kinds_eq_nil_iff.1 hnil, List.append_nil]
          exact ⟨_, .last hwhole⟩
        · rcases (kinds_mem_token_mul .comma rfl).1 hcomma with ⟨place, later, rfl, hlater⟩
          have hshorter : later.length < length := by
            simp only [← hlength, List.length_append, List.length_cons]
            omega
          rcases ih later.length hshorter later hlater rfl with ⟨values, hvalues⟩
          exact ⟨_, .comma place hwhole hvalues⟩

theorem annotationPhrase_spells : Spells AnnotationPhrase annotation := by
  intro lexemes
  unfold annotation annotationRest
  constructor
  · rintro ⟨_, hmarked⟩
    cases hmarked with
    | bare name place =>
        exact cons_mem_one_mul.2 ⟨rfl, Or.inl rfl⟩
    | @list inner values name start opening closing listed =>
        refine cons_mem_one_mul.2 ⟨rfl, Or.inr (cons_mem_one_mul.2 ⟨rfl, ?_⟩)⟩
        refine kinds_mem_mul.2 ⟨inner, _, rfl, (valueList_spells inner).1 ⟨values, listed⟩, ?_⟩
        exact mem_one.2 rfl
  · intro hmember
    rcases kinds_mem_among_mul.1 hmember with ⟨⟨token, start⟩, rest, rfl, htoken, hrest⟩
    have hname : ∃ name, token = .atName name := by
      cases token <;> cases htoken
      exact ⟨_, rfl⟩
    rcases hname with ⟨name, rfl⟩
    rw [Language.mem_add] at hrest
    rcases hrest with hnil | hlist
    · rw [kinds_eq_nil_iff.1 hnil]
      exact ⟨_, .bare name start⟩
    · rcases (kinds_mem_token_mul .leftParen rfl).1 hlist with ⟨opening, _, rfl, hvalues⟩
      rcases kinds_mem_mul.1 hvalues with ⟨inner, _, rfl, hinner, hclose⟩
      rcases (kinds_mem_token .rightParen rfl).1 hclose with ⟨closing, rfl⟩
      rcases (valueList_spells inner).2 hinner with ⟨values, hlisted⟩
      exact ⟨_, .list name start opening closing hlisted⟩

theorem isIdle_kind_iff {lexeme : Lexeme} : IsIdle lexeme.kind ↔ lexeme.IsIdle := by
  rcases lexeme with ⟨token, place⟩
  unfold IsIdle Lexeme.IsIdle Lexeme.kind
  cases token <;> simp [Token.kind]

theorem trivia_spells (margin : Margin) : Spells (Trivia margin) trivia := by
  intro lexemes
  unfold trivia
  rw [kinds_mem_among]
  constructor
  · rintro ⟨next, hpassed⟩
    rcases hpassed.singleton with ⟨lexeme, rfl, hidle⟩
    exact ⟨lexeme, rfl, isIdle_kind_iff.2 hidle⟩
  · rintro ⟨⟨token, place⟩, rfl, hidle⟩
    rcases isIdle_kind_iff.1 hidle with hnewline | ⟨text, hcomment⟩
    · cases hnewline
      exact ⟨_, .newline margin place⟩
    · cases hcomment
      exact ⟨_, .comment margin text place⟩

theorem filler_spells (margin : Margin) : Spells (Filler margin) filler := by
  intro lexemes
  unfold filler
  rw [Language.mem_add, ← trivia_spells margin lexemes, ← annotationPhrase_spells lexemes]
  constructor
  · rintro ⟨next, hpassed⟩
    cases hpassed with
    | trivia passed =>
        exact Or.inl ⟨_, passed⟩
    | noted _ marked =>
        exact Or.inr ⟨_, marked⟩
  · rintro (⟨next, hpassed⟩ | ⟨mark, hmarked⟩)
    · exact ⟨next, .trivia hpassed⟩
    · exact ⟨_, .noted margin hmarked⟩

/-! ## Items -/

section Items

variable {α : Type} {Item : Notes → List Lexeme → α → Prop} {item : Language Kind}

theorem entries_spells
    (items : ∀ notes, Spells (Item notes) item)
    (margin : Margin) :
    Spells (Entries Item margin) (entries item) := by
  intro lexemes
  constructor
  · rintro ⟨_, hentries⟩
    induction hentries with
    | nil margin =>
        exact Language.nil_mem_kstar _
    | filler passed later ih =>
        rw [kinds_append]
        exact append_mem_kstar (Or.inl ((filler_spells _ _).1 ⟨_, passed⟩)) ih
    | item spelled later ih =>
        rw [kinds_append]
        exact append_mem_kstar (Or.inr ((items _ _).1 ⟨_, spelled⟩)) ih
  · intro hmember
    refine
      kinds_kstar_induction
        (motive := fun lexemes => ∀ margin, ∃ values, Entries Item margin lexemes values)
        (fun margin => ⟨[], .nil margin⟩) ?_ hmember margin
    intro first rest hfirst hrest margin
    rw [Language.mem_add] at hfirst
    rcases hfirst with hfiller | hitem
    · rcases (filler_spells margin first).2 hfiller with ⟨next, hpassed⟩
      rcases hrest next with ⟨values, hvalues⟩
      exact ⟨values, .filler hpassed hvalues⟩
    · rcases (items margin.waiting first).2 hitem with ⟨value, hvalue⟩
      rcases hrest .clear with ⟨values, hvalues⟩
      exact ⟨value :: values, .item hvalue hvalues⟩

theorem kinds_mem_block {lexemes : List Lexeme} :
    kinds lexemes ∈ block item ↔
      ∃ opening body closing,
        lexemes = ⟨.leftBrace, opening⟩ :: (body ++ [⟨.rightBrace, closing⟩]) ∧
          kinds body ∈ entries item := by
  constructor
  · intro hmember
    rcases (kinds_mem_token_mul .leftBrace rfl).1 hmember with ⟨opening, _, rfl, hrest⟩
    rcases kinds_mem_mul.1 hrest with ⟨body, _, rfl, hbody, hclose⟩
    rcases (kinds_mem_token .rightBrace rfl).1 hclose with ⟨closing, rfl⟩
    exact ⟨opening, body, closing, rfl, hbody⟩
  · rintro ⟨opening, body, closing, rfl, hbody⟩
    refine cons_mem_one_mul.2 ⟨rfl, kinds_mem_mul.2 ⟨body, _, rfl, hbody, ?_⟩⟩
    exact mem_one.2 rfl

/-- A word, a name, and a block. -/
theorem kinds_mem_namedBlock {lexemes : List Lexeme} (token : Token) (fixed : token.IsFixed) :
    kinds lexemes ∈ one token.kind * (name * block item) ↔
      ∃ start name place opening body closing,
        lexemes =
            ⟨token, start⟩ :: ⟨.ident name, place⟩ :: ⟨.leftBrace, opening⟩ ::
              (body ++ [⟨.rightBrace, closing⟩]) ∧
          kinds body ∈ entries item := by
  rw [kinds_mem_token_mul token fixed]
  constructor
  · rintro ⟨start, _, rfl, hrest⟩
    rcases kinds_mem_named_mul.1 hrest with ⟨name, place, _, rfl, _, hblock⟩
    rcases kinds_mem_block.1 hblock with ⟨opening, body, closing, rfl, hbody⟩
    exact ⟨start, name, place, opening, body, closing, rfl, hbody⟩
  · rintro ⟨start, name, place, opening, body, closing, rfl, hbody⟩
    refine ⟨start, _, rfl, kinds_mem_named_mul.2 ⟨name, place, _, rfl, trivial, ?_⟩⟩
    exact kinds_mem_block.2 ⟨opening, body, closing, rfl, hbody⟩

end Items

theorem fieldPhrase_spells (notes : Notes) : Spells (FieldPhrase notes) field := by
  intro lexemes
  unfold field
  rw [kinds_mem_named_mul]
  constructor
  · rintro ⟨_, @⟨typeLexemes, indexLexemes, name, type, number, stop, start, noGroup, typed,
      indexed⟩⟩
    refine ⟨name, start, _, rfl, ?_, kinds_mem_mul.2 ⟨_, _, rfl, ?_, ?_⟩⟩
    · simpa [Token.oneofWord] using noGroup
    · exact (typePhrase_spells _).1 ⟨_, typed⟩
    · exact (indexPhrase_spells _).1 ⟨_, _, indexed⟩
  · rintro ⟨name, start, _, rfl, hname, hrest⟩
    rcases kinds_mem_mul.1 hrest with ⟨typeLexemes, indexLexemes, rfl, htype, hindex⟩
    rcases (typePhrase_spells typeLexemes).2 htype with ⟨type, htyped⟩
    rcases (indexPhrase_spells indexLexemes).2 hindex with ⟨number, stop, hindexed⟩
    refine ⟨_, .mk start ?_ htyped hindexed⟩
    simpa [Token.oneofWord] using hname

theorem groupPhrase_spells (notes : Notes) : Spells (GroupPhrase notes) oneof := by
  intro lexemes
  constructor
  · rintro ⟨_, @⟨body, indexLexemes, fields, number, stop, start, opening, closing, entries,
      indexed⟩⟩
    have hbody := (entries_spells fieldPhrase_spells .clear body).1 ⟨fields, entries⟩
    have hindex := (indexPhrase_spells indexLexemes).1 ⟨number, stop, indexed⟩
    refine cons_mem_one_mul.2 ⟨rfl, kinds_mem_mul.2 ⟨_, indexLexemes, ?_,
      kinds_mem_block.2 ⟨opening, body, closing, rfl, hbody⟩, hindex⟩⟩
    simp
  · intro hmember
    rcases (kinds_mem_token_mul .oneofWord rfl).1 hmember with ⟨start, _, rfl, hrest⟩
    rcases kinds_mem_mul.1 hrest with ⟨_, indexLexemes, rfl, hblock, hindex⟩
    rcases kinds_mem_block.1 hblock with ⟨opening, body, closing, rfl, hbody⟩
    rcases (entries_spells fieldPhrase_spells .clear body).2 hbody with ⟨fields, hfields⟩
    rcases (indexPhrase_spells indexLexemes).2 hindex with ⟨number, stop, hindexed⟩
    have hgroup : GroupPhrase notes _ _ := .mk start opening closing hfields hindexed
    exact ⟨_, by simpa using hgroup⟩

theorem memberPhrase_spells (notes : Notes) : Spells (MemberPhrase notes) member := by
  intro lexemes
  unfold member
  rw [Language.mem_add, ← fieldPhrase_spells notes lexemes, ← groupPhrase_spells notes lexemes]
  constructor
  · rintro ⟨_, hspelled⟩
    cases hspelled with
    | field spelled =>
        exact Or.inl ⟨_, spelled⟩
    | oneof spelled =>
        exact Or.inr ⟨_, spelled⟩
  · rintro (⟨_, hfield⟩ | ⟨_, hgroup⟩)
    · exact ⟨_, .field hfield⟩
    · exact ⟨_, .oneof hgroup⟩

theorem argumentPhrase_spells : Spells ArgumentPhrase (1 + dotted) := by
  intro lexemes
  rw [Language.mem_add, ← dottedName_spells lexemes]
  constructor
  · rintro ⟨_, hspelled⟩
    cases hspelled with
    | none =>
        exact Or.inl rfl
    | named spelled =>
        exact Or.inr ⟨_, spelled⟩
  · rintro (hnil | ⟨_, hnamed⟩)
    · rw [kinds_eq_nil_iff.1 hnil]
      exact ⟨_, .none⟩
    · exact ⟨_, .named hnamed⟩

theorem resultPhrase_spells (lexemes : List Lexeme) :
    (∃ type isStream, ResultPhrase lexemes type isStream) ↔
      kinds lexemes ∈ 1 + one .arrow * resultType := by
  rw [Language.mem_add]
  constructor
  · rintro ⟨_, _, hspelled⟩
    cases hspelled with
    | none =>
        exact Or.inl rfl
    | @single rest text first arrow place noStream tail =>
        have hname : first ≠ "stream" := by
          simpa [Token.streamWord] using noStream
        have htail := (dottedTail_spells rest).1 ⟨text, tail⟩
        exact
          Or.inr (cons_mem_one_mul.2
            ⟨rfl, Or.inr (ident_cons_mem_named_mul.2 ⟨hname, htail⟩)⟩)
    | stream arrow word spelled =>
        have hnamed := (dottedName_spells _).1 ⟨_, spelled⟩
        exact
          Or.inr (cons_mem_one_mul.2 ⟨rfl, Or.inl (cons_mem_one_mul.2 ⟨rfl, hnamed⟩)⟩)
  · rintro (hnil | hresult)
    · rw [kinds_eq_nil_iff.1 hnil]
      exact ⟨_, _, .none⟩
    · rcases (kinds_mem_token_mul .arrow rfl).1 hresult with ⟨arrow, rest, rfl, htype⟩
      unfold resultType at htype
      rw [Language.mem_add] at htype
      rcases htype with hstream | hsingle
      · rcases (kinds_mem_token_mul .streamWord rfl).1 hstream with ⟨word, taken, rfl, hnamed⟩
        rcases (dottedName_spells taken).2 hnamed with ⟨name, hname⟩
        exact ⟨_, _, .stream arrow word hname⟩
      · rcases kinds_mem_named_mul.1 hsingle with ⟨first, place, rest, rfl, hfirst, htail⟩
        rcases (dottedTail_spells rest).2 htail with ⟨text, htext⟩
        refine ⟨_, _, .single arrow place ?_ htext⟩
        simpa [Token.streamWord] using hfirst

theorem methodPhrase_spells (notes : Notes) : Spells (MethodPhrase notes) method := by
  intro lexemes
  unfold method argument result
  constructor
  · rintro ⟨_, @⟨argument, result, argumentType, returnType, returnsStream, name, start, opening,
      closing, stop, argumentSpelled, resultSpelled⟩⟩
    have hargument := (argumentPhrase_spells argument).1 ⟨_, argumentSpelled⟩
    have hresult := (resultPhrase_spells result).1 ⟨_, _, resultSpelled⟩
    refine kinds_mem_named_mul.2 ⟨name, start, _, rfl, trivial, ?_⟩
    refine kinds_mem_mul.2
      ⟨⟨.leftParen, opening⟩ :: (argument ++ [⟨.rightParen, closing⟩]),
        result ++ [⟨.semicolon, stop⟩], by simp, ?_, ?_⟩
    · exact cons_mem_one_mul.2
        ⟨rfl, kinds_mem_mul.2 ⟨argument, _, rfl, hargument, mem_one.2 rfl⟩⟩
    · exact kinds_mem_mul.2 ⟨result, _, rfl, hresult, mem_one.2 rfl⟩
  · intro hmember
    rcases kinds_mem_named_mul.1 hmember with ⟨name, start, _, rfl, _, hrest⟩
    rcases kinds_mem_mul.1 hrest with ⟨_, _, rfl, hopened, hended⟩
    rcases (kinds_mem_token_mul .leftParen rfl).1 hopened with ⟨opening, _, rfl, hclosed⟩
    rcases kinds_mem_mul.1 hclosed with ⟨argument, _, rfl, hargument, hclose⟩
    rcases (kinds_mem_token .rightParen rfl).1 hclose with ⟨closing, rfl⟩
    rcases kinds_mem_mul.1 hended with ⟨result, _, rfl, hresult, hstop⟩
    rcases (kinds_mem_token .semicolon rfl).1 hstop with ⟨stop, rfl⟩
    rcases (argumentPhrase_spells argument).2 hargument with ⟨argumentType, hargumentType⟩
    rcases (resultPhrase_spells result).2 hresult with ⟨returnType, returnsStream, hresultType⟩
    have hmethod : MethodPhrase notes _ _ :=
      .mk name start opening closing stop hargumentType hresultType
    exact ⟨_, by simpa using hmethod⟩

theorem messagePhrase_spells (notes : Notes) : Spells (MessagePhrase notes) message := by
  intro lexemes
  refine Iff.trans ?_ (kinds_mem_namedBlock .messageWord rfl).symm
  constructor
  · rintro ⟨_, @⟨body, members, name, start, place, opening, closing, entries⟩⟩
    have hbody := (entries_spells memberPhrase_spells .clear body).1 ⟨members, entries⟩
    exact ⟨start, name, place, opening, body, closing, rfl, hbody⟩
  · rintro ⟨start, name, place, opening, body, closing, rfl, hbody⟩
    rcases (entries_spells memberPhrase_spells .clear body).2 hbody with ⟨members, hmembers⟩
    exact ⟨_, .mk name start place opening closing hmembers⟩

theorem servicePhrase_spells (notes : Notes) : Spells (ServicePhrase notes) service := by
  intro lexemes
  refine Iff.trans ?_ (kinds_mem_namedBlock .serviceWord rfl).symm
  constructor
  · rintro ⟨_, @⟨body, methods, name, start, place, opening, closing, entries⟩⟩
    have hbody := (entries_spells methodPhrase_spells .clear body).1 ⟨methods, entries⟩
    exact ⟨start, name, place, opening, body, closing, rfl, hbody⟩
  · rintro ⟨start, name, place, opening, body, closing, rfl, hbody⟩
    rcases (entries_spells methodPhrase_spells .clear body).2 hbody with ⟨methods, hmethods⟩
    exact ⟨_, .mk name start place opening closing hmethods⟩

theorem declarationPhrase_spells (notes : Notes) :
    Spells (DeclarationPhrase notes) declaration := by
  intro lexemes
  unfold declaration
  rw [Language.mem_add, ← messagePhrase_spells notes lexemes, ← servicePhrase_spells notes lexemes]
  constructor
  · rintro ⟨_, hspelled⟩
    cases hspelled with
    | message spelled =>
        exact Or.inl ⟨_, spelled⟩
    | service spelled =>
        exact Or.inr ⟨_, spelled⟩
  · rintro (⟨_, hmessage⟩ | ⟨_, hservice⟩)
    · exact ⟨_, .message hmessage⟩
    · exact ⟨_, .service hservice⟩

/-! ## Schemas -/

theorem packagePhrase_spells : Spells PackagePhrase package := by
  intro lexemes
  constructor
  · rintro ⟨_, @⟨taken, name, start, stop, spelled⟩⟩
    have hname := (dottedName_spells taken).1 ⟨name, spelled⟩
    exact cons_mem_one_mul.2
      ⟨rfl, kinds_mem_mul.2 ⟨taken, [⟨.semicolon, stop⟩], rfl, hname, mem_one.2 rfl⟩⟩
  · intro hmember
    rcases (kinds_mem_token_mul .packageWord rfl).1 hmember with ⟨start, _, rfl, hrest⟩
    rcases kinds_mem_mul.1 hrest with ⟨taken, _, rfl, hname, hclose⟩
    rcases (kinds_mem_token .semicolon rfl).1 hclose with ⟨stop, rfl⟩
    rcases (dottedName_spells taken).2 hname with ⟨name, hspelled⟩
    exact ⟨_, .mk start stop hspelled⟩

theorem importBlock_spells (margin : Margin) (lexemes : List Lexeme) :
    (∃ imports last, ImportBlock margin lexemes imports last) ↔
      kinds lexemes ∈ (trivia + importing)∗ := by
  constructor
  · rintro ⟨_, _, hblock⟩
    induction hblock with
    | nil margin =>
        exact Language.nil_mem_kstar _
    | trivia passed later ih =>
        rw [kinds_append]
        exact append_mem_kstar (Or.inl ((trivia_spells _ _).1 ⟨_, passed⟩)) ih
    | importing path start place stop later ih =>
        have hstatement :
            [.ident "import", .stringLiteral, .semicolon] ∈ trivia + importing :=
          Or.inr (cons_mem_one_mul.2 ⟨rfl, cons_mem_one_mul.2 ⟨rfl, mem_one.2 rfl⟩⟩)
        exact append_mem_kstar hstatement ih
  · intro hmember
    refine
      kinds_kstar_induction
        (motive := fun lexemes =>
          ∀ margin, ∃ imports last, ImportBlock margin lexemes imports last)
        (fun margin => ⟨[], margin, .nil margin⟩) ?_ hmember margin
    intro first rest hfirst hrest margin
    rw [Language.mem_add] at hfirst
    rcases hfirst with htrivia | himport
    · rcases (trivia_spells margin first).2 htrivia with ⟨next, hpassed⟩
      rcases hrest next with ⟨imports, last, hblock⟩
      exact ⟨imports, last, .trivia hpassed hblock⟩
    · rcases (kinds_mem_token_mul .importWord rfl).1 himport with ⟨start, _, rfl, hpath⟩
      rcases kinds_mem_among_mul.1 hpath with ⟨⟨token, place⟩, _, rfl, htoken, hclose⟩
      rcases (kinds_mem_token .semicolon rfl).1 hclose with ⟨stop, rfl⟩
      have hliteral : ∃ path, token = .stringLiteral path := by
        cases token <;> cases htoken
        exact ⟨_, rfl⟩
      rcases hliteral with ⟨path, rfl⟩
      rcases hrest .clear with ⟨imports, last, hblock⟩
      exact ⟨_, last, .importing path start place stop hblock⟩

theorem idle_iff {lexemes : List Lexeme} :
    (∀ lexeme ∈ lexemes, lexeme.IsIdle) ↔ kinds lexemes ∈ trivia∗ := by
  unfold trivia
  rw [kinds_mem_among_kstar]
  simp only [isIdle_kind_iff]

/-- Lexemes can be derived in the grammar exactly if their kinds are a word of its language. -/
theorem schemaPhrase_spells : Spells SchemaPhrase schema := by
  intro lexemes
  constructor
  · rintro ⟨_, @⟨leading, clauseLexemes, importLexemes, body, clause, imports, margin, declarations,
      stop, idle, packaged, imported, entries⟩⟩
    have hbody := (entries_spells declarationPhrase_spells margin body).1 ⟨_, entries⟩
    refine kinds_mem_mul.2 ⟨leading, _, rfl, idle_iff.1 idle, ?_⟩
    refine kinds_mem_mul.2 ⟨clauseLexemes, _, rfl, (packagePhrase_spells _).1 ⟨_, packaged⟩, ?_⟩
    refine kinds_mem_mul.2
      ⟨importLexemes, _, rfl, (importBlock_spells _ _).1 ⟨_, _, imported⟩, ?_⟩
    exact kinds_mem_mul.2 ⟨body, _, rfl, hbody, mem_one.2 rfl⟩
  · intro hmember
    rcases kinds_mem_mul.1 hmember with ⟨leading, _, rfl, hleading, hrest⟩
    rcases kinds_mem_mul.1 hrest with ⟨clauseLexemes, _, rfl, hclause, hrest⟩
    rcases kinds_mem_mul.1 hrest with ⟨importLexemes, _, rfl, himports, hrest⟩
    rcases kinds_mem_mul.1 hrest with ⟨body, _, rfl, hbody, hend⟩
    rcases (kinds_mem_token .eof rfl).1 hend with ⟨stop, rfl⟩
    rcases (packagePhrase_spells clauseLexemes).2 hclause with ⟨clause, hpackaged⟩
    rcases (importBlock_spells .clear importLexemes).2 himports with ⟨imports, margin, himported⟩
    rcases (entries_spells declarationPhrase_spells margin body).2 hbody with
      ⟨declarations, hentries⟩
    exact ⟨_, .mk stop (idle_iff.2 hleading) hpackaged himported hentries⟩

end Kinds
end InterfaceSchema
