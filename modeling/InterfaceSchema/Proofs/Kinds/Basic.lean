import InterfaceSchema.Lexeme
import Mathlib.Computability.Language

/-!
# Kinds of tokens and languages over them

The grammar looks at the kind of a token and at the name that an identifier spells, and at nothing
else. What it allows is a language over such kinds.

* `Kind`, `Token.kind`, `kinds`: what the grammar sees of tokens and of lexemes.
* `Kinds.among`, `Kinds.one`, `Kinds.named`: the languages of single tokens. The lemmas beside them
  say with what a product of languages goes on behind its first token.
* `Kinds.Opens`: the tokens with which the words of a language begin.
* `Kinds.Begins`: a word can be continued to one of a language.
* `Kinds.Possible`: some word is allowed at all.
-/

open scoped Computability

namespace InterfaceSchema

/-- What the grammar sees of a token: its kind, and the name that an identifier spells. -/
inductive Kind
  | ident (name : String)
  | number
  | stringLiteral
  | comment
  | atName
  | arrow
  | leftParen
  | rightParen
  | leftAngle
  | rightAngle
  | leftBrace
  | rightBrace
  | comma
  | dot
  | equals
  | semicolon
  | newline
  | eof
  deriving DecidableEq

namespace Token

/-- What the grammar sees of a token. -/
def kind : Token → Kind
  | ident name => .ident name
  | number _ => .number
  | stringLiteral _ => .stringLiteral
  | comment _ => .comment
  | atName _ => .atName
  | arrow => .arrow
  | leftParen => .leftParen
  | rightParen => .rightParen
  | leftAngle => .leftAngle
  | rightAngle => .rightAngle
  | leftBrace => .leftBrace
  | rightBrace => .rightBrace
  | comma => .comma
  | dot => .dot
  | equals => .equals
  | semicolon => .semicolon
  | newline => .newline
  | eof => .eof

/-- The token that a kind stands for, unless there are several. -/
def ofKind? : Kind → Option Token
  | .ident name => some (ident name)
  | .number => none
  | .stringLiteral => none
  | .comment => none
  | .atName => none
  | .arrow => some arrow
  | .leftParen => some leftParen
  | .rightParen => some rightParen
  | .leftAngle => some leftAngle
  | .rightAngle => some rightAngle
  | .leftBrace => some leftBrace
  | .rightBrace => some rightBrace
  | .comma => some comma
  | .dot => some dot
  | .equals => some equals
  | .semicolon => some semicolon
  | .newline => some newline
  | .eof => some eof

/-- The kind of a token tells which one it is. -/
def IsFixed (token : Token) : Prop :=
  ofKind? token.kind = some token

theorem eq_of_kind_eq
    {token other : Token}
    (fixed : token.IsFixed)
    (same : other.kind = token.kind) :
    other = token := by
  have hother : ofKind? other.kind = some token := by
    rw [same]
    exact fixed
  cases other <;> cases hother <;> rfl

theorem kind_eq_ident_iff {token : Token} {name : String} :
    token.kind = .ident name ↔ token = .ident name := by
  have hfixed : IsFixed (ident name) := rfl
  constructor
  · exact eq_of_kind_eq hfixed
  · rintro rfl
    rfl

end Token

/-- What the grammar sees of a lexeme. -/
def Lexeme.kind (lexeme : Lexeme) : Kind :=
  lexeme.token.kind

/-- What the grammar sees of lexemes. -/
def kinds (lexemes : List Lexeme) : List Kind :=
  lexemes.map Lexeme.kind

@[simp]
theorem kinds_nil : kinds [] = [] :=
  rfl

@[simp]
theorem kinds_cons (lexeme : Lexeme) (rest : List Lexeme) :
    kinds (lexeme :: rest) = lexeme.kind :: kinds rest :=
  rfl

@[simp]
theorem kinds_append (first second : List Lexeme) :
    kinds (first ++ second) = kinds first ++ kinds second :=
  List.map_append

@[simp]
theorem kinds_eq_nil_iff {lexemes : List Lexeme} : kinds lexemes = [] ↔ lexemes = [] :=
  List.map_eq_nil_iff

theorem kinds_eq_append_iff {lexemes : List Lexeme} {front back : List Kind} :
    kinds lexemes = front ++ back ↔
      ∃ first second, lexemes = first ++ second ∧ kinds first = front ∧ kinds second = back :=
  List.map_eq_append_iff

namespace Kinds

/-! ## Single tokens -/

/-- Single tokens of certain kinds. -/
def among (Allowed : Kind → Prop) : Language Kind :=
  {word | ∃ kind, Allowed kind ∧ word = [kind]}

/-- Single tokens of one kind. -/
def one (kind : Kind) : Language Kind :=
  among fun other => other = kind

/-- Single identifiers with certain names. -/
def named (Allowed : String → Prop) : Language Kind :=
  among fun kind => ∃ name, kind = .ident name ∧ Allowed name

variable {Allowed : Kind → Prop} {kind : Kind} {word later : List Kind} {K L M : Language Kind}

theorem mem_among : word ∈ among Allowed ↔ ∃ kind, Allowed kind ∧ word = [kind] :=
  Iff.rfl

theorem mem_one : word ∈ one kind ↔ word = [kind] := by
  unfold one
  rw [mem_among]
  simp

theorem mem_named {Fits : String → Prop} :
    word ∈ named Fits ↔ ∃ name, Fits name ∧ word = [.ident name] := by
  unfold named
  rw [mem_among]
  constructor
  · rintro ⟨_, ⟨name, rfl, hfits⟩, rfl⟩
    exact ⟨name, hfits, rfl⟩
  · rintro ⟨name, hfits, rfl⟩
    exact ⟨_, ⟨name, rfl, hfits⟩, rfl⟩

theorem mem_among_mul :
    word ∈ among Allowed * K ↔ ∃ kind later, word = kind :: later ∧ Allowed kind ∧ later ∈ K := by
  rw [Language.mem_mul]
  constructor
  · rintro ⟨_, ⟨kind, hallowed, rfl⟩, later, hlater, rfl⟩
    exact ⟨kind, later, rfl, hallowed, hlater⟩
  · rintro ⟨kind, later, rfl, hallowed, hlater⟩
    exact ⟨[kind], ⟨kind, hallowed, rfl⟩, later, hlater, rfl⟩

theorem mem_one_mul : word ∈ one kind * K ↔ ∃ later, word = kind :: later ∧ later ∈ K := by
  unfold one
  rw [mem_among_mul]
  constructor
  · rintro ⟨_, later, rfl, rfl, hlater⟩
    exact ⟨later, rfl, hlater⟩
  · rintro ⟨later, rfl, hlater⟩
    exact ⟨_, later, rfl, rfl, hlater⟩

theorem mem_named_mul {Fits : String → Prop} :
    word ∈ named Fits * K ↔
      ∃ name later, word = .ident name :: later ∧ Fits name ∧ later ∈ K := by
  unfold named
  rw [mem_among_mul]
  constructor
  · rintro ⟨_, later, rfl, ⟨name, rfl, hfits⟩, hlater⟩
    exact ⟨name, later, rfl, hfits, hlater⟩
  · rintro ⟨name, later, rfl, hfits, hlater⟩
    exact ⟨_, later, rfl, ⟨name, rfl, hfits⟩, hlater⟩

/-- A word of a product goes on behind a first token as the second factor says. -/
theorem cons_mem_among_mul : kind :: later ∈ among Allowed * K ↔ Allowed kind ∧ later ∈ K := by
  rw [mem_among_mul]
  simp

theorem cons_mem_one_mul {other : Kind} :
    kind :: later ∈ one other * K ↔ kind = other ∧ later ∈ K :=
  cons_mem_among_mul

theorem ident_cons_mem_named_mul {name : String} {Fits : String → Prop} :
    .ident name :: later ∈ named Fits * K ↔ Fits name ∧ later ∈ K := by
  rw [mem_named_mul]
  simp

/-! ## Repetitions -/

/-- What follows any number of rounds follows none, or one round and any number of them. -/
theorem kstar_mul_eq : L∗ * K = K + L * (L∗ * K) := by
  calc
    L∗ * K = (1 + L * L∗) * K := by rw [Language.one_add_self_mul_kstar_eq_kstar]
    _ = K + L * (L∗ * K) := by rw [one_add_mul, mul_assoc]

/-! ## First tokens -/

/-- All words of a language begin with a token of certain kinds. -/
def Opens (Allowed : Kind → Prop) (L : Language Kind) : Prop :=
  ∀ word ∈ L, ∃ kind later, word = kind :: later ∧ Allowed kind

theorem opens_among : Opens Allowed (among Allowed) := by
  rintro _ ⟨kind, hallowed, rfl⟩
  exact ⟨kind, [], rfl, hallowed⟩

theorem opens_one : Opens (fun other => other = kind) (one kind) :=
  opens_among

namespace Opens

theorem mul (opens : Opens Allowed L) : Opens Allowed (L * K) := by
  intro word hword
  rcases Language.mem_mul.1 hword with ⟨front, hfront, back, _, rfl⟩
  rcases opens front hfront with ⟨kind, later, rfl, hallowed⟩
  exact ⟨kind, later ++ back, rfl, hallowed⟩

theorem add (first : Opens Allowed L) (second : Opens Allowed M) : Opens Allowed (L + M) := by
  rintro word (hword | hword)
  · exact first word hword
  · exact second word hword

theorem mono
    {Wider : Kind → Prop}
    (opens : Opens Allowed L)
    (wider : ∀ kind, Allowed kind → Wider kind) :
    Opens Wider L := by
  intro word hword
  rcases opens word hword with ⟨kind, later, rfl, hallowed⟩
  exact ⟨kind, later, rfl, wider kind hallowed⟩

theorem allowed (opens : Opens Allowed L) (member : kind :: later ∈ L) : Allowed kind := by
  rcases opens _ member with ⟨other, more, hsame, hallowed⟩
  rw [List.cons.injEq] at hsame
  rw [hsame.1]
  exact hallowed

end Opens

/-! ## Beginnings -/

/-- Some word of a language begins like this. -/
def Begins (L : Language Kind) (front : List Kind) : Prop :=
  ∃ later, front ++ later ∈ L

theorem Opens.not_begins (opens : Opens Allowed L) (other : ¬ Allowed kind) :
    ¬ Begins L [kind] := by
  rintro ⟨later, hmember⟩
  exact other (opens.allowed hmember)

/-- A language with a word. -/
class Possible (L : Language Kind) : Prop where
  begins : Begins L []

theorem possible_of_mem (member : word ∈ L) : Possible L :=
  ⟨word, member⟩

instance possible_one : Possible (one kind) :=
  possible_of_mem (mem_one.2 rfl)

instance possible_among_eq : Possible (among fun other => other = kind) :=
  possible_one

instance possible_empty : Possible (1 : Language Kind) :=
  possible_of_mem (Language.nil_mem_one)

instance possible_mul [first : Possible L] [second : Possible M] : Possible (L * M) := by
  rcases first.begins with ⟨front, hfront⟩
  rcases second.begins with ⟨back, hback⟩
  exact possible_of_mem (Language.append_mem_mul hfront hback)

instance possible_add [first : Possible L] : Possible (L + M) := by
  rcases first.begins with ⟨front, hfront⟩
  exact possible_of_mem (Or.inl hfront)

instance possible_kstar : Possible (L∗) :=
  possible_of_mem (Language.nil_mem_kstar L)

end Kinds
end InterfaceSchema
