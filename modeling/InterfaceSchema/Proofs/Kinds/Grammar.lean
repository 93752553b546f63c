import InterfaceSchema.FieldType
import InterfaceSchema.Proofs.Kinds.Basic

/-!
# The grammar as a language

The sequences of kinds that a schema text may have, written down rule by rule. Names and imports
may be repeated here; nothing else is left open.

* `Kinds.dotted`, `Kinds.type`, `Kinds.index`: the parts of a field or method.
* `Kinds.annotation`, `Kinds.filler`: what may stand between the items of a body.
* `Kinds.member`, `Kinds.method`, `Kinds.declaration`, `Kinds.schema`: the larger parts.

The lemmas beside the rules say with which tokens a part may begin, and how it goes on behind them.
-/

open scoped Computability

namespace InterfaceSchema
namespace Kinds

/-! ## Names and types -/

/-- Identifiers. -/
def name : Language Kind :=
  named fun _ => True

/-- The parts of a dotted name after its first identifier. -/
def dottedTail : Language Kind :=
  (one .dot * name)∗

/-- Identifiers joined by dots. -/
def dotted : Language Kind :=
  name * dottedTail

/-- The name of a built-in type. -/
def IsPrimitive (name : String) : Prop :=
  ∃ type, Primitive.ofName? name = some type

/-- The name of a type that a map may have as keys. -/
def IsMapKey (name : String) : Prop :=
  ∃ type, Primitive.ofName? name = some type ∧ type.isMapKey = true

/-- A name without a meaning of its own at the start of a type. -/
def IsReference (name : String) : Prop :=
  Primitive.ofName? name = none ∧ name ≠ "array" ∧ name ≠ "map"

/-- Types of fields, which may be nested. -/
inductive IsType : List Kind → Prop
  | primitive {name : String} (known : IsPrimitive name) : IsType [.ident name]
  | array {element : List Kind} (spelled : IsType element) :
      IsType (.ident "array" :: .leftAngle :: (element ++ [.rightAngle]))
  | map {key : String} {value : List Kind} (allowed : IsMapKey key) (spelled : IsType value) :
      IsType
        (.ident "map" :: .leftAngle :: .ident key :: .comma :: (value ++ [.rightAngle]))
  | reference {name : String} {tail : List Kind} (free : IsReference name)
      (parts : tail ∈ dottedTail) :
      IsType (.ident name :: tail)

/-- Types of fields. -/
def type : Language Kind :=
  {word | IsType word}

/-- The index of a field or group with the semicolon that ends it. -/
def index : Language Kind :=
  one .equals * (one .number * one .semicolon)

/-! ## What stands between items -/

/-- The kinds of line feeds and comments. -/
def IsIdle (kind : Kind) : Prop :=
  kind = .newline ∨ kind = .comment

/-- Line feeds and comments. -/
def trivia : Language Kind :=
  among IsIdle

/-- The kinds of tokens that may be part of an annotation value. -/
def IsWord (kind : Kind) : Prop :=
  kind ≠ .comma ∧ kind ≠ .rightParen ∧ kind ≠ .newline ∧ kind ≠ .eof

/-- Tokens that may be part of an annotation value. -/
def word : Language Kind :=
  among IsWord

/-- Runs of tokens that make one annotation value. -/
def run : Language Kind :=
  word * word∗

/-- What follows the first value in a list of annotation values. -/
def laterValues : Language Kind :=
  (one .comma * run)∗ * (1 + one .comma)

/-- Annotation values; a comma may follow the last one. -/
def values : Language Kind :=
  1 + run * laterValues

/-- What follows the name of an annotation. -/
def annotationRest : Language Kind :=
  1 + one .leftParen * (values * one .rightParen)

/-- Annotations. -/
def annotation : Language Kind :=
  one .atName * annotationRest

/-- What may stand between items. -/
def filler : Language Kind :=
  trivia + annotation

/-- Items with fillers between them. -/
def entries (item : Language Kind) : Language Kind :=
  (filler + item)∗

/-- Items between braces. -/
def block (item : Language Kind) : Language Kind :=
  one .leftBrace * (entries item * one .rightBrace)

/-! ## Messages and services -/

/-- Fields. The word that opens a group is no name of a field. -/
def field : Language Kind :=
  named (fun name => name ≠ "oneof") * (type * index)

/-- Groups of fields. -/
def oneof : Language Kind :=
  one (.ident "oneof") * (block field * index)

/-- Entries in the body of a message. -/
def member : Language Kind :=
  field + oneof

/-- The argument type of a method with its parentheses. It may be left out. -/
def argument : Language Kind :=
  one .leftParen * ((1 + dotted) * one .rightParen)

/-- What stands behind the arrow of a method. The word that marks a stream is no type there. -/
def resultType : Language Kind :=
  one (.ident "stream") * dotted + named (fun name => name ≠ "stream") * dottedTail

/-- The result of a method, which may be left out, with the semicolon that ends it. -/
def result : Language Kind :=
  (1 + one .arrow * resultType) * one .semicolon

/-- Methods. -/
def method : Language Kind :=
  name * (argument * result)

/-- Messages. -/
def message : Language Kind :=
  one (.ident "message") * (name * block member)

/-- Services. -/
def service : Language Kind :=
  one (.ident "service") * (name * block method)

/-- Messages and services. -/
def declaration : Language Kind :=
  message + service

/-! ## Schemas -/

/-- The package clause. -/
def package : Language Kind :=
  one (.ident "package") * (dotted * one .semicolon)

/-- Imports. -/
def importing : Language Kind :=
  one (.ident "import") * (one .stringLiteral * one .semicolon)

/-- The declarations up to the end of the text. -/
def declarations : Language Kind :=
  entries declaration * one .eof

/-- What follows the package clause. -/
def imports : Language Kind :=
  (trivia + importing)∗ * declarations

/-- Whole schemas. -/
def schema : Language Kind :=
  trivia∗ * (package * imports)

/-! ## Words that exist -/

instance possible_name : Possible name :=
  possible_of_mem (mem_named.2 ⟨"", trivial, rfl⟩)

instance possible_dottedTail : Possible dottedTail :=
  possible_kstar

instance possible_dotted : Possible dotted :=
  possible_mul

theorem isPrimitive_bool : IsPrimitive "bool" :=
  ⟨.bool, by decide⟩

theorem isMapKey_int8 : IsMapKey "int8" :=
  ⟨.int8, by decide, rfl⟩

instance possible_mapKey : Possible (named IsMapKey) :=
  possible_of_mem (mem_named.2 ⟨_, isMapKey_int8, rfl⟩)

instance possible_type : Possible type :=
  possible_of_mem (IsType.primitive isPrimitive_bool)

instance possible_index : Possible index :=
  possible_mul

instance possible_laterValues : Possible laterValues :=
  possible_mul

instance possible_values : Possible values :=
  possible_add

instance possible_entries {item : Language Kind} : Possible (entries item) :=
  possible_kstar

instance possible_block {item : Language Kind} : Possible (block item) :=
  possible_mul

instance possible_fieldName : Possible (named fun name => name ≠ "oneof") :=
  possible_of_mem (mem_named.2 ⟨"", by decide, rfl⟩)

instance possible_field : Possible field :=
  possible_mul

instance possible_member : Possible member :=
  possible_add

instance possible_argument : Possible argument :=
  possible_mul

instance possible_resultName : Possible (named fun name => name ≠ "stream") :=
  possible_of_mem (mem_named.2 ⟨"", by decide, rfl⟩)

instance possible_resultType : Possible resultType :=
  possible_add

instance possible_result : Possible result :=
  possible_mul

instance possible_method : Possible method :=
  possible_mul

instance possible_message : Possible message :=
  possible_mul

instance possible_service : Possible service :=
  possible_mul

instance possible_declaration : Possible declaration :=
  possible_add

instance possible_declarations : Possible declarations :=
  possible_mul

instance possible_imports : Possible imports :=
  possible_mul

/-! ## How the rules go on -/

section Rules

variable {kind : Kind} {later : List Kind} {item K : Language Kind}

theorem dottedTail_mul_eq :
    dottedTail * K = K + one .dot * (name * (dottedTail * K)) := by
  unfold dottedTail
  conv_lhs => rw [kstar_mul_eq]
  rw [mul_assoc]

theorem type_eq :
    type =
      named IsPrimitive +
        (one (.ident "array") * (one .leftAngle * (type * one .rightAngle)) +
          (one (.ident "map") *
              (one .leftAngle *
                (named IsMapKey * (one .comma * (type * one .rightAngle)))) +
            named IsReference * dottedTail)) := by
  ext word
  have hclosed (inner : List Kind) (hinner : IsType inner) :
      inner ++ [.rightAngle] ∈ type * one .rightAngle :=
    Language.append_mem_mul hinner (mem_one.2 rfl)
  simp only [Language.mem_add, mem_one_mul, mem_named, mem_named_mul]
  constructor
  · rintro (hword : IsType word)
    cases hword with
    | primitive known =>
        exact Or.inl ⟨_, known, rfl⟩
    | array spelled =>
        exact Or.inr (Or.inl ⟨_, rfl, _, rfl, hclosed _ spelled⟩)
    | map allowed spelled =>
        exact
          Or.inr (Or.inr (Or.inl
            ⟨_, rfl, _, rfl, _, _, rfl, allowed, _, rfl, hclosed _ spelled⟩))
    | reference free parts =>
        exact Or.inr (Or.inr (Or.inr ⟨_, _, rfl, free, parts⟩))
  · rintro (⟨name, hknown, rfl⟩ | ⟨_, rfl, _, rfl, hrest⟩ |
      ⟨_, rfl, _, rfl, key, _, rfl, hallowed, _, rfl, hrest⟩ | ⟨name, tail, rfl, hfree, hparts⟩)
    · exact .primitive hknown
    · rcases Language.mem_mul.1 hrest with ⟨element, helement, close, hclose, rfl⟩
      rw [mem_one] at hclose
      subst hclose
      exact .array helement
    · rcases Language.mem_mul.1 hrest with ⟨value, hvalue, close, hclose, rfl⟩
      rw [mem_one] at hclose
      subst hclose
      exact .map hallowed hvalue
    · exact .reference hfree hparts

/-- How a type goes on behind its first identifier. -/
theorem ident_cons_mem_type_mul {name : String} :
    .ident name :: later ∈ type * K ↔
      IsPrimitive name ∧ later ∈ K ∨
        name = "array" ∧ later ∈ one .leftAngle * (type * (one .rightAngle * K)) ∨
        name = "map" ∧
          later ∈
            one .leftAngle *
              (named IsMapKey * (one .comma * (type * (one .rightAngle * K)))) ∨
        IsReference name ∧ later ∈ dottedTail * K := by
  conv_lhs => rw [type_eq]
  simp only [add_mul, mul_assoc, Language.mem_add, ident_cons_mem_named_mul, cons_mem_one_mul,
    Kind.ident.injEq]

theorem not_isPrimitive_array : ¬ IsPrimitive "array" := by
  rintro ⟨type, htype⟩
  rw [Primitive.ofName?_array] at htype
  simp at htype

theorem not_isPrimitive_map : ¬ IsPrimitive "map" := by
  rintro ⟨type, htype⟩
  rw [Primitive.ofName?_map] at htype
  simp at htype

theorem primitive_cons_mem_type_mul {name : String} (known : IsPrimitive name) :
    .ident name :: later ∈ type * K ↔ later ∈ K := by
  have harray : name ≠ "array" := by
    rintro rfl
    exact not_isPrimitive_array known
  have hmap : name ≠ "map" := by
    rintro rfl
    exact not_isPrimitive_map known
  have hreference : ¬ IsReference name := by
    rcases known with ⟨type, htype⟩
    rintro ⟨hnone, _⟩
    rw [htype] at hnone
    simp at hnone
  simp [ident_cons_mem_type_mul, known, harray, hmap, hreference]

theorem array_cons_mem_type_mul :
    .ident "array" :: later ∈ type * K ↔
      later ∈ one .leftAngle * (type * (one .rightAngle * K)) := by
  simp [ident_cons_mem_type_mul, not_isPrimitive_array, IsReference]

theorem map_cons_mem_type_mul :
    .ident "map" :: later ∈ type * K ↔
      later ∈
        one .leftAngle * (named IsMapKey * (one .comma * (type * (one .rightAngle * K)))) := by
  simp [ident_cons_mem_type_mul, not_isPrimitive_map, IsReference]

theorem reference_cons_mem_type_mul {name : String} (free : IsReference name) :
    .ident name :: later ∈ type * K ↔ later ∈ dottedTail * K := by
  have hprimitive : ¬ IsPrimitive name := by
    rintro ⟨type, htype⟩
    rw [free.1] at htype
    simp at htype
  simp [ident_cons_mem_type_mul, hprimitive, free, free.2.1, free.2.2]

/-- A list of values ends, or another value follows. -/
theorem laterValues_mul_eq : laterValues * K = K + one .comma * (values * K) := by
  have hrounds :
      laterValues * K =
        (1 + one .comma) * K + (one .comma * run) * (laterValues * K) := by
    unfold laterValues
    rw [mul_assoc]
    conv_lhs => rw [kstar_mul_eq]
  rw [hrounds, values, one_add_mul, one_add_mul, mul_add, mul_assoc, mul_assoc, add_assoc]

/-- Behind a first word a value goes on, or ends. -/
theorem values_mul_eq : values * K = K + word * (word∗ * (laterValues * K)) := by
  unfold values run
  rw [one_add_mul, mul_assoc, mul_assoc]

theorem entries_mul_eq : entries item * K = K + (filler + item) * (entries item * K) :=
  kstar_mul_eq

/-! Tokens with which the items of a body begin. -/

/-- The kinds of identifiers. -/
def IsName (kind : Kind) : Prop :=
  ∃ name, kind = .ident name

/-- The kinds with which fillers begin. -/
def IsFiller (kind : Kind) : Prop :=
  IsIdle kind ∨ kind = .atName

/-- The kinds with which fillers and items begin. -/
def IsEntry (kind : Kind) : Prop :=
  IsFiller kind ∨ IsName kind

theorem opens_named {Fits : String → Prop} : Opens IsName (named Fits) := by
  refine opens_among.mono ?_
  rintro kind ⟨name, rfl, _⟩
  exact ⟨name, rfl⟩

theorem opens_ident (name : String) : Opens IsName (one (.ident name)) := by
  refine opens_one.mono ?_
  rintro kind rfl
  exact ⟨name, rfl⟩

theorem opens_type : Opens IsName type := by
  rintro word (hword : IsType word)
  cases hword with
  | primitive known =>
      exact ⟨_, _, rfl, _, rfl⟩
  | array spelled =>
      exact ⟨_, _, rfl, _, rfl⟩
  | map allowed spelled =>
      exact ⟨_, _, rfl, _, rfl⟩
  | reference free parts =>
      exact ⟨_, _, rfl, _, rfl⟩

theorem opens_dotted : Opens IsName dotted :=
  opens_named.mul

theorem opens_field : Opens IsName field :=
  opens_named.mul

theorem opens_member : Opens IsName member :=
  opens_field.add (opens_ident "oneof").mul

theorem opens_method : Opens IsName method :=
  opens_named.mul

theorem opens_declaration : Opens IsName declaration :=
  (opens_ident "message").mul.add (opens_ident "service").mul

theorem opens_filler : Opens IsFiller filler := by
  refine Opens.add (opens_among.mono ?_) (opens_one.mul.mono ?_)
  · intro kind hidle
    exact Or.inl hidle
  · intro kind hmark
    exact Or.inr hmark

theorem opens_entry (opens : Opens IsName item) : Opens IsEntry (filler + item) := by
  refine (opens_filler.mono ?_).add (opens.mono ?_)
  · intro kind hfiller
    exact Or.inl hfiller
  · intro kind hname
    exact Or.inr hname

theorem entry_mul_eq :
    (filler + item) * K =
      trivia * K + (one .atName * (annotationRest * K) + item * K) := by
  unfold filler annotation
  rw [add_mul, add_mul, mul_assoc, add_assoc]

/-- A line feed or a comment is an entry of its own. -/
theorem idle_cons_mem_entry_mul (opens : Opens IsName item) (idle : IsIdle kind) :
    kind :: later ∈ (filler + item) * K ↔ later ∈ K := by
  rw [entry_mul_eq, Language.mem_add, Language.mem_add]
  constructor
  · rintro (htrivia | hmark | hitem)
    · exact (cons_mem_among_mul.1 htrivia).2
    · rw [cons_mem_one_mul] at hmark
      rcases idle with rfl | rfl <;> simp at hmark
    · rcases opens.mul.allowed hitem with ⟨name, rfl⟩
      rcases idle with hidle | hidle <;> simp at hidle
  · intro hlater
    exact Or.inl (cons_mem_among_mul.2 ⟨idle, hlater⟩)

/-- The name of an annotation begins one, and nothing else. -/
theorem atName_cons_mem_entry_mul (opens : Opens IsName item) :
    .atName :: later ∈ (filler + item) * K ↔ later ∈ annotationRest * K := by
  rw [entry_mul_eq, Language.mem_add, Language.mem_add, cons_mem_one_mul]
  constructor
  · rintro (htrivia | hmark | hitem)
    · rcases (cons_mem_among_mul.1 htrivia).1 with hidle | hidle <;> simp at hidle
    · exact hmark.2
    · rcases opens.mul.allowed hitem with ⟨name, hname⟩
      simp at hname
  · intro hlater
    exact Or.inr (Or.inl ⟨rfl, hlater⟩)

/-- Entries do not begin with tokens that neither a filler nor an item begins with. -/
theorem not_begins_entries_mul
    (opens : Opens IsName item)
    (other : ¬ IsEntry kind)
    (stops : ¬ Begins K [kind]) :
    ¬ Begins (entries item * K) [kind] := by
  rintro ⟨later, hlater⟩
  rw [entries_mul_eq] at hlater
  rcases hlater with hrest | hentry
  · exact stops ⟨later, hrest⟩
  · exact other ((opens_entry opens).mul.allowed hentry)

end Rules

end Kinds
end InterfaceSchema
