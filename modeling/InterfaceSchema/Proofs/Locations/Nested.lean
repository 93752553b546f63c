import InterfaceSchema.Proofs.Locations.Laid

/-!
# Nested locations

The locations in a schema form a tree over its text: each node covers a stretch of the text, its
parts stand inside that stretch and one behind another, and its annotations stand before it, behind
whatever comes before the node.

* `Site`: a node with what its text should look like, and with its parts.
* `Nested`: sites that stand one behind another between two offsets of a text, with their parts
  inside their braces.
* `Laid.leaf`, `Laid.block`: what is said of one node, read off its lexemes.
* `Sited`: phrases whose values stand where their lexemes do; `Entries.nested` goes through a body.
* `WellNested`, `wellNested_of_parse`: the locations of every schema that is read from a text.
-/

namespace InterfaceSchema

/-! ## Sites -/

/-- What the text of a node should look like: the words it begins and ends with, and the annotations
before it. -/
structure Outline where
  location : Location
  annotations : List AnnotationMark
  opening : String
  closing : String

/-- A node of a schema. The parts of a block stand between braces. -/
inductive Site
  | leaf (outline : Outline)
  | block (outline : Outline) (parts : List Site)

/-- A site without its parts. -/
def Site.outline : Site → Outline
  | leaf outline => outline
  | block outline _ => outline

/-- The location of a site. -/
def Site.location : Site → Location
  | leaf outline => outline.location
  | block outline _ => outline.location

/-- A field, from its name to its semicolon. -/
def Field.site (field : Field) : Site :=
  .leaf ⟨field.location, field.notes.annotations, field.name, ";"⟩

/-- A group, from its word to its semicolon, with its fields. -/
def Oneof.site (oneof : Oneof) : Site :=
  .block ⟨oneof.location, oneof.notes.annotations, "oneof", ";"⟩ (oneof.fields.map Field.site)

/-- An entry of a message. -/
def Member.site : Member → Site
  | field single => single.site
  | oneof group => group.site

/-- A message, from its word to its brace, with its entries. -/
def Message.site (message : Message) : Site :=
  .block ⟨message.location, message.notes.annotations, "message", "\x7d"⟩
    (message.members.map Member.site)

/-- A method, from its name to its semicolon. -/
def Method.site (method : Method) : Site :=
  .leaf ⟨method.location, method.notes.annotations, method.name, ";"⟩

/-- A service, from its word to its brace, with its methods. -/
def Service.site (service : Service) : Site :=
  .block ⟨service.location, service.notes.annotations, "service", "\x7d"⟩
    (service.methods.map Method.site)

/-- A declaration. Package clauses and imports have no annotations. -/
def Declaration.site : Declaration → Site
  | package clause => .leaf ⟨clause.location, [], "package", ";"⟩
  | importing statement => .leaf ⟨statement.location, [], "import", ";"⟩
  | message declared => declared.site
  | service declared => declared.site

/-! ## Nested sites -/

/-- An annotation stands between two offsets of a text. -/
structure AnnotationMark.StandsBetween
    (text : List Char)
    (low high : Nat)
    (mark : AnnotationMark) : Prop where
  shows : Shows text mark.location ("@" ++ mark.name).toList []
  start : low ≤ mark.location.span.start
  stop : mark.location.span.stop ≤ high

/-- A node stands behind an offset of a text, and its annotations between the offset and the
node. -/
structure Outline.StandsBehind (text : List Char) (low : Nat) (outline : Outline) : Prop where
  shows : Shows text outline.location outline.opening.toList outline.closing.toList
  start : low ≤ outline.location.span.start
  annotations :
    ∀ mark ∈ outline.annotations, mark.StandsBetween text low outline.location.span.start

/-- The stretch at a location holds a body in braces between two offsets. The brace that opens the
body is the first of the stretch. -/
def Location.Holds (text : List Char) (location : Location) (start stop : Nat) : Prop :=
  ∃ header body tail,
    Between text location.span.start location.span.stop
        (header ++ '\x7b' :: (body ++ '\x7d' :: tail)) ∧
      '\x7b' ∉ header ∧
      start = location.span.start + byteLength header + 1 ∧
      stop = start + byteLength body

/-- Sites that stand one behind another between two offsets of a text. The parts of a block stand in
the same way in its body. -/
inductive Nested (text : List Char) : Nat → Nat → List Site → Prop
  | nil {low high : Nat} (ordered : low ≤ high) : Nested text low high []
  | leaf
      {low high : Nat}
      {outline : Outline}
      {rest : List Site}
      (stands : outline.StandsBehind text low)
      (later : Nested text outline.location.span.stop high rest) :
      Nested text low high (.leaf outline :: rest)
  | block
      {low high start stop : Nat}
      {outline : Outline}
      {parts rest : List Site}
      (stands : outline.StandsBehind text low)
      (holds : outline.location.Holds text start stop)
      (inner : Nested text start stop parts)
      (later : Nested text outline.location.span.stop high rest) :
      Nested text low high (.block outline parts :: rest)

/-- The locations of sites lie between two offsets, one behind another. -/
structure InOrder (low high : Nat) (sites : List Site) : Prop where
  le : low ≤ high
  inside :
    ∀ site ∈ sites, low ≤ site.location.span.start ∧ site.location.span.stop ≤ high
  apart :
    sites.Pairwise fun first second =>
      first.location.span.stop ≤ second.location.span.start

theorem InOrder.cons
    {low high : Nat}
    {site : Site}
    {rest : List Site}
    (inOrder : InOrder site.location.span.stop high rest)
    (starts : low ≤ site.location.span.start)
    (length : site.location.span.start < site.location.span.stop) :
    InOrder low high (site :: rest) := by
  have hle := inOrder.le
  constructor
  · omega
  · intro other hmember
    rcases List.mem_cons.1 hmember with rfl | hrest
    · exact ⟨starts, hle⟩
    · have hinside := inOrder.inside other hrest
      omega
  · exact List.pairwise_cons.2 ⟨fun other hrest => (inOrder.inside other hrest).1, inOrder.apart⟩

theorem AnnotationMark.StandsBetween.widen
    {text : List Char}
    {low high lower higher : Nat}
    {mark : AnnotationMark}
    (stands : mark.StandsBetween text low high)
    (starts : lower ≤ low)
    (stops : high ≤ higher) :
    mark.StandsBetween text lower higher :=
  ⟨stands.shows, Nat.le_trans starts stands.start, Nat.le_trans stands.stop stops⟩

theorem Outline.StandsBehind.earlier
    {text : List Char}
    {low lower : Nat}
    {outline : Outline}
    (stands : outline.StandsBehind text low)
    (starts : lower ≤ low) :
    outline.StandsBehind text lower := by
  refine ⟨stands.shows, Nat.le_trans starts stands.start, ?_⟩
  intro mark hmember
  exact (stands.annotations mark hmember).widen starts (Nat.le_refl _)

namespace Nested

variable {text : List Char} {low middle high lower higher : Nat} {sites others : List Site}

theorem earlier
    (nested : Nested text low high sites)
    (starts : lower ≤ low) :
    Nested text lower high sites := by
  cases nested with
  | nil ordered =>
      exact .nil (Nat.le_trans starts ordered)
  | leaf stands later =>
      exact .leaf (stands.earlier starts) later
  | block stands holds inner later =>
      exact .block (stands.earlier starts) holds inner later

/-- Sites may be followed by others. -/
theorem append
    (nested : Nested text low middle sites)
    (further : Nested text middle high others) :
    Nested text low high (sites ++ others) := by
  induction nested with
  | nil ordered =>
      exact further.earlier ordered
  | leaf stands later ih =>
      exact .leaf stands (ih further)
  | block stands holds inner later ihInner ih =>
      exact .block stands holds inner (ih further)

theorem later
    (nested : Nested text low high sites)
    (stops : high ≤ higher) :
    Nested text low higher sites := by
  have hsame := nested.append (.nil stops)
  rw [List.append_nil] at hsame
  exact hsame

/-- Nested sites stand one behind another. -/
theorem inOrder (nested : Nested text low high sites) : InOrder low high sites := by
  induction nested with
  | nil ordered =>
      exact ⟨ordered, by simp, .nil⟩
  | leaf stands later ih =>
      refine InOrder.cons ?_ stands.start stands.shows.start_lt_stop
      exact ih
  | block stands holds inner later ihInner ih =>
      refine InOrder.cons ?_ stands.start stands.shows.start_lt_stop
      exact ih

/-- The location of a site shows how the site begins and ends. -/
theorem shows
    {site : Site}
    (nested : Nested text low high sites)
    (member : site ∈ sites) :
    Shows text site.location site.outline.opening.toList site.outline.closing.toList := by
  induction nested with
  | nil ordered =>
      cases member
  | leaf stands later ih =>
      rcases List.mem_cons.1 member with rfl | hother
      · exact stands.shows
      · exact ih hother
  | block stands holds inner later ihInner ih =>
      rcases List.mem_cons.1 member with rfl | hother
      · exact stands.shows
      · exact ih hother

/-- The parts of a block are nested in its body. -/
theorem of_mem_block
    {outline : Outline}
    {parts : List Site}
    (nested : Nested text low high sites)
    (member : .block outline parts ∈ sites) :
    ∃ start stop,
      outline.location.Holds text start stop ∧ Nested text start stop parts := by
  induction nested with
  | nil ordered =>
      cases member
  | leaf stands later ih =>
      rcases List.mem_cons.1 member with hsame | hother
      · cases hsame
      · exact ih hother
  | block stands holds inner later ihInner ih =>
      rcases List.mem_cons.1 member with hsame | hother
      · cases hsame
        exact ⟨_, _, holds, inner⟩
      · exact ih hother

end Nested

/-- Locations lie strictly inside another, one behind another. -/
structure Location.Encloses (outer : Location) (inner : List Location) : Prop where
  inside :
    ∀ location ∈ inner,
      outer.span.start < location.span.start ∧ location.span.stop < outer.span.stop
  ordered : inner.Pairwise fun first second => first.span.stop ≤ second.span.start

/-- A body lies strictly inside the stretch that holds it. -/
theorem Location.Holds.inside
    {text : List Char}
    {location : Location}
    {start stop : Nat}
    (holds : location.Holds text start stop) :
    location.span.start < start ∧ stop < location.span.stop := by
  rcases holds with ⟨header, body, tail, hbetween, _, hstart, hstop⟩
  have hwhole := hbetween.stop_eq
  have hopening := Char.utf8Size_pos '\x7b'
  have hclosing := Char.utf8Size_pos '\x7d'
  simp only [byteLength_append, byteLength_cons] at hwhole
  omega

/-- A block encloses its parts. -/
theorem Nested.encloses
    {text : List Char}
    {low high : Nat}
    {sites : List Site}
    {outline : Outline}
    {parts : List Site}
    (nested : Nested text low high sites)
    (member : .block outline parts ∈ sites) :
    outline.location.Encloses (parts.map Site.location) := by
  rcases nested.of_mem_block member with ⟨start, stop, hholds, hinner⟩
  have hinOrder := hinner.inOrder
  have hbody := hholds.inside
  constructor
  · intro location hmember
    rcases List.mem_map.1 hmember with ⟨site, hsite, rfl⟩
    have hsite := hinOrder.inside site hsite
    omega
  · exact List.pairwise_map.2 hinOrder.apart

/-! ## Nodes and their lexemes -/

/-- The annotations among some notes stand between two offsets of a text. -/
def Notes.StandBetween (text : List Char) (low high : Nat) (notes : Notes) : Prop :=
  ∀ mark ∈ notes.annotations, mark.StandsBetween text low high

theorem Notes.standBetween_none {text : List Char} {low high : Nat} :
    Notes.none.StandBetween text low high := by
  intro mark hmember
  cases hmember

namespace Laid

variable {text : List Char} {start stop : Nat} {lexemes : List Lexeme}

theorem boundary_stop (laid : Laid text start stop lexemes) : Between text stop stop [] := by
  induction laid with
  | nil boundary =>
      exact boundary
  | cons blank separators stands later ih =>
      exact ih

theorem exists_between (laid : Laid text start stop lexemes) :
    ∃ slice, Between text start stop slice :=
  laid.boundary.exists_of_le laid.boundary_stop laid.le

/-- Lexemes stand from the first of them on. -/
theorem from_first
    {lexeme : Lexeme}
    (laid : Laid text start stop (lexeme :: lexemes)) :
    Laid text lexeme.location.span.start stop (lexeme :: lexemes) := by
  cases laid with
  | cons blank separators stands later =>
      rcases stands.between_some with ⟨slice, hslice⟩
      exact .cons hslice.before (by simp) stands later

/-- Braces behind names hold a body. -/
theorem exists_holds
    {first : Lexeme}
    {names body tail : List Lexeme}
    {opening closing : Location}
    (laid :
      Laid text start stop
        ((first :: names) ++ ⟨.leftBrace, opening⟩ :: (body ++ ⟨.rightBrace, closing⟩ :: tail)))
    (named : ∀ lexeme ∈ first :: names, ∃ name, lexeme.token = .ident name)
    {location : Location}
    (span_eq : location.span = ⟨first.location.span.start, stop⟩) :
    ∃ inside last,
      Laid text inside last body ∧
        last ≤ closing.span.start ∧ location.Holds text inside closing.span.start := by
  rcases laid.split with ⟨middle, hnames, hrest⟩
  rcases hnames.from_first.exists_between_names (c := '\x7b') named (by decide) (by decide) with
    ⟨header, hheader, hfree⟩
  cases hrest with
  | @cons _ _ gap _ _ blank separators stands hinner =>
      rcases hinner.split with ⟨last, hbody, hend⟩
      cases hend with
      | @cons _ _ other _ _ blankToo _ standsToo htail =>
          have hopening := stands.between trivial
          have hclosing := standsToo.between trivial
          rw [show Token.leftBrace.written.toList = ['\x7b'] from rfl] at hopening
          rw [show Token.rightBrace.written.toList = ['\x7d'] from rfl] at hclosing
          dsimp only at hopening hclosing
          have hlast : last ≤ closing.span.start := by
            rw [blankToo.stop_eq]
            exact Nat.le_add_right _ _
          rcases hopening.exists_of_le hclosing (Nat.le_trans hbody.le hlast) with
            ⟨slice, hslice⟩
          rcases htail.exists_between with ⟨behind, hbehind⟩
          have hfront : Between text first.location.span.start opening.span.start (header ++ gap) :=
            hheader.append blank
          have hwhole :=
            hfront.append (hopening.append (hslice.append (hclosing.append hbehind)))
          refine ⟨opening.span.stop, last, hbody, hlast, header ++ gap, slice, behind, ?_, ?_, ?_, ?_⟩
          · rw [span_eq]
            exact hwhole
          · intro hmember
            rcases List.mem_append.1 hmember with hnamed | hgap
            · exact hfree hnamed
            · exact absurd (separators _ hgap) (by decide)
          · rw [span_eq, hopening.stop_eq, hfront.stop_eq]
            rfl
          · exact hslice.stop_eq

section Nodes

variable {low : Nat} {notes : Notes} {first last : Lexeme}
variable (low_le : low ≤ start) (waiting : notes.StandBetween text low start)

include low_le waiting

/-- The node from the first of some lexemes to the last, with the notes that wait before it. -/
theorem standsBehind
    {inner : List Lexeme}
    (laid : Laid text start stop (first :: (inner ++ [last])))
    (verbatim : first.token.IsVerbatim)
    (verbatimToo : last.token.IsVerbatim) :
    Outline.StandsBehind text low
        ⟨first.location.through last.location, notes.annotations, first.token.written,
          last.token.written⟩ ∧
      last.location.span.stop = stop := by
  rcases laid.shows verbatim verbatimToo with ⟨hshows, hstart, hstop⟩
  refine ⟨⟨hshows, Nat.le_trans low_le hstart, ?_⟩, hstop⟩
  exact fun mark hmember => (waiting mark hmember).widen (Nat.le_refl _) hstart

theorem nested_leaf
    {inner : List Lexeme}
    (laid : Laid text start stop (first :: (inner ++ [last])))
    (verbatim : first.token.IsVerbatim)
    (verbatimToo : last.token.IsVerbatim) :
    Nested text low stop
      [.leaf
        ⟨first.location.through last.location, notes.annotations, first.token.written,
          last.token.written⟩] := by
  rcases laid.standsBehind low_le waiting verbatim verbatimToo with ⟨hstands, hstop⟩
  exact .leaf hstands (.nil (Nat.le_of_eq hstop))

/-- The node from a name to the end of what follows a body, where the parts are nested in the
body. -/
theorem nested_block
    (names front : List Lexeme)
    {body tail : List Lexeme}
    {opening closing : Location}
    {parts : List Site}
    (laid :
      Laid text start stop
        ((first :: names) ++ ⟨.leftBrace, opening⟩ :: (body ++ ⟨.rightBrace, closing⟩ :: tail)))
    (named : ∀ lexeme ∈ first :: names, ∃ name, lexeme.token = .ident name)
    (ends : ⟨.rightBrace, closing⟩ :: tail = front ++ [last])
    (verbatim : last.token.IsVerbatim)
    (inner : ∀ inside middle, Laid text inside middle body → Nested text inside middle parts) :
    Nested text low stop
      [.block
        ⟨first.location.through last.location, notes.annotations, first.token.written,
          last.token.written⟩
        parts] := by
  have hwhole := laid
  rw [ends] at hwhole
  have hlexemes :
      (first :: names) ++ ⟨.leftBrace, opening⟩ :: (body ++ (front ++ [last])) =
        first :: ((names ++ ⟨.leftBrace, opening⟩ :: (body ++ front)) ++ [last]) := by
    simp
  rw [hlexemes] at hwhole
  have hfirst : first.token.IsVerbatim := by
    rcases named first List.mem_cons_self with ⟨name, hname⟩
    rw [hname]
    trivial
  rcases hwhole.standsBehind low_le waiting hfirst verbatim with ⟨hstands, hstop⟩
  have hspan :
      (first.location.through last.location).span = ⟨first.location.span.start, stop⟩ := by
    rw [← hstop]
    rfl
  rcases laid.exists_holds named hspan with ⟨inside, middle, hbody, hmiddle, hholds⟩
  exact
    .block hstands hholds ((inner inside middle hbody).later hmiddle)
      (.nil (Nat.le_of_eq hstop))

end Nodes

end Laid

/-! ## Phrases -/

/-- The values of a phrase stand where its lexemes do, behind the notes that wait for them. -/
def Sited {α : Type} (Item : Notes → List Lexeme → α → Prop) (site : α → Site) : Prop :=
  ∀ ⦃text : List Char⦄ ⦃low start stop : Nat⦄ ⦃notes : Notes⦄ ⦃taken : List Lexeme⦄ ⦃value : α⦄,
    Item notes taken value →
      Laid text start stop taken →
        low ≤ start → notes.StandBetween text low start → Nested text low stop [site value]

section Bodies

variable {text : List Char} {low start stop : Nat}

/-- An annotation stands where its lexemes do. -/
theorem AnnotationPhrase.standsBetween
    {taken : List Lexeme}
    {mark : AnnotationMark}
    (marked : AnnotationPhrase taken mark)
    (laid : Laid text start stop taken) :
    mark.StandsBetween text start stop := by
  cases marked with
  | bare name place =>
      rcases laid.of_singleton with ⟨hstands, hstart, hstop⟩
      exact ⟨(hstands.shows trivial).forget_closing, hstart, Nat.le_of_eq hstop⟩
  | @list inner values name first opening closing listed =>
      rw [← List.cons_append] at laid
      rcases laid.shows trivial trivial with ⟨hshows, hstart, hstop⟩
      exact ⟨hshows.forget_closing, hstart, Nat.le_of_eq hstop⟩

/-- Trivia bring no annotations. -/
theorem Trivia.annotations_subset
    {margin next : Margin}
    {taken : List Lexeme}
    (passed : Trivia margin taken next) :
    next.waiting.annotations ⊆ margin.waiting.annotations := by
  cases passed with
  | newline place =>
      by_cases hempty : margin.atLineStart = true
      · simp only [if_pos hempty]
        exact List.nil_subset _
      · simp only [if_neg hempty]
        exact List.Subset.refl _
  | comment content place =>
      exact List.Subset.refl _

/-- What stands between items leaves the waiting annotations where they are, and adds those that it
passes. -/
theorem Filler.standBetween
    {margin next : Margin}
    {taken : List Lexeme}
    (passed : Filler margin taken next)
    (laid : Laid text start stop taken)
    (low_le : low ≤ start)
    (waiting : margin.waiting.StandBetween text low start) :
    next.waiting.StandBetween text low stop := by
  have hkept : ∀ mark ∈ margin.waiting.annotations, mark.StandsBetween text low stop :=
    fun mark hmember => (waiting mark hmember).widen (Nat.le_refl _) laid.le
  cases passed with
  | trivia passed =>
      exact fun mark hmember => hkept mark (passed.annotations_subset hmember)
  | noted margin marked =>
      intro other hmember
      rcases List.mem_append.1 hmember with hold | hnew
      · exact hkept other hold
      · rw [List.mem_singleton.1 hnew]
        exact (marked.standsBetween laid).widen low_le (Nat.le_refl _)

/-- The items of a body are nested where its lexemes are laid. -/
theorem Entries.nested
    {α : Type}
    {Item : Notes → List Lexeme → α → Prop}
    {site : α → Site}
    (sited : Sited Item site)
    {margin : Margin}
    {body : List Lexeme}
    {items : List α}
    (entries : Entries Item margin body items)
    (laid : Laid text start stop body)
    (low_le : low ≤ start)
    (waiting : margin.waiting.StandBetween text low start) :
    Nested text low stop (items.map site) := by
  induction entries generalizing low start with
  | nil margin =>
      exact .nil (Nat.le_trans low_le laid.le)
  | filler passed later ih =>
      rcases laid.split with ⟨middle, htaken, hrest⟩
      exact
        ih hrest (Nat.le_trans low_le htaken.le) (passed.standBetween htaken low_le waiting)
  | item spelled later ih =>
      rcases laid.split with ⟨middle, htaken, hrest⟩
      have hfirst := sited spelled htaken low_le waiting
      exact hfirst.append (ih hrest (Nat.le_refl _) Notes.standBetween_none)

/-- A body in braces holds its items. -/
theorem Entries.nested_body
    {α : Type}
    {Item : Notes → List Lexeme → α → Prop}
    {site : α → Site}
    (sited : Sited Item site)
    {body : List Lexeme}
    {items : List α}
    (entries : Entries Item .clear body items)
    (inside middle : Nat)
    (laid : Laid text inside middle body) :
    Nested text inside middle (items.map site) :=
  entries.nested sited laid (Nat.le_refl _) Notes.standBetween_none

end Bodies

theorem FieldPhrase.sited : Sited FieldPhrase Field.site := by
  intro text low start stop notes taken value spelled laid low_le waiting
  cases spelled with
  | @mk typeLexemes indexLexemes name type number semicolon place noGroup typed indexed =>
      cases indexed with
      | mk number equals digits semicolon =>
          have hlexemes :
              typeLexemes ++
                  [⟨.equals, equals⟩, ⟨.number number, digits⟩, ⟨.semicolon, semicolon⟩] =
                (typeLexemes ++ [⟨.equals, equals⟩, ⟨.number number, digits⟩]) ++
                  [(⟨.semicolon, semicolon⟩ : Lexeme)] := by
            simp
          rw [hlexemes] at laid
          exact laid.nested_leaf low_le waiting trivial trivial

theorem GroupPhrase.sited : Sited GroupPhrase Oneof.site := by
  intro text low start stop notes taken value spelled laid low_le waiting
  cases spelled with
  | @mk body indexLexemes fields number semicolon place opening closing entries indexed =>
      cases indexed with
      | mk number equals digits semicolon =>
          refine
            Laid.nested_block low_le waiting []
              [⟨.rightBrace, closing⟩, ⟨.equals, equals⟩, ⟨.number number, digits⟩] laid ?_ rfl
              trivial (entries.nested_body FieldPhrase.sited)
          intro lexeme hmember
          rw [List.mem_singleton.1 hmember]
          exact ⟨_, rfl⟩

theorem MemberPhrase.sited : Sited MemberPhrase Member.site := by
  intro text low start stop notes taken value spelled laid low_le waiting
  cases spelled with
  | field spelled =>
      exact FieldPhrase.sited spelled laid low_le waiting
  | oneof spelled =>
      exact GroupPhrase.sited spelled laid low_le waiting

theorem MethodPhrase.sited : Sited MethodPhrase Method.site := by
  intro text low start stop notes taken value spelled laid low_le waiting
  cases spelled with
  | @mk argument result argumentType returnType returnsStream name place opening closing semicolon
      argumentSpelled resultSpelled =>
      have hlexemes :
          ⟨.leftParen, opening⟩ ::
              (argument ++ ⟨.rightParen, closing⟩ :: (result ++ [⟨.semicolon, semicolon⟩])) =
            (⟨.leftParen, opening⟩ :: (argument ++ ⟨.rightParen, closing⟩ :: result)) ++
              [(⟨.semicolon, semicolon⟩ : Lexeme)] := by
        simp
      rw [hlexemes] at laid
      exact laid.nested_leaf low_le waiting trivial trivial

/-- A word and a name. -/
theorem exists_ident_of_mem_pair
    {word name : String}
    {place other : Location}
    {lexeme : Lexeme}
    (member : lexeme ∈ [(⟨.ident word, place⟩ : Lexeme), ⟨.ident name, other⟩]) :
    ∃ spelled, lexeme.token = .ident spelled := by
  rcases List.mem_pair.1 member with rfl | rfl
  · exact ⟨word, rfl⟩
  · exact ⟨name, rfl⟩

theorem MessagePhrase.sited : Sited MessagePhrase Message.site := by
  intro text low start stop notes taken value spelled laid low_le waiting
  cases spelled with
  | @mk body members name place namePlace opening closing entries =>
      exact
        Laid.nested_block low_le waiting [⟨.ident name, namePlace⟩] [] laid
          (fun _ => exists_ident_of_mem_pair) rfl trivial (entries.nested_body MemberPhrase.sited)

theorem ServicePhrase.sited : Sited ServicePhrase Service.site := by
  intro text low start stop notes taken value spelled laid low_le waiting
  cases spelled with
  | @mk body methods name place namePlace opening closing entries =>
      exact
        Laid.nested_block low_le waiting [⟨.ident name, namePlace⟩] [] laid
          (fun _ => exists_ident_of_mem_pair) rfl trivial (entries.nested_body MethodPhrase.sited)

theorem DeclarationPhrase.sited : Sited DeclarationPhrase Declaration.site := by
  intro text low start stop notes taken value spelled laid low_le waiting
  cases spelled with
  | message spelled =>
      exact MessagePhrase.sited spelled laid low_le waiting
  | service spelled =>
      exact ServicePhrase.sited spelled laid low_le waiting

section Schemas

variable {text : List Char} {low start stop : Nat}

theorem PackagePhrase.nested
    {taken : List Lexeme}
    {clause : Package}
    (spelled : PackagePhrase taken clause)
    (laid : Laid text start stop taken)
    (low_le : low ≤ start) :
    Nested text low stop [(Declaration.package clause).site] := by
  cases spelled with
  | mk place semicolon spelled =>
      have hnone : Notes.none.StandBetween text low start := Notes.standBetween_none
      exact laid.nested_leaf low_le hnone trivial trivial

/-- Imports are nested where their lexemes are laid, and no annotations wait behind them. -/
theorem ImportBlock.nested
    {margin last : Margin}
    {taken : List Lexeme}
    {imports : List Import}
    (imported : ImportBlock margin taken imports last)
    (laid : Laid text start stop taken)
    (noMarks : margin.waiting.annotations = []) :
    Nested text start stop (imports.map fun statement => (Declaration.importing statement).site) ∧
      last.waiting.annotations = [] := by
  induction imported generalizing start with
  | nil margin =>
      exact ⟨.nil laid.le, noMarks⟩
  | trivia passed later ih =>
      rcases laid.split with ⟨middle, htaken, hrest⟩
      have hsubset := passed.annotations_subset
      rw [noMarks] at hsubset
      rcases ih hrest (List.subset_nil.1 hsubset) with ⟨hnested, hlast⟩
      exact ⟨hnested.earlier htaken.le, hlast⟩
  | @importing margin last rest imports path place namePlace semicolon later ih =>
      have hlexemes :
          ⟨.importWord, place⟩ :: ⟨.stringLiteral path, namePlace⟩ :: ⟨.semicolon, semicolon⟩ ::
              rest =
            (⟨.importWord, place⟩ ::
              ([⟨.stringLiteral path, namePlace⟩] ++ [(⟨.semicolon, semicolon⟩ : Lexeme)])) ++
              rest := by
        simp
      rw [hlexemes] at laid
      rcases laid.split with ⟨middle, htaken, hrest⟩
      have hnone : Notes.none.StandBetween text start start := Notes.standBetween_none
      have hfirst := htaken.nested_leaf (Nat.le_refl _) hnone trivial trivial
      rcases ih hrest rfl with ⟨hnested, hlast⟩
      exact ⟨hfirst.append hnested, hlast⟩

/-- The declarations of a schema are nested where its lexemes are laid. -/
theorem SchemaPhrase.nested
    {front : List Lexeme}
    {last : Location}
    {declarations : List Declaration}
    (spelled : SchemaPhrase (front ++ [⟨.eof, last⟩]) declarations)
    (laid : Laid text start stop front) :
    Nested text start stop (declarations.map Declaration.site) := by
  generalize hwhole : front ++ [⟨.eof, last⟩] = lexemes at spelled
  cases spelled with
  | @mk leading clauseLexemes importLexemes body clause imports margin items place idle packaged
      imported entries =>
      have hfront : front = leading ++ (clauseLexemes ++ (importLexemes ++ body)) := by
        simp only [← List.append_assoc] at hwhole ⊢
        exact List.append_inj_left' hwhole rfl
      rw [hfront] at laid
      rcases laid.split with ⟨first, hleading, hrest⟩
      rcases hrest.split with ⟨second, hclause, hrest⟩
      rcases hrest.split with ⟨third, himports, hbody⟩
      rcases imported.nested himports rfl with ⟨himported, hmarks⟩
      have hwaiting : margin.waiting.StandBetween text third third := by
        intro mark hmember
        rw [hmarks] at hmember
        cases hmember
      have hitems := entries.nested DeclarationPhrase.sited hbody (Nat.le_refl _) hwaiting
      have hclause := packaged.nested hclause hleading.le
      have hall := hclause.append (himported.append hitems)
      simpa [Function.comp_def] using hall

end Schemas

/-! ## Schemas that were read from a text -/

/-- The declarations of a schema that is read from a text are nested in the text. -/
theorem nested_of_parse
    {file text : String}
    {schema : Schema}
    (parsed : Schema.parse file text = .ok schema) :
    Nested text.toList 0 (byteLength text.toList) (schema.declarations.map Declaration.site) := by
  have htext := mapError_eq_ok_iff.1 parsed
  rcases Schema.exists_scanText_of_ofText htext with ⟨lexemes, hlexemes⟩
  rcases (Schema.ofText_eq_ok_iff hlexemes).1 htext with ⟨declarations, hspelled, _, hschema⟩
  rcases exists_laid_of_scanText hlexemes with ⟨front, last, stop, rfl, hlaid, hstop⟩
  rw [hschema, Schema.declarations_ofDeclarations]
  exact (hspelled.nested hlaid).later hstop

/-- The locations in a schema form a tree over its text. -/
structure WellNested (text : List Char) (schema : Schema) : Prop where
  nested : Nested text 0 (byteLength text) (schema.declarations.map Declaration.site)
  declarations_apart :
    schema.declarations.Pairwise fun first second =>
      first.location.span.stop ≤ second.location.span.start
  members_inside :
    ∀ message ∈ schema.messages,
      message.location.Encloses (message.members.map fun member => member.site.location)
  fields_inside :
    ∀ message ∈ schema.messages, ∀ oneof ∈ message.oneofs,
      oneof.location.Encloses (oneof.fields.map Field.location)
  methods_inside :
    ∀ service ∈ schema.services,
      service.location.Encloses (service.methods.map Method.location)

theorem Declaration.location_site (declaration : Declaration) :
    declaration.site.location = declaration.location := by
  cases declaration <;> rfl

/-- A group is one of the entries of its message. -/
theorem Message.mem_members_of_oneofs
    {message : Message}
    {oneof : Oneof}
    (member : oneof ∈ message.oneofs) :
    .oneof oneof ∈ message.members := by
  rcases List.mem_filterMap.1 member with ⟨entry, hentry, hview⟩
  cases entry with
  | field single =>
      cases hview
  | oneof group =>
      cases hview
      exact hentry

section WellNested

variable {text : List Char} {schema : Schema}
variable (nested : Nested text 0 (byteLength text) (schema.declarations.map Declaration.site))

include nested

theorem exists_nested_members
    {message : Message}
    (listed : message ∈ schema.messages) :
    message.location.Encloses (message.members.map fun member => member.site.location) ∧
      ∃ start stop, Nested text start stop (message.members.map Member.site) := by
  have hmember : message.site ∈ schema.declarations.map Declaration.site :=
    List.mem_map_of_mem (Schema.mem_messages.1 listed)
  have hencloses := nested.encloses hmember
  rcases nested.of_mem_block hmember with ⟨start, stop, _, hinner⟩
  rw [List.map_map] at hencloses
  exact ⟨hencloses, start, stop, hinner⟩

theorem encloses_methods
    {service : Service}
    (listed : service ∈ schema.services) :
    service.location.Encloses (service.methods.map Method.location) := by
  have hmember : service.site ∈ schema.declarations.map Declaration.site :=
    List.mem_map_of_mem (Schema.mem_services.1 listed)
  have hencloses := nested.encloses hmember
  rw [List.map_map] at hencloses
  exact hencloses

theorem encloses_fields
    {message : Message}
    {oneof : Oneof}
    (listed : message ∈ schema.messages)
    (member : oneof ∈ message.oneofs) :
    oneof.location.Encloses (oneof.fields.map Field.location) := by
  rcases exists_nested_members nested listed with ⟨_, start, stop, hinner⟩
  have hmember : oneof.site ∈ message.members.map Member.site :=
    List.mem_map_of_mem (Message.mem_members_of_oneofs member)
  have hencloses := hinner.encloses hmember
  rw [List.map_map] at hencloses
  exact hencloses

end WellNested

/-- The locations of every schema that is read from a text are well nested. -/
theorem wellNested_of_parse
    {file text : String}
    {schema : Schema}
    (parsed : Schema.parse file text = .ok schema) :
    WellNested text.toList schema := by
  have hnested := nested_of_parse parsed
  constructor
  · exact hnested
  · have hapart := List.pairwise_map.1 hnested.inOrder.apart
    simpa only [Declaration.location_site] using hapart
  · exact fun message hlisted => (exists_nested_members hnested hlisted).1
  · exact fun message hlisted oneof hmember => encloses_fields hnested hlisted hmember
  · exact fun service hlisted => encloses_methods hnested hlisted

/-- A text with characters of several bytes before its nodes, annotations that touch a brace and a
node, and a comment in front of the first field of a group. -/
def nestedText : String :=
  "# ä𝄞\npackage p;import \"é\";@a(\"€\")message M\x7b@b y uint8 = 1;oneof\x7b# 中\n" ++
    "@c z N = 2;\x7d = 3;\x7d\nservice S \x7bm() -> stream M;\x7d"

theorem wellNested_of_parse_nestedText :
    ∃ schema,
      Schema.parse "a.yarp" nestedText = .ok schema ∧ WellNested nestedText.toList schema := by
  have hparses : (Schema.parse "a.yarp" nestedText).isOk = true := by decide +kernel
  rcases exists_eq_ok_of_isOk hparses with ⟨schema, hschema⟩
  exact ⟨schema, hschema, wellNested_of_parse hschema⟩

end InterfaceSchema
