import InterfaceSchema.Proofs.Notes.Margin
import InterfaceSchema.Proofs.Schema.Table

/-!
# Places of nodes

The nodes that phrases spell stand one after another, each with the notes since the last boundary.

* `Node`, `Schema.nodes`: the nodes that carry notes, in the order of the text.
* `Placed`: a stretch of lexemes that holds some nodes, with a boundary between any two.
* `Places`: the phrases of a kind, of which each is such a stretch and ends with nothing waiting.
* `Entries.placed`: what holds for items holds for the body they stand in.
* `SchemaPhrase.placed`: so it holds for whole schemas.
-/

namespace InterfaceSchema

/-! ## Nodes -/

/-- A part of a schema that carries notes. -/
inductive Node
  | message (declared : Message)
  | service (declared : Service)
  | field (single : Field)
  | oneof (group : Oneof)
  | method (declared : Method)
  deriving DecidableEq

namespace Node

/-- The place of a node. -/
def location : Node → Location
  | message declared => declared.location
  | service declared => declared.location
  | field single => single.location
  | oneof group => group.location
  | method declared => declared.location

/-- The notes of a node. -/
def notes : Node → Notes
  | message declared => declared.notes
  | service declared => declared.notes
  | field single => single.notes
  | oneof group => group.notes
  | method declared => declared.notes

/-- The lexeme at a place begins where the node begins. -/
def OpensAt (node : Node) (lexemes : List Lexeme) (k : Nat) : Prop :=
  ∃ lexeme,
    lexemes[k]? = some lexeme ∧ lexeme.location.span.start = node.location.span.start

end Node

/-- The nodes of an entry in the body of a message. -/
def Member.nodes : Member → List Node
  | .field single => [.field single]
  | .oneof group => .oneof group :: group.fields.map .field

/-- The nodes of a declaration. -/
def Declaration.nodes : Declaration → List Node
  | .package _ => []
  | .importing _ => []
  | .message declared => .message declared :: declared.members.flatMap Member.nodes
  | .service declared => .service declared :: declared.methods.map .method

/-- The nodes of a schema in the order in which they begin. -/
def Schema.nodes (schema : Schema) : List Node :=
  schema.declarations.flatMap Declaration.nodes

/-! ## Stretches with nodes -/

/-- A stretch from one place to another that holds some nodes. Each has the notes since the last
boundary, and the next node begins behind a boundary. -/
inductive Placed (lexemes : List Lexeme) : Nat → Nat → List Node → Prop
  | nil {start stop : Nat} (forward : start ≤ stop) : Placed lexemes start stop []
  | cons
      {start k m stop : Nat}
      {node : Node}
      {nodes : List Node}
      (forward : start ≤ k)
      (opens : node.OpensAt lexemes k)
      (noted : ∃ b, NotesBetween lexemes b k node.notes)
      (inside : k ≤ m)
      (boundary : isBoundary lexemes m = true)
      (later : Placed lexemes (m + 1) stop nodes) :
      Placed lexemes start stop (node :: nodes)

namespace Placed

variable {lexemes : List Lexeme} {start middle stop : Nat} {first second : List Node}

theorem earlier
    {before : Nat}
    (further : before ≤ start)
    (placed : Placed lexemes start stop first) :
    Placed lexemes before stop first := by
  cases placed with
  | nil forward =>
      exact nil (Nat.le_trans further forward)
  | cons forward opens noted inside boundary later =>
      exact cons (Nat.le_trans further forward) opens noted inside boundary later

theorem later
    {behind : Nat}
    (further : stop ≤ behind)
    (placed : Placed lexemes start stop first) :
    Placed lexemes start behind first := by
  induction placed with
  | nil forward =>
      exact nil (Nat.le_trans forward further)
  | cons forward opens noted inside boundary later ih =>
      exact cons forward opens noted inside boundary (ih further)

theorem append
    (before : Placed lexemes start middle first)
    (behind : Placed lexemes middle stop second) :
    Placed lexemes start stop (first ++ second) := by
  induction before with
  | nil forward =>
      exact behind.earlier forward
  | cons forward opens noted inside boundary later ih =>
      exact cons forward opens noted inside boundary (ih behind)

end Placed

/-- Every phrase of a kind is a stretch that holds the nodes it spells, and nothing waits behind
it. -/
def Places
    {α : Type}
    (Item : Notes → List Lexeme → α → Prop)
    (nodes : α → List Node) : Prop :=
  ∀ {lexemes rest taken : List Lexeme} {k : Nat} {margin : Margin} {value : α},
    margin.StandsAt lexemes k →
    Item margin.waiting taken value →
    lexemes.drop k = taken ++ rest →
      Placed lexemes k (k + taken.length) (nodes value) ∧
        Margin.clear.StandsAt lexemes (k + taken.length)

/-! ## Items and bodies -/

section Items

variable {lexemes rest : List Lexeme} {k : Nat} {margin : Margin} {α : Type}

/-- An item that ends with a semicolon is a stretch that holds its own node. -/
theorem Margin.StandsAt.placed
    {node : Node}
    {name : String}
    {start : Location}
    {more : List Lexeme}
    (holds : margin.StandsAt lexemes k)
    (stands : lexemes.drop k = (⟨.ident name, start⟩ :: more) ++ rest)
    (ended : Ended (⟨.ident name, start⟩ :: more))
    (begins : start.span.start = node.location.span.start)
    (takes : node.notes = margin.waiting) :
    Placed lexemes k (k + (⟨.ident name, start⟩ :: more : List Lexeme).length) [node] ∧
      Margin.clear.StandsAt lexemes
        (k + (⟨.ident name, start⟩ :: more : List Lexeme).length) := by
  rcases Margin.StandsAt.of_ended stands holds.region (noToken_cons (by simp)) ended with
    ⟨m, hinside, hlast, hboundary, hclear⟩
  refine ⟨?_, hclear⟩
  refine Placed.cons (Nat.le_refl k) ⟨_, lexeme_at stands, begins⟩ ?_ hinside hboundary ?_
  · rw [takes]
    exact holds.notes
  · exact Placed.nil (Nat.le_of_eq hlast)

theorem FieldPhrase.places : Places FieldPhrase fun single => [.field single] := by
  intro lexemes rest taken k margin value holds spelled stands
  have hended := spelled.ended
  cases spelled with
  | mk start noGroup typed indexed =>
      exact holds.placed stands hended rfl rfl

theorem MethodPhrase.places : Places MethodPhrase fun declared => [.method declared] := by
  intro lexemes rest taken k margin value holds spelled stands
  have hended := spelled.ended
  cases spelled with
  | mk name start opening closing stop argument result =>
      exact holds.placed stands hended rfl rfl

/-- The items between the braces of a body stand one after another. The induction carries the
margin along: it is right for the place that is reached. -/
theorem Entries.placed
    {Item : Notes → List Lexeme → α → Prop}
    {nodes : α → List Node}
    (places : Places Item nodes)
    (opens : OpensWithName Item)
    {body : List Lexeme}
    {items : List α}
    (entries : Entries Item margin body items)
    (holds : margin.StandsAt lexemes k)
    (stands : lexemes.drop k = body ++ rest)
    (noList : NoToken .leftParen rest) :
    Placed lexemes k (k + body.length) (items.flatMap nodes) ∧
      ∃ last : Margin, last.StandsAt lexemes (k + body.length) := by
  induction entries generalizing k with
  | nil margin =>
      exact ⟨Placed.nil (Nat.le_refl k), margin, holds⟩
  | @filler margin next taken more items passed later ih =>
      rw [List.append_assoc] at stands
      have hnoList : NoToken .leftParen (more ++ rest) :=
        later.noToken opens Grammar.leftParen_opensNothing noList
      have hnext := holds.filler passed stands hnoList
      rcases ih hnext (drop_of_append stands) with ⟨hplaced, last, hlast⟩
      rw [List.length_append, ← Nat.add_assoc]
      exact ⟨hplaced.earlier (Nat.le_add_right _ _), last, hlast⟩
  | @item margin taken more value items spelled later ih =>
      rw [List.append_assoc] at stands
      rcases places holds spelled stands with ⟨hfirst, hclear⟩
      rcases ih hclear (drop_of_append stands) with ⟨hplaced, last, hlast⟩
      rw [List.length_append, ← Nat.add_assoc]
      exact ⟨hfirst.append hplaced, last, hlast⟩

/-- A body begins and ends with nothing waiting: both its braces are boundaries. -/
theorem Entries.placed_body
    {Item : Notes → List Lexeme → α → Prop}
    {nodes : α → List Node}
    (places : Places Item nodes)
    (opens : OpensWithName Item)
    {body : List Lexeme}
    {items : List α}
    {opening closing : Location}
    (entries : Entries Item .clear body items)
    (outside : regionAt lexemes k ≠ .values)
    (stands :
      lexemes.drop k = ⟨.leftBrace, opening⟩ :: (body ++ ⟨.rightBrace, closing⟩ :: rest)) :
    isBoundary lexemes k = true ∧
      Placed lexemes (k + 1) (k + 1 + body.length + 1) (items.flatMap nodes) ∧
      Margin.clear.StandsAt lexemes (k + 1 + body.length + 1) := by
  rcases Margin.StandsAt.of_mark stands outside (Or.inr (Or.inl rfl)) with ⟨hboundary, hclear⟩
  have hbody := drop_of_cons stands
  rcases entries.placed places opens hclear hbody (noToken_cons (by simp)) with
    ⟨hplaced, last, hlast⟩
  have hclosing := drop_of_append hbody
  rcases Margin.StandsAt.of_mark hclosing hlast.region (Or.inr (Or.inr rfl)) with ⟨_, hbehind⟩
  exact ⟨hboundary, hplaced.later (Nat.le_succ _), hbehind⟩

end Items

/-! ## Messages and services -/

theorem MemberPhrase.places : Places MemberPhrase Member.nodes := by
  intro lexemes rest taken k margin value holds spelled stands
  cases spelled with
  | field spelled =>
      exact FieldPhrase.places holds spelled stands
  | oneof spelled =>
      cases spelled with
      | @mk body indexLexemes fields number stop start opening closing entries indexed =>
          have hlexeme := lexeme_at stands
          rw [List.cons_append, List.cons_append, List.append_assoc] at stands
          have hopening := drop_of_cons stands
          have houtside := regionAt_succ_ne_values stands holds.region (by simp [Token.oneofWord])
          rcases entries.placed_body FieldPhrase.places FieldPhrase.opensWithName houtside
              hopening with
            ⟨hboundary, hfields, hclear⟩
          have hindex := drop_of_cons (drop_of_append (drop_of_cons hopening))
          rw [List.append_eq] at hindex
          have hnoList : NoToken .leftParen indexLexemes := by
            cases indexed
            exact noToken_cons (by simp)
          rcases Margin.StandsAt.of_ended hindex hclear.region hnoList indexed.ended with
            ⟨m, _, _, _, hbehind⟩
          have hlength :
              k + (⟨.oneofWord, start⟩ :: ⟨.leftBrace, opening⟩ ::
                (body ++ ⟨.rightBrace, closing⟩ :: indexLexemes) : List Lexeme).length =
                  k + 1 + 1 + body.length + 1 + indexLexemes.length := by
            simp only [List.length_cons, List.length_append]
            omega
          rw [hlength]
          refine ⟨?_, hbehind⟩
          refine Placed.cons (Nat.le_refl k) ⟨_, hlexeme, rfl⟩ holds.notes (Nat.le_succ k)
            hboundary ?_
          rw [List.map_eq_flatMap]
          exact hfields.later (Nat.le_add_right _ _)

/-- A word, a name and a body make a stretch that holds a node and those in the body. -/
theorem Entries.placed_declaration
    {α : Type}
    {Item : Notes → List Lexeme → α → Prop}
    {nodes : α → List Node}
    (places : Places Item nodes)
    (opens : OpensWithName Item)
    {lexemes rest body : List Lexeme}
    {k : Nat}
    {margin : Margin}
    {items : List α}
    {word name : String}
    {start place opening closing : Location}
    (node : Node)
    (entries : Entries Item .clear body items)
    (holds : margin.StandsAt lexemes k)
    (stands :
      lexemes.drop k =
        (⟨.ident word, start⟩ :: ⟨.ident name, place⟩ :: ⟨.leftBrace, opening⟩ ::
          (body ++ [⟨.rightBrace, closing⟩])) ++ rest)
    (begins : start.span.start = node.location.span.start)
    (takes : node.notes = margin.waiting) :
    Placed lexemes k
        (k + (⟨.ident word, start⟩ :: ⟨.ident name, place⟩ :: ⟨.leftBrace, opening⟩ ::
          (body ++ [⟨.rightBrace, closing⟩]) : List Lexeme).length)
        (node :: items.flatMap nodes) ∧
      Margin.clear.StandsAt lexemes
        (k + (⟨.ident word, start⟩ :: ⟨.ident name, place⟩ :: ⟨.leftBrace, opening⟩ ::
          (body ++ [⟨.rightBrace, closing⟩]) : List Lexeme).length) := by
  have hlexeme := lexeme_at stands
  rw [List.cons_append, List.cons_append, List.cons_append, List.append_assoc] at stands
  have hname := drop_of_cons stands
  have hopening := drop_of_cons hname
  have hbefore := regionAt_succ_ne_values stands holds.region (by simp)
  have houtside := regionAt_succ_ne_values hname hbefore (by simp)
  rcases entries.placed_body places opens houtside hopening with ⟨hboundary, hitems, hclear⟩
  have hlength :
      k + (⟨.ident word, start⟩ :: ⟨.ident name, place⟩ :: ⟨.leftBrace, opening⟩ ::
        (body ++ [⟨.rightBrace, closing⟩]) : List Lexeme).length =
          k + 1 + 1 + 1 + body.length + 1 := by
    simp only [List.length_cons, List.length_append, List.length_nil]
    omega
  rw [hlength]
  refine ⟨?_, hclear⟩
  refine Placed.cons (Nat.le_refl k) ⟨_, hlexeme, begins⟩ ?_ (by omega) hboundary hitems
  rw [takes]
  exact holds.notes

theorem DeclarationPhrase.places : Places DeclarationPhrase Declaration.nodes := by
  intro lexemes rest taken k margin value holds spelled stands
  cases spelled with
  | message spelled =>
      cases spelled with
      | mk name start place opening closing entries =>
          exact
            Entries.placed_declaration MemberPhrase.places MemberPhrase.opensWithName (.message _)
              entries holds stands rfl rfl
  | service spelled =>
      cases spelled with
      | @mk body methods name start place opening closing entries =>
          have hplaced :=
            Entries.placed_declaration MethodPhrase.places MethodPhrase.opensWithName
              (.service ⟨start.through closing, name, margin.waiting, methods⟩)
              entries holds stands rfl rfl
          rw [← List.map_eq_flatMap] at hplaced
          exact hplaced

/-! ## Schemas -/

section Schemas

variable {lexemes rest taken : List Lexeme} {k : Nat} {margin last : Margin}

/-- Each import leaves nothing waiting. -/
theorem ImportBlock.standsAt
    {imports : List Import}
    (imported : ImportBlock margin taken imports last)
    (holds : margin.StandsAt lexemes k)
    (stands : lexemes.drop k = taken ++ rest) :
    last.StandsAt lexemes (k + taken.length) := by
  induction imported generalizing k with
  | nil margin =>
      exact holds
  | trivia passed later ih =>
      rw [List.append_assoc] at stands
      rw [List.length_append, ← Nat.add_assoc]
      exact ih (holds.trivia passed stands) (drop_of_append stands)
  | @importing margin last more imports path start place stop later ih =>
      have hended :
          Ended [⟨.importWord, start⟩, ⟨.stringLiteral path, place⟩, ⟨.semicolon, stop⟩] := by
        refine ⟨[⟨.importWord, start⟩, ⟨.stringLiteral path, place⟩], stop, rfl, ?_⟩
        simp [Token.importWord]
      have hstatement :
          lexemes.drop k =
            [⟨.importWord, start⟩, ⟨.stringLiteral path, place⟩, ⟨.semicolon, stop⟩] ++
              (more ++ rest) :=
        stands
      rcases Margin.StandsAt.of_ended hstatement holds.region
          (noToken_cons (by simp [Token.importWord])) hended with
        ⟨m, _, _, _, hclear⟩
      have hmore := ih hclear (drop_of_append hstatement)
      have hlength :
          k + (⟨.importWord, start⟩ :: ⟨.stringLiteral path, place⟩ :: ⟨.semicolon, stop⟩ ::
            more : List Lexeme).length = k + 3 + more.length := by
        simp only [List.length_cons]
        omega
      rw [hlength]
      exact hmore

/-- A whole schema holds the nodes of its declarations. -/
theorem SchemaPhrase.placed
    {declarations : List Declaration}
    (spelled : SchemaPhrase lexemes declarations) :
    ∃ start stop, Placed lexemes start stop (declarations.flatMap Declaration.nodes) := by
  cases spelled with
  | @mk leading clauseLexemes importLexemes body clause imports margin items stop idle packaged
      imported entries =>
      generalize hlexemes :
        leading ++ (clauseLexemes ++ (importLexemes ++ (body ++ [⟨.eof, stop⟩]))) = lexemes
      have hstart : lexemes.drop 0 =
          leading ++ (clauseLexemes ++ (importLexemes ++ (body ++ [⟨.eof, stop⟩]))) :=
        hlexemes.symm
      have hidle : Plain leading := by
        intro lexeme hmem
        rcases idle lexeme hmem with hnewline | ⟨text, hcomment⟩
        · simp [hnewline]
        · simp [hcomment]
      have houtside : regionAt lexemes (0 + leading.length) = .outside :=
        regionAt_of_plain hstart regionAt_zero hidle
      have hclause := drop_of_append hstart
      have hnoList : NoToken .leftParen clauseLexemes := by
        rcases packaged.opens with ⟨place, more, rfl⟩
        exact noToken_cons (by simp [Token.packageWord])
      rcases Margin.StandsAt.of_ended hclause (by rw [houtside]; simp) hnoList packaged.ended with
        ⟨m, _, _, _, hclear⟩
      have himports := drop_of_append hclause
      have hmargin := imported.standsAt hclear himports
      rcases entries.placed DeclarationPhrase.places DeclarationPhrase.opensWithName hmargin
          (drop_of_append himports) (noToken_cons (by simp)) with
        ⟨hplaced, _⟩
      have hnone : (imports.map Declaration.importing).flatMap Declaration.nodes = [] := by
        rw [List.flatMap_map, List.flatMap_eq_nil_iff]
        intro statement _
        rfl
      have hnodes :
          (.package clause :: (imports.map Declaration.importing ++ items)).flatMap
            Declaration.nodes = items.flatMap Declaration.nodes := by
        rw [List.flatMap_cons, List.flatMap_append, hnone]
        rfl
      rw [hnodes]
      exact ⟨_, _, hplaced⟩

end Schemas

end InterfaceSchema
