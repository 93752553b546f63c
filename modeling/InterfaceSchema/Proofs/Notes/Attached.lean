import InterfaceSchema.Proofs.Notes.Placed
import InterfaceSchema.Proofs.Reading.Text

/-!
# Attached notes

The comments and annotations of a node are those between the last semicolon, brace or empty line
before its first token and that token (`Schema.notes_of_parse`).

* `pieces_starts`: no two lexemes of a text begin at one place, so that a node has one first token.
* `Placed.notes`, `Placed.disjoint`: what a stretch says about each of its nodes, and about any two.
-/

namespace InterfaceSchema

/-! ## First tokens -/

/-- The pieces of a text begin one behind another. -/
theorem pieces_starts
    {offset : Nat}
    {text : List Char}
    {found : List Piece}
    (succeeds : pieces offset text = .ok found) :
    (∀ piece ∈ found, offset ≤ piece.span.start) ∧
      found.Pairwise fun first second => first.span.start < second.span.start := by
  induction offset, text using pieces.induct generalizing found with
  | case1 offset =>
      simp only [pieces, Except.ok.injEq] at succeeds
      subst succeeds
      simp
  | case2 offset c rest hseparator ih =>
      rw [pieces, if_pos hseparator] at succeeds
      rcases ih succeeds with ⟨hbehind, hordered⟩
      refine ⟨?_, hordered⟩
      intro piece hmem
      exact Nat.le_trans (Nat.le_add_right _ _) (hbehind piece hmem)
  | case3 offset c rest hword cause more hread =>
      rw [pieces, if_neg hword, hread] at succeeds
      simp at succeeds
  | case4 offset c rest hword token more hread stop failure hlater =>
      rw [pieces, if_neg hword, hread] at succeeds
      simp only at succeeds
      rw [hlater] at succeeds
      simp at succeeds
  | case5 offset c rest hword token more hread stop later hlater =>
      rename_i ih
      rw [pieces, if_neg hword, hread] at succeeds
      simp only at succeeds
      rw [hlater] at succeeds
      simp only [Except.ok.injEq] at succeeds
      subst succeeds
      rcases ih hlater with ⟨hbehind, hordered⟩
      have hstop : offset < stop := by
        have hsize := Char.utf8Size_pos c
        simp only [stop, byteLength_cons]
        omega
      refine ⟨?_, List.pairwise_cons.2 ⟨?_, hordered⟩⟩
      · intro piece hmem
        rcases List.mem_cons.1 hmem with rfl | hmore
        · exact Nat.le_refl offset
        · exact Nat.le_of_lt (Nat.lt_of_lt_of_le hstop (hbehind piece hmore))
      · intro piece hmem
        exact Nat.lt_of_lt_of_le hstop (hbehind piece hmem)

section FirstTokens

variable {text : List Char} {lexemes : List Lexeme}

theorem scanText_starts (scanned : scanText text = .ok lexemes) :
    lexemes.Pairwise fun first second =>
      first.location.span.start < second.location.span.start := by
  rcases scanText_eq_ok scanned with ⟨found, hfound, rfl⟩
  rw [List.pairwise_map]
  exact (pieces_starts hfound).2

/-- A node of a text has at most one first token. -/
theorem Node.opensAt_unique
    (scanned : scanText text = .ok lexemes)
    {node : Node}
    {i j : Nat}
    (first : node.OpensAt lexemes i)
    (second : node.OpensAt lexemes j) :
    i = j := by
  have hordered := List.pairwise_iff_getElem.1 (scanText_starts scanned)
  rcases first with ⟨lexeme, hlexeme, hfirst⟩
  rcases second with ⟨lexeme', hlexeme', hsecond⟩
  rcases List.getElem?_eq_some_iff.1 hlexeme with ⟨hi, hati⟩
  rcases List.getElem?_eq_some_iff.1 hlexeme' with ⟨hj, hatj⟩
  rcases Nat.lt_trichotomy i j with hlt | hsame | hgt
  · have hless := hordered i j hi hj hlt
    rw [hati, hatj, hfirst, hsecond] at hless
    exact absurd hless (Nat.lt_irrefl _)
  · exact hsame
  · have hless := hordered j i hj hi hgt
    rw [hati, hatj, hfirst, hsecond] at hless
    exact absurd hless (Nat.lt_irrefl _)

end FirstTokens

/-! ## Nodes of a stretch -/

/-- A place lies between the last boundary before a node and the node. -/
def Node.Owns (node : Node) (lexemes : List Lexeme) (i : Nat) : Prop :=
  ∃ k b, node.OpensAt lexemes k ∧ LastBoundary lexemes b k ∧ b < i ∧ i < k

namespace Placed

variable {lexemes : List Lexeme} {start stop : Nat} {nodes : List Node}

theorem notes
    (placed : Placed lexemes start stop nodes)
    {node : Node}
    (member : node ∈ nodes) :
    ∃ k b, start ≤ k ∧ node.OpensAt lexemes k ∧ NotesBetween lexemes b k node.notes := by
  induction placed with
  | nil forward =>
      simp at member
  | @cons start k m stop first nodes forward opens noted inside boundary later ih =>
      rcases List.mem_cons.1 member with rfl | hlater
      · rcases noted with ⟨b, hnotes⟩
        exact ⟨k, b, forward, opens, hnotes⟩
      · rcases ih hlater with ⟨k', b, hbehind, hopens, hnotes⟩
        exact ⟨k', b, by omega, hopens, hnotes⟩

/-- No place belongs to two nodes: a boundary stands between the first token of one and the next
node, and only what is behind it belongs to the latter. -/
theorem disjoint
    (placed : Placed lexemes start stop nodes)
    (unique :
      ∀ {node : Node} {i j : Nat}, node.OpensAt lexemes i → node.OpensAt lexemes j → i = j) :
    nodes.Pairwise fun first second =>
      ∀ i, ¬ (first.Owns lexemes i ∧ second.Owns lexemes i) := by
  induction placed with
  | nil forward =>
      exact List.Pairwise.nil
  | @cons start k m stop first nodes forward opens noted inside boundary later ih =>
      refine List.pairwise_cons.2 ⟨?_, ih⟩
      rintro second hmem i ⟨hfirstOwns, hsecondOwns⟩
      rcases hfirstOwns with ⟨kf, bf, hfirst, _, _, hbefore⟩
      rcases hsecondOwns with ⟨ks, bs, hsecond, hlast, hbehind, _⟩
      rcases later.notes hmem with ⟨k', b', hlow, hopens, _⟩
      have hkf : kf = k := unique hfirst opens
      have hks : ks = k' := unique hsecond hopens
      have hreach : m ≤ bs := by
        by_contra hgap
        have hnone := hlast.last m (Nat.lt_of_not_le hgap) (by omega)
        rw [boundary] at hnone
        simp at hnone
      omega

end Placed

/-! ## Nodes of a schema -/

namespace Schema

/-- Every node of a schema that is read from a text has one first token, and its notes are exactly
those between the last boundary before it and that token. No two nodes share any of them. -/
theorem notes_of_parse
    {file text : String}
    {lexemes : List Lexeme}
    {schema : Schema}
    (scanned : scan file text = .ok lexemes)
    (parsed : parse file text = .ok schema) :
    (∀ node ∈ schema.nodes,
        ∃ k b,
          (∀ i, node.OpensAt lexemes i ↔ i = k) ∧ NotesBetween lexemes b k node.notes) ∧
      schema.nodes.Pairwise fun first second =>
        ∀ i, ¬ (first.Owns lexemes i ∧ second.Owns lexemes i) := by
  have hscanned : scanText text.toList = .ok lexemes := mapError_eq_ok_iff.1 scanned
  rcases (ofText_eq_ok_iff hscanned).1 (mapError_eq_ok_iff.1 parsed) with
    ⟨declarations, hspelled, _, rfl⟩
  rcases hspelled.placed with ⟨start, stop, hplaced⟩
  unfold nodes
  rw [declarations_ofDeclarations]
  constructor
  · intro node hmem
    rcases hplaced.notes hmem with ⟨k, b, _, hopens, hnotes⟩
    refine ⟨k, b, ?_, hnotes⟩
    intro i
    constructor
    · intro hother
      exact Node.opensAt_unique hscanned hother hopens
    · rintro rfl
      exact hopens
  · exact hplaced.disjoint (Node.opensAt_unique hscanned)

/-- A text with notes that are kept, notes that an empty line detaches, a comment behind an item,
and a value list with a semicolon and a brace in it. -/
def notedText : String :=
  "package p;\n# lost\n\n@mark(1 ; \x7b, @x )\n# kept\nmessage M \x7b\n" ++
    "  # chosen\n  @one\n  oneof \x7b\n    a bool = 1; # behind\n    # own\n    b bool = 2;\n" ++
    "  \x7d = 3;\n\x7d\nservice S \x7b\n  @call() m();\n\x7d\n"

theorem notes_of_parse_notedText :
    ∃ lexemes schema,
      scan "a.yarp" notedText = .ok lexemes ∧
        parse "a.yarp" notedText = .ok schema ∧
        (∀ node ∈ schema.nodes,
          ∃ k b,
            (∀ i, node.OpensAt lexemes i ↔ i = k) ∧ NotesBetween lexemes b k node.notes) ∧
        schema.nodes.Pairwise fun first second =>
          ∀ i, ¬ (first.Owns lexemes i ∧ second.Owns lexemes i) := by
  have hparses : (parse "a.yarp" notedText).isOk = true := by decide +kernel
  rcases exists_eq_ok_of_isOk hparses with ⟨schema, hschema⟩
  rcases exists_scanText_of_ofText (mapError_eq_ok_iff.1 hschema) with ⟨lexemes, hscanned⟩
  have hlexemes : scan "a.yarp" notedText = .ok lexemes := mapError_eq_ok_iff.2 hscanned
  exact ⟨lexemes, schema, hlexemes, hschema, notes_of_parse hlexemes hschema⟩

example :
    ((parse "a.yarp" notedText).toOption.map fun schema =>
      schema.nodes.map fun node =>
        (node.notes.comments, node.notes.annotations.map AnnotationMark.name)) =
      some
        [(["kept"], ["mark"]), (["chosen"], ["one"]), ([], []), (["own"], []), ([], []),
          ([], ["call"])] := by
  decide +kernel

end Schema
end InterfaceSchema
