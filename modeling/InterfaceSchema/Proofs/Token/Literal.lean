import InterfaceSchema.Proofs.Token.Spelled

/-!
# Texts that a literal can denote

The end of a string literal is found by looking at one character before each quotation mark, and
what the literal denotes by leaving out backslashes. Both rules together lose no text that fits on a
line and does not end with a backslash, and they reach no other.

* `Quoted.encode_eq_flatMap`: the written form, character by character.
* `Spells.writable_of_mem`: a literal that stands in a text can be written again.
* `exists_scan_literal_iff`: what is written for such a literal is read back as it alone.
* `exists_literal_iff`: the texts that some literal denotes.
-/

namespace InterfaceSchema

namespace Quoted

/-- Each quotation mark of a text is written with a backslash before it, every other character as
it is. -/
theorem encode_eq_flatMap (text : List Char) :
    encode text = text.flatMap fun c => if c = '"' then ['\\', '"'] else [c] := by
  induction text with
  | nil =>
      rfl
  | cons c rest ih =>
      rw [encode, List.flatMap_cons, ih]
      by_cases hquote : c = '"'
      · rw [if_pos hquote, if_pos hquote, hquote]
        rfl
      · rw [if_neg hquote, if_neg hquote]
        rfl

end Quoted

theorem Token.display_stringLiteral (value : String) :
    (stringLiteral value).display =
      String.ofList
        ('"' :: (value.toList.flatMap fun c => if c = '"' then ['\\', '"'] else [c]) ++ ['"']) := by
  rw [← Quoted.encode_eq_flatMap, ← String.toList_inj]
  simp [display]

/-- Only writable tokens stand before the end of a text. -/
theorem Spells.writable_of_mem
    {text : List Char}
    {token : Token}
    {tokens : List Token}
    (spells : Spells text tokens)
    (member : token ∈ tokens)
    (inside : token ≠ .eof) :
    token.Writable := by
  obtain ⟨front, rfl, hwritable, _⟩ := spells.written
  obtain hfront | hend := List.mem_append.1 member
  · exact hwritable token hfront
  · exact absurd (List.mem_singleton.1 hend) inside

section Literals

variable {value : String}

/-- A writable literal is read back from its written form, and nothing follows it. -/
theorem spells_literal (writable : (Token.stringLiteral value).Writable) :
    Spells (Token.stringLiteral value).display.toList [.stringLiteral value, .eof] := by
  have halone := Spells.cons writable (Or.inl rfl) .nil
  rw [List.append_nil] at halone
  exact halone

/-- The written form of a literal is scanned to that literal alone just if it is writable. -/
theorem exists_scan_literal_iff (file : String) :
    (∃ lexemes,
        scan file (Token.stringLiteral value).display = .ok lexemes ∧
          lexemes.map Lexeme.token = [.stringLiteral value, .eof]) ↔
      (Token.stringLiteral value).Writable := by
  rw [exists_scan_iff_spells]
  constructor
  · intro hspells
    exact hspells.writable_of_mem List.mem_cons_self (by simp)
  · exact spells_literal

end Literals

/-- The texts that a string literal can denote are those that hold no line feed and do not end with
a backslash. Each of them is found again when it is scanned with a backslash before each of its
quotation marks, between quotation marks; no other text is. -/
theorem exists_literal_iff (value : String) :
    ((∃ file text lexemes place,
        scan file text = .ok lexemes ∧ ⟨.stringLiteral value, place⟩ ∈ lexemes) ↔
      '\n' ∉ value.toList ∧ value.toList.getLast? ≠ some '\\') ∧
      (Token.stringLiteral value).display =
        String.ofList
          ('"' ::
            (value.toList.flatMap fun c => if c = '"' then ['\\', '"'] else [c]) ++ ['"']) ∧
      ∀ file,
        (∃ lexemes,
          scan file (Token.stringLiteral value).display = .ok lexemes ∧
            lexemes.map Lexeme.token = [.stringLiteral value, .eof]) ↔
        '\n' ∉ value.toList ∧ value.toList.getLast? ≠ some '\\' := by
  refine ⟨⟨?_, ?_⟩, Token.display_stringLiteral value, fun file => exists_scan_literal_iff file⟩
  · rintro ⟨file, text, lexemes, place, hscanned, hmember⟩
    have hspells := (exists_scan_iff_spells file text _).1 ⟨lexemes, hscanned, rfl⟩
    exact hspells.writable_of_mem (List.mem_map.2 ⟨_, hmember, rfl⟩) (by simp)
  · intro hwritable
    obtain ⟨lexemes, hscanned, htokens⟩ := (exists_scan_literal_iff "").2 hwritable
    have hmember : .stringLiteral value ∈ lexemes.map Lexeme.token := by
      rw [htokens]
      exact List.mem_cons_self
    obtain ⟨⟨token, place⟩, hlexeme, rfl⟩ := List.mem_map.1 hmember
    exact ⟨"", _, lexemes, place, hscanned, hlexeme⟩

/-- Backslashes before a quotation mark and between two of them, as they are found again. -/
example :
    (scan "a.yarp" (Token.stringLiteral "\\\\\"\\\"").display).map (·.map Lexeme.token) =
      .ok [.stringLiteral "\\\\\"\\\"", .eof] := by
  decide +kernel

end InterfaceSchema
