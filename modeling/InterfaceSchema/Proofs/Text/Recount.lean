import InterfaceSchema.Proofs.Text.LineIndex
import InterfaceSchema.Proofs.Token.Tiling

/-!
# Look-ups at character boundaries

The positions of all byte offsets that lie between two characters of a text, from its start to its
end.

* `byteLength_toList`: bytes are counted as for strings.
* `String.Pos.Raw.IsValid` says which offsets are meant; `exists_split_of_isValid` cuts the text
  there.
* `LineIndex.recounts`: the look-up agrees with counting line feeds and characters from the start,
  without its way out for offsets inside a character, and keeps the order of offsets.
-/

namespace InterfaceSchema

theorem utf8ByteSize_ofList_eq (text : List Char) :
    (String.ofList text).utf8ByteSize = byteLength text := by
  induction text with
  | nil =>
      rfl
  | cons c rest ih =>
      rw [← List.singleton_append, String.ofList_append, String.utf8ByteSize_append, ih,
        ← String.singleton_eq_ofList, String.utf8ByteSize_singleton]
      rfl

theorem byteLength_toList (text : String) : byteLength text.toList = text.utf8ByteSize := by
  rw [← utf8ByteSize_ofList_eq, String.ofList_toList]

/-- At a character boundary a text is cut into what stands before it and what stands behind it. -/
theorem exists_split_of_isValid
    {text : String}
    {offset : String.Pos.Raw}
    (valid : offset.IsValid text) :
    ∃ before behind,
      text = before ++ behind ∧
        text.toList = before.toList ++ behind.toList ∧
        offset.byteIdx = byteLength before.toList := by
  obtain ⟨before, behind, rfl, rfl⟩ := String.Pos.Raw.isValid_iff_exists_append.1 valid
  exact ⟨before, behind, rfl, String.toList_append, (byteLength_toList before).symm⟩

namespace LineIndex

/-- At every character boundary of a text the look-up finds the line, one more than the number of
line feeds before it, and the column, one more than the number of characters behind the last of
them. The line that is looked up starts at or before the offset, and the characters up to the offset
can be counted in it. A later boundary has a later position. -/
theorem recounts (text : String) :
    (∀ offset : String.Pos.Raw,
      offset.IsValid text →
        ∃ before behind,
          text = before ++ behind ∧
            offset.byteIdx = before.utf8ByteSize ∧
            (ofText text.toList).resolve offset.byteIdx =
              ⟨1 + before.toList.count '\n', 1 + (Position.lastLine before.toList).length⟩ ∧
            let line :=
              (ofText text.toList).line ((ofText text.toList).lineFeedsBefore offset.byteIdx)
            line.start ≤ offset.byteIdx ∧
              (Line.charactersIn (offset.byteIdx - line.start) line.text).isSome) ∧
      ∀ first second : String.Pos.Raw,
        first.IsValid text →
          second.IsValid text →
            first < second →
              ((ofText text.toList).resolve first.byteIdx).Precedes
                ((ofText text.toList).resolve second.byteIdx) := by
  constructor
  · intro offset hvalid
    obtain ⟨before, behind, hsplit, hwhole, hoffset⟩ := exists_split_of_isValid hvalid
    obtain ⟨hstart, hcharacters⟩ := charactersIn_line before.toList behind.toList
    refine ⟨before, behind, hsplit, hoffset.trans (byteLength_toList before), ?_, ?_⟩
    · rw [hwhole, hoffset, resolve_eq_after, Position.after_eq, Nat.add_comm 1, Nat.add_comm 1]
    · dsimp only
      rw [hwhole, hoffset, lineFeedsBefore_eq, hcharacters]
      exact ⟨hstart, rfl⟩
  · intro first second hfirst hsecond hless
    obtain ⟨before, behind, _, hwhole, hoffset⟩ := exists_split_of_isValid hfirst
    obtain ⟨front, later, _, hwholeToo, hoffsetToo⟩ := exists_split_of_isValid hsecond
    have hfewer : byteLength before.toList < byteLength front.toList := by
      rw [← hoffset, ← hoffsetToo]
      exact hless
    have hsame := hwhole.symm.trans hwholeToo
    have hposition := resolve_eq_after before.toList behind.toList
    have hpositionToo := resolve_eq_after front.toList later.toList
    rw [← hwhole, ← hoffset] at hposition
    rw [← hwholeToo, ← hoffsetToo] at hpositionToo
    rw [hposition, hpositionToo]
    exact Position.precedes_of_byteLength_lt hsame hfewer

/-- A text with characters of two bytes and a line feed at its end. -/
def feedText : String :=
  "é ü\nñx\n"

/-- The end of the text, behind its last line feed, and the two sides of its first one. -/
theorem recounts_feedText :
    (∃ before behind,
      feedText = before ++ behind ∧
        (10 : Nat) = before.utf8ByteSize ∧
        (ofText feedText.toList).resolve 10 =
          ⟨1 + before.toList.count '\n', 1 + (Position.lastLine before.toList).length⟩ ∧
        let line := (ofText feedText.toList).line ((ofText feedText.toList).lineFeedsBefore 10)
        line.start ≤ 10 ∧ (Line.charactersIn (10 - line.start) line.text).isSome) ∧
      ((ofText feedText.toList).resolve 5).Precedes ((ofText feedText.toList).resolve 6) := by
  have hvalid (before behind : String) (split : feedText = before ++ behind) :
      before.rawEndPos.IsValid feedText :=
    String.Pos.Raw.isValid_iff_exists_append.2 ⟨before, behind, split, rfl⟩
  have hfeed := hvalid "é ü" "\nñx\n" (by decide)
  have hbehind := hvalid "é ü\n" "ñx\n" (by decide)
  have hend := hvalid "é ü\nñx\n" "" (by decide)
  exact ⟨(recounts feedText).1 _ hend, (recounts feedText).2 _ _ hfeed hbehind (by decide)⟩

end LineIndex
end InterfaceSchema
