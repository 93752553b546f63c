import InterfaceSchema.Text.LineIndex
import Mathlib.Data.List.Induction
import Mathlib.Data.List.TakeWhile

/-!
# Positions by look-up are positions by counting

* `Position.after_eq`: the position after a text, from its line feeds and its last line.
* `Line.exists_current`: the line that a place between two characters belongs to.
* `LineIndex.lineFeedsBefore_eq`, `LineIndex.charactersIn_line`: what the binary search and the
  count of characters find.
* `LineIndex.resolve_eq_after`: the look-up finds the position that counting from the start gives.
-/

namespace InterfaceSchema

namespace Position

/-- The characters of a text behind its last line feed. -/
def lastLine (text : List Char) : List Char :=
  (text.reverse.takeWhile (· ≠ '\n')).reverse

@[simp]
theorem lastLine_nil : lastLine [] = [] :=
  rfl

theorem lastLine_append_singleton (text : List Char) (c : Char) :
    lastLine (text ++ [c]) = if c = '\n' then [] else lastLine text ++ [c] := by
  unfold lastLine
  rw [List.reverse_append, List.reverse_singleton, List.singleton_append]
  by_cases hbreak : c = '\n'
  · rw [if_pos hbreak, List.takeWhile_cons_of_neg (by simpa using hbreak), List.reverse_nil]
  · rw [if_neg hbreak, List.takeWhile_cons_of_pos (by simpa using hbreak), List.reverse_cons]

/-- A character before a text belongs to its last line if there is no line feed in it. -/
theorem lastLine_cons (c : Char) (text : List Char) :
    lastLine (c :: text) =
      if c ≠ '\n' ∧ '\n' ∉ text then c :: lastLine text else lastLine text := by
  unfold lastLine
  rw [List.reverse_cons, List.takeWhile_append]
  by_cases hbreak : '\n' ∈ text
  · have hshort : (text.reverse.takeWhile (· ≠ '\n')).length ≠ text.reverse.length := by
      intro hlength
      have hwhole :=
        (List.takeWhile_prefix (l := text.reverse) fun c => decide (c ≠ '\n')).eq_of_length hlength
      have hline := List.takeWhile_eq_self_iff.1 hwhole '\n' (List.mem_reverse.2 hbreak)
      simp at hline
    rw [if_neg hshort, if_neg (by simp [hbreak])]
  · have hwhole : text.reverse.takeWhile (· ≠ '\n') = text.reverse := by
      refine List.takeWhile_eq_self_iff.2 ?_
      intro d hmember
      rw [decide_eq_true_eq]
      rintro rfl
      exact hbreak (List.mem_reverse.1 hmember)
    rw [hwhole, if_pos rfl]
    by_cases hfirst : c = '\n'
    · rw [if_neg (by simp [hfirst]), List.takeWhile_cons_of_neg (by simpa using hfirst),
        List.append_nil]
    · rw [if_pos ⟨hfirst, hbreak⟩, List.takeWhile_cons_of_pos (by simpa using hfirst)]
      simp

/-- The line of a position is one more than the number of line feeds before it, its column one more
than the number of characters behind the last of them. -/
theorem after_eq (text : List Char) :
    after text = ⟨text.count '\n' + 1, (lastLine text).length + 1⟩ := by
  induction text using List.reverseRecOn with
  | nil =>
      rfl
  | append_singleton text c ih =>
      rw [after_append_singleton, ih, lastLine_append_singleton, List.count_append, advance]
      by_cases hbreak : c = '\n'
      · simp [hbreak]
      · simp [hbreak]

end Position

namespace Line

theorem start_split (start : Nat) (text : List Char) : (split start text).1.start = start := by
  cases text with
  | nil =>
      rfl
  | cons c rest =>
      simp only [split]
      split
      · rfl
      · rfl

/-- The lines of a text, of which only the first starts where the text does. -/
def all (start : Nat) (text : List Char) : List Line :=
  (split start text).1 :: (split start text).2

theorem later_start (start : Nat) (text : List Char) :
    ∀ line ∈ (split start text).2, start < line.start := by
  induction text generalizing start with
  | nil =>
      simp [split]
  | cons c rest ih =>
      have hsize := Char.utf8Size_pos c
      have hlater : ∀ line ∈ (split (start + c.utf8Size) rest).2, start < line.start := by
        intro line hmember
        have hbehind := ih _ line hmember
        omega
      simp only [split]
      split
      · intro line hmember
        rcases List.mem_cons.1 hmember with rfl | hmore
        · rw [start_split]
          omega
        · exact hlater line hmore
      · exact hlater

/-- The lines that start before a place are those that its line feeds open. -/
theorem start_le_iff (start : Nat) (before behind : List Char) :
    before.count '\n' ≤ (split start (before ++ behind)).2.length ∧
      ∀ number line,
        (split start (before ++ behind)).2[number]? = some line →
          (line.start ≤ start + byteLength before ↔ number < before.count '\n') := by
  induction before generalizing start with
  | nil =>
      refine ⟨by simp, ?_⟩
      intro number line hline
      have hbehind := later_start start _ line (List.mem_of_getElem? hline)
      simp only [byteLength_nil, List.count_nil]
      omega
  | cons c rest ih =>
      rcases ih (start + c.utf8Size) with ⟨hcount, hlines⟩
      have hsame :
          start + byteLength (c :: rest) = start + c.utf8Size + byteLength rest := by
        simp [Nat.add_assoc]
      simp only [List.cons_append, split, hsame]
      by_cases hbreak : c = '\n'
      · rw [if_pos hbreak, List.count_cons, if_pos (by simpa using hbreak)]
        refine ⟨by simpa using hcount, ?_⟩
        intro number line hline
        cases number with
        | zero =>
            simp only [List.getElem?_cons_zero, Option.some.injEq] at hline
            subst hline
            rw [start_split]
            omega
        | succ number =>
            rw [List.getElem?_cons_succ] at hline
            rw [hlines number line hline]
            omega
      · rw [if_neg hbreak, List.count_cons_of_ne hbreak]
        exact ⟨hcount, hlines⟩

/-- A place between two characters belongs to a line that starts with the characters behind the
last line feed before the place. -/
theorem exists_current (start : Nat) (before behind : List Char) :
    ∃ line later,
      (all start (before ++ behind))[before.count '\n']? = some line ∧
        line.text = Position.lastLine before ++ later ∧
        line.start + byteLength (Position.lastLine before) = start + byteLength before := by
  induction before generalizing start with
  | nil =>
      refine ⟨(split start behind).1, (split start behind).1.text, rfl, rfl, ?_⟩
      rw [start_split]
      rfl
  | cons c rest ih =>
      rcases ih (start + c.utf8Size) with ⟨line, later, hline, htext, hstart⟩
      have hsame :
          start + byteLength (c :: rest) = start + c.utf8Size + byteLength rest := by
        simp [Nat.add_assoc]
      rw [Position.lastLine_cons, hsame]
      by_cases hbreak : c = '\n'
      · rw [if_neg (by simp [hbreak]), List.count_cons, if_pos (by simpa using hbreak)]
        refine ⟨line, later, ?_, htext, hstart⟩
        simp only [all, List.cons_append, split, if_pos hbreak]
        exact hline
      · rw [List.count_cons_of_ne hbreak]
        by_cases hlater : '\n' ∈ rest
        · rw [if_neg (by simp [hlater])]
          refine ⟨line, later, ?_, htext, hstart⟩
          rcases Nat.exists_eq_succ_of_ne_zero (List.count_pos_iff.2 hlater).ne' with
            ⟨number, hnumber⟩
          rw [hnumber] at hline ⊢
          simp only [all, List.cons_append, split, if_neg hbreak]
          exact hline
        · rw [if_pos ⟨hbreak, hlater⟩]
          have hnone : rest.count '\n' = 0 := List.count_eq_zero.2 hlater
          rw [hnone] at hline ⊢
          have hfirst : (split (start + c.utf8Size) (rest ++ behind)).1 = line :=
            Option.some.inj hline
          refine ⟨⟨start, c :: line.text⟩, later, ?_, by simp [htext], ?_⟩
          · simp only [all, List.cons_append, split, if_neg hbreak, hfirst]
            rfl
          · rw [← hfirst, start_split] at hstart
            simp only [byteLength_cons]
            omega

theorem charactersIn_append (current later : List Char) :
    charactersIn (byteLength current) (current ++ later) = some current.length := by
  induction current with
  | nil =>
      cases later with
      | nil =>
          rfl
      | cons c rest =>
          rfl
  | cons c rest ih =>
      have hsize := Char.utf8Size_pos c
      have hzero : ¬ byteLength (c :: rest) = 0 := by
        simp only [byteLength_cons]
        omega
      have hfits : c.utf8Size ≤ byteLength (c :: rest) := by
        simp only [byteLength_cons]
        omega
      rw [List.cons_append, charactersIn, if_neg hzero, if_pos hfits, byteLength_cons,
        Nat.add_sub_cancel_left, ih]
      rfl

end Line

namespace LineIndex

/-- Binary search counts the lines that start at or before an offset. -/
theorem countFrom_eq
    {lines : Array Line}
    {offset number : Nat}
    (ordered : ∀ i, (inside : i < lines.size) → (lines[i].start ≤ offset ↔ i < number))
    (low high : Nat)
    (bound : high ≤ lines.size)
    (above : low ≤ number)
    (below : number ≤ high) :
    countFrom lines offset low high bound = number := by
  induction low, high, bound using countFrom.induct lines offset with
  | case1 low high bound hopen middle inside hstart ih =>
      rw [countFrom, dif_pos hopen]
      simp only [middle] at hstart ih
      rw [if_pos hstart]
      exact ih ((ordered _ inside).1 hstart) below
  | case2 low high bound hopen middle inside hstart ih =>
      rw [countFrom, dif_pos hopen]
      simp only [middle] at hstart ih
      rw [if_neg hstart]
      exact ih above (Nat.not_lt.1 fun hless => hstart ((ordered _ inside).2 hless))
  | case3 low high bound hclosed =>
      rw [countFrom, dif_neg hclosed]
      omega

theorem line_ofText (text : List Char) (number : Nat) :
    (ofText text).line number =
      ((Line.all 0 text)[number]?).getD (Line.split 0 text).1 := by
  cases number with
  | zero =>
      rfl
  | succ number =>
      simp [line, ofText, Line.all]

/-- Before an offset between two characters stand as many line feeds as there are lines to pass. -/
theorem lineFeedsBefore_eq (before behind : List Char) :
    (ofText (before ++ behind)).lineFeedsBefore (byteLength before) = before.count '\n' := by
  obtain ⟨hcount, hlines⟩ := Line.start_le_iff 0 before behind
  rw [Nat.zero_add] at hlines
  refine countFrom_eq ?_ 0 _ _ (Nat.zero_le _) (by simpa [ofText] using hcount)
  intro i inside
  refine hlines i _ ?_
  rw [List.getElem?_eq_some_iff]
  exact ⟨by simpa [ofText] using inside, rfl⟩

/-- The line of an offset between two characters starts at or before the offset, and the offset is
as many bytes behind its start as the characters since the last line feed take. -/
theorem charactersIn_line (before behind : List Char) :
    ((ofText (before ++ behind)).line (before.count '\n')).start ≤ byteLength before ∧
      Line.charactersIn
          (byteLength before - ((ofText (before ++ behind)).line (before.count '\n')).start)
          ((ofText (before ++ behind)).line (before.count '\n')).text =
        some (Position.lastLine before).length := by
  obtain ⟨line, later, hline, htext, hstart⟩ := Line.exists_current 0 before behind
  rw [line_ofText, hline, Option.getD_some]
  have hoffset : byteLength before - line.start = byteLength (Position.lastLine before) := by
    omega
  refine ⟨by omega, ?_⟩
  rw [hoffset, htext, Line.charactersIn_append]

/-- The look-up of an offset between two characters finds the position that counting gives. -/
theorem resolve_eq_after (before behind : List Char) :
    (ofText (before ++ behind)).resolve (byteLength before) = Position.after before := by
  obtain ⟨_, hcharacters⟩ := charactersIn_line before behind
  rw [resolve, lineFeedsBefore_eq, Line.column, hcharacters, Option.getD_some, Position.after_eq]

end LineIndex
end InterfaceSchema
