import Mathlib.Data.List.TakeWhile
import InterfaceSchema.Path.Directory

/-!
# The components of a path in a directory

A path read from the directory of another path goes the way of that path, up to its last component.

* `Path.heading`: the components that a directory puts before a path which is read from it.
* `Path.components_beside`: the components of a path read from a directory.
* `Path.exists_components_eq_heading`: the directory of a path has all components of it but the
  last and idle ones.
-/

namespace InterfaceSchema
namespace Path

/-- A component that stays where it is. -/
def IsIdle (part : String) : Prop :=
  part = "" ∨ part = "."

/-- The same for the characters of a component. -/
def IsIdleText (part : List Char) : Prop :=
  part = [] ∨ part = ['.']

/-- The components that a directory puts before a path which is read from it. -/
def heading (directory : List Char) : List (List Char) :=
  if directory = [] then []
  else if directory.getLast? = some '/' then directory.dropLast.splitOn '/'
  else directory.splitOn '/'

section Heading

@[simp]
theorem heading_nil : heading [] = [] :=
  if_pos rfl

/-- A slash ends the heading of what is before it. -/
theorem heading_append_cons (front back : List Char) :
    heading (front ++ '/' :: back) = front.splitOn '/' ++ heading back := by
  unfold heading
  rw [if_neg (by simp)]
  cases back with
  | nil =>
      rw [if_pos (by simp)]
      simp
  | cons first others =>
      have hlast : (front ++ '/' :: first :: others).getLast? = (first :: others).getLast? := by
        rw [List.getLast?_append, List.getLast?_cons_cons, List.getLast?_cons, Option.some_or]
      have hdrop :
          (front ++ '/' :: first :: others).dropLast =
            front ++ '/' :: (first :: others).dropLast := by
        simp [List.dropLast_append_of_ne_nil]
      rw [hlast, hdrop, if_neg (List.cons_ne_nil first others)]
      split
      · rw [List.splitOn_append_cons_self]
      · rw [List.splitOn_append_cons_self]

theorem heading_slash (rest : List Char) : heading ('/' :: rest) = [] :: heading rest :=
  heading_append_cons [] rest

theorem heading_dot_slash (rest : List Char) :
    heading ('.' :: '/' :: rest) = ['.'] :: heading rest :=
  heading_append_cons ['.'] rest

/-- At most an empty component at the end of a text is not in its heading. -/
theorem exists_splitOn_eq_heading (text : List Char) :
    ∃ idle,
      (∀ part ∈ idle, IsIdleText part) ∧ text.splitOn '/' = heading text ++ idle := by
  have hidle : ∀ part ∈ [([] : List Char)], IsIdleText part := by
    intro part hmember
    exact Or.inl (List.mem_singleton.1 hmember)
  by_cases hempty : text = []
  · refine ⟨[[]], hidle, ?_⟩
    rw [hempty]
    rfl
  by_cases hslash : text.getLast? = some '/'
  · refine ⟨[[]], hidle, ?_⟩
    rcases List.getLast?_eq_some_iff.1 hslash with ⟨front, rfl⟩
    rw [heading_append_cons, List.splitOn_append_cons_self]
    simp
  · refine ⟨[], by simp, ?_⟩
    unfold heading
    rw [if_neg hempty, if_neg hslash, List.append_nil]

end Heading

section DropIdle

/-- Cuts a text at its last slash. -/
theorem exists_last_slash {text : List Char} (slash : '/' ∈ text) :
    ∃ front last, text = front ++ '/' :: last ∧ '/' ∉ last := by
  rcases List.eq_append_cons_of_mem (List.mem_reverse.2 slash) with ⟨back, ahead, hsame, hfree⟩
  refine ⟨ahead.reverse, back.reverse, ?_, by simpa using hfree⟩
  rw [← List.reverse_reverse text, hsame]
  simp

theorem takeWhile_of_free {text : List Char} (free : '/' ∉ text) :
    text.takeWhile (· ≠ '/') = text := by
  rw [List.takeWhile_eq_self_iff]
  intro c hmember
  rw [decide_eq_true_eq]
  rintro rfl
  exact free hmember

theorem takeWhile_append_cons {text : List Char} (free : '/' ∉ text) (more : List Char) :
    (text ++ '/' :: more).takeWhile (· ≠ '/') = text := by
  rw [List.takeWhile_append, takeWhile_of_free free, if_pos rfl]
  simp

theorem drop_append_cons (text more : List Char) :
    (text ++ '/' :: more).drop (text.length + 1) = more := by
  simp

theorem dropIdle_nil : dropIdle [] = [] := by
  rw [dropIdle, if_pos rfl]

theorem dropIdle_of_idle
    {reversed : List Char}
    (nonempty : reversed ≠ [])
    (idle : IsIdleText (reversed.takeWhile (· ≠ '/'))) :
    dropIdle reversed =
      dropIdle (reversed.drop ((reversed.takeWhile (· ≠ '/')).length + 1)) := by
  rw [dropIdle, if_neg nonempty]
  exact if_pos idle

theorem dropIdle_of_busy
    {reversed : List Char}
    (busy : ¬ IsIdleText (reversed.takeWhile (· ≠ '/'))) :
    dropIdle reversed = reversed := by
  by_cases hempty : reversed = []
  · rw [hempty, dropIdle_nil]
  · rw [dropIdle, if_neg hempty]
    exact if_neg busy

/-- Removing idle components only shortens a text. -/
theorem dropIdle_suffix (reversed : List Char) : dropIdle reversed <:+ reversed := by
  induction reversed using dropIdle.induct with
  | case1 =>
      exact dropIdle_nil.symm ▸ List.suffix_refl []
  | case2 reversed hnonempty last hidle ih =>
      rw [dropIdle_of_idle hnonempty hidle]
      exact ih.trans (List.drop_suffix _ _)
  | case3 reversed hnonempty last hbusy =>
      exact (dropIdle_of_busy hbusy).symm ▸ List.suffix_refl reversed

theorem heading_of_idle {text : List Char} (idle : IsIdleText text) :
    ∀ part ∈ heading text, IsIdleText part := by
  intro part hmember
  rcases idle with rfl | rfl
  · cases hmember
  · exact Or.inr (List.mem_singleton.1 hmember)

theorem idle_reverse {text : List Char} (idle : IsIdleText text) : IsIdleText text.reverse := by
  rcases idle with rfl | rfl
  · exact Or.inl rfl
  · exact Or.inr rfl

theorem busy_reverse {text : List Char} (busy : ¬ IsIdleText text) :
    ¬ IsIdleText text.reverse := by
  intro hidle
  apply busy
  rw [← List.reverse_reverse text]
  exact idle_reverse hidle

/-- What is removed from the end of a text is idle. -/
theorem exists_heading_eq_dropIdle (reversed : List Char) :
    ∃ idle,
      (∀ part ∈ idle, IsIdleText part) ∧
        heading reversed.reverse = heading (dropIdle reversed).reverse ++ idle := by
  induction reversed using dropIdle.induct with
  | case1 =>
      exact ⟨[], by simp, by rw [dropIdle_nil]; simp⟩
  | case2 reversed hnonempty last hidle ih =>
      rw [dropIdle_of_idle hnonempty hidle]
      by_cases hslash : '/' ∈ reversed
      · rcases List.eq_append_cons_of_mem hslash with ⟨back, ahead, rfl, hfree⟩
        have hlast : last = back := takeWhile_append_cons hfree ahead
        have hdrop : (back ++ '/' :: ahead).drop (last.length + 1) = ahead := by
          rw [hlast, drop_append_cons]
        rw [hdrop] at ih
        rw [show (back ++ '/' :: ahead).takeWhile (· ≠ '/') = last from rfl, hdrop]
        rcases ih with ⟨idle, hall, hheading⟩
        rcases exists_splitOn_eq_heading ahead.reverse with ⟨between, hbetween, hsplit⟩
        have hback : ∀ part ∈ heading back.reverse, IsIdleText part := by
          rw [hlast] at hidle
          exact heading_of_idle (idle_reverse hidle)
        refine ⟨idle ++ between ++ heading back.reverse, ?_, ?_⟩
        · intro part hmember
          rw [List.mem_append, List.mem_append] at hmember
          rcases hmember with (hmember | hmember) | hmember
          · exact hall part hmember
          · exact hbetween part hmember
          · exact hback part hmember
        · rw [List.reverse_append, List.reverse_cons, List.append_assoc, List.singleton_append,
            heading_append_cons, hsplit, hheading]
          simp only [List.append_assoc]
      · have hlast : last = reversed := takeWhile_of_free hslash
        have hdrop : reversed.drop (last.length + 1) = [] := by
          rw [hlast, List.drop_of_length_le (Nat.le_succ _)]
        rw [show reversed.takeWhile (· ≠ '/') = last from rfl, hdrop, dropIdle_nil]
        rw [hlast] at hidle
        exact ⟨heading reversed.reverse, heading_of_idle (idle_reverse hidle), by simp⟩
  | case3 reversed hnonempty last hbusy =>
      exact ⟨[], by simp, by rw [dropIdle_of_busy hbusy, List.append_nil]⟩

end DropIdle

/-! ## The directory of a path -/

section Directory

variable {path : String} {lead front last : List Char}

/-- The directory of a path that ends with a busy component. -/
theorem toList_directory
    {reversed : List Char}
    (text : path.toList = lead ++ reversed.reverse)
    (anchor : anchorLength path.toList = lead.length)
    (busy : ¬ IsIdleText (reversed.takeWhile (· ≠ '/'))) :
    (directory path).toList =
      lead ++
        (dropIdle (reversed.drop ((reversed.takeWhile (· ≠ '/')).length + 1))).reverse := by
  have hbody : (path.toList.drop (anchorLength path.toList)).reverse = reversed := by
    rw [anchor, text]
    simp
  have htake : path.toList.take (anchorLength path.toList) = lead := by
    rw [anchor, text]
    simp
  unfold directory
  dsimp only
  rw [hbody, htake, dropIdle_of_busy busy]
  split
  · next hempty =>
    exact absurd (Or.inl rfl) busy
  · rw [String.toList_ofList]

/-- The directory of a path with a slash after what it starts with. -/
theorem toList_directory_of_slash
    (text : path.toList = lead ++ (front ++ '/' :: last))
    (anchor : anchorLength path.toList = lead.length)
    (free : '/' ∉ last)
    (busy : ¬ IsIdleText last) :
    (directory path).toList = lead ++ (dropIdle front.reverse).reverse := by
  have hlast :
      (last.reverse ++ '/' :: front.reverse).takeWhile (· ≠ '/') = last.reverse :=
    takeWhile_append_cons (by simpa using free) front.reverse
  have htext : path.toList = lead ++ (last.reverse ++ '/' :: front.reverse).reverse := by
    rw [text]
    simp
  have hbusy :
      ¬ IsIdleText ((last.reverse ++ '/' :: front.reverse).takeWhile (· ≠ '/')) := by
    rw [hlast]
    exact busy_reverse busy
  rw [toList_directory htext anchor hbusy, hlast, drop_append_cons]

/-- The directory of a path without a slash after what it starts with. -/
theorem toList_directory_of_free
    (text : path.toList = lead ++ last)
    (anchor : anchorLength path.toList = lead.length)
    (free : '/' ∉ last)
    (busy : ¬ IsIdleText last) :
    (directory path).toList = lead := by
  have hlast : last.reverse.takeWhile (· ≠ '/') = last.reverse :=
    takeWhile_of_free (by simpa using free)
  have htext : path.toList = lead ++ last.reverse.reverse := by
    rw [text, List.reverse_reverse]
  have hbusy : ¬ IsIdleText (last.reverse.takeWhile (· ≠ '/')) := by
    rw [hlast]
    exact busy_reverse busy
  rw [toList_directory htext anchor hbusy, hlast, List.drop_of_length_le (Nat.le_succ _),
    dropIdle_nil]
  simp

/-- What a path may start with that is never removed from its end. -/
theorem anchor_cases (text : List Char) :
    (∃ rest, text = '/' :: rest) ∨
      text = ['.'] ∨
      (∃ rest, text = '.' :: '/' :: rest) ∨
      (anchorLength text = 0 ∧ text.head? ≠ some '/') := by
  unfold anchorLength
  split
  · next rest =>
    exact Or.inl ⟨rest, rfl⟩
  · exact Or.inr (Or.inl rfl)
  · next rest =>
    exact Or.inr (Or.inr (Or.inl ⟨rest, rfl⟩))
  · next hslash _ _ =>
    refine Or.inr (Or.inr (Or.inr ⟨rfl, ?_⟩))
    intro hhead
    rcases List.head?_eq_some_iff.1 hhead with ⟨rest, hsame⟩
    exact hslash rest hsame

/-- A text has its last component after its last slash, or is one component. -/
theorem eq_of_splitOn
    {text : List Char}
    {parts : List (List Char)}
    (split : text.splitOn '/' = parts ++ [last]) :
    '/' ∉ last ∧
      (parts = [] ∧ text = last ∨
        ∃ front, text = front ++ '/' :: last ∧ front.splitOn '/' = parts) := by
  by_cases hslash : '/' ∈ text
  · rcases exists_last_slash hslash with ⟨front, final, rfl, hfree⟩
    rw [List.splitOn_append_cons_self, List.splitOn_eq_singleton hfree] at split
    rcases List.append_inj' split rfl with ⟨hparts, hlast⟩
    cases hlast
    exact ⟨hfree, Or.inr ⟨front, rfl, hparts⟩⟩
  · rw [List.splitOn_eq_singleton hslash] at split
    have hsplit : [] ++ [text] = parts ++ [last] := split
    rcases List.append_inj' hsplit rfl with ⟨hparts, hlast⟩
    cases hlast
    exact ⟨hslash, Or.inl ⟨hparts.symm, rfl⟩⟩

/-- What the directory keeps of a text is a beginning of it. -/
theorem dropIdle_prefix (text : List Char) : (dropIdle text.reverse).reverse <+: text := by
  rw [← List.reverse_suffix, List.reverse_reverse]
  exact dropIdle_suffix _

theorem exists_splitOn_eq_dropIdle (text : List Char) :
    ∃ idle,
      (∀ part ∈ idle, IsIdleText part) ∧
        text.splitOn '/' = heading (dropIdle text.reverse).reverse ++ idle := by
  rcases exists_heading_eq_dropIdle text.reverse with ⟨dropped, hdropped, hheading⟩
  rcases exists_splitOn_eq_heading text with ⟨idle, hidle, hsplit⟩
  rw [List.reverse_reverse] at hheading
  refine ⟨dropped ++ idle, ?_, ?_⟩
  · intro part hmember
    rcases List.mem_append.1 hmember with hmember | hmember
    · exact hdropped part hmember
    · exact hidle part hmember
  · rw [hsplit, hheading, List.append_assoc]

/-- A directory has the heading of a path that lies in it, up to idle components, and starts with
a slash if the path does. -/
def Heads (directory : List Char) (parts : List (List Char)) (path : List Char) : Prop :=
  (∃ idle, (∀ part ∈ idle, IsIdleText part) ∧ parts = heading directory ++ idle) ∧
    (directory.head? = some '/' ↔ path.head? = some '/')

theorem heads_directory_of_slash
    {parts : List (List Char)}
    {rest : List Char}
    (text : path.toList = '/' :: rest)
    (split : rest.splitOn '/' = parts ++ [last])
    (busy : ¬ IsIdleText last) :
    Heads (directory path).toList ([] :: parts) path.toList := by
  have hanchor : anchorLength path.toList = ['/'].length := by
    rw [text]
    rfl
  rcases eq_of_splitOn split with ⟨hfree, ⟨rfl, htext⟩ | ⟨front, htext, hfront⟩⟩
  · have hlead : path.toList = ['/'] ++ last := by
      rw [text, htext]
      rfl
    rw [toList_directory_of_free hlead hanchor hfree busy, text]
    exact ⟨⟨[], by simp, rfl⟩, by simp⟩
  · have hlead : path.toList = ['/'] ++ (front ++ '/' :: last) := by
      rw [text, htext]
      rfl
    rw [toList_directory_of_slash hlead hanchor hfree busy, text]
    rcases exists_splitOn_eq_dropIdle front with ⟨idle, hidle, hsplit⟩
    refine ⟨⟨idle, hidle, ?_⟩, by simp⟩
    rw [← hfront, hsplit, List.singleton_append, heading_slash, List.cons_append]

theorem heads_directory_of_dot
    {parts : List (List Char)}
    {rest : List Char}
    (text : path.toList = '.' :: '/' :: rest)
    (split : rest.splitOn '/' = parts ++ [last])
    (busy : ¬ IsIdleText last) :
    Heads (directory path).toList (['.'] :: parts) path.toList := by
  have hanchor : anchorLength path.toList = ['.'].length := by
    rw [text]
    rfl
  rcases eq_of_splitOn split with ⟨hfree, ⟨rfl, htext⟩ | ⟨front, htext, hfront⟩⟩
  · have hlead : path.toList = ['.'] ++ ([] ++ '/' :: last) := by
      rw [text, htext]
      rfl
    rw [toList_directory_of_slash hlead hanchor hfree busy, text, List.reverse_nil, dropIdle_nil]
    exact ⟨⟨[], by simp, rfl⟩, by simp⟩
  · have hlead : path.toList = ['.'] ++ (('/' :: front) ++ '/' :: last) := by
      rw [text, htext]
      rfl
    rw [toList_directory_of_slash hlead hanchor hfree busy, text]
    rcases exists_splitOn_eq_dropIdle ('/' :: front) with ⟨idle, hidle, hsplit⟩
    have hkept := dropIdle_prefix ('/' :: front)
    rw [show ('/' :: front).splitOn '/' = [] :: front.splitOn '/' from
      List.splitOn_append_cons_self [] front, hfront] at hsplit
    cases hdropped : (dropIdle ('/' :: front).reverse).reverse with
    | nil =>
        rw [hdropped, heading_nil, List.nil_append] at hsplit
        refine ⟨⟨parts, ?_, rfl⟩, by simp⟩
        intro part hmember
        exact hidle part (hsplit ▸ List.mem_cons_of_mem _ hmember)
    | cons first kept =>
        rw [hdropped, List.cons_prefix_cons] at hkept
        rw [hdropped, hkept.1] at hsplit
        rw [hkept.1]
        refine ⟨⟨idle, hidle, ?_⟩, by simp⟩
        have hparts : parts = heading kept ++ idle := by
          rw [heading_slash] at hsplit
          exact (List.cons.inj hsplit).2
        rw [hparts, List.singleton_append, heading_dot_slash, List.cons_append]

theorem heads_directory_of_other
    {parts : List (List Char)}
    (anchor : anchorLength path.toList = 0)
    (other : path.toList.head? ≠ some '/')
    (split : path.toList.splitOn '/' = parts ++ [last])
    (busy : ¬ IsIdleText last) :
    Heads (directory path).toList parts path.toList := by
  rcases eq_of_splitOn split with ⟨hfree, ⟨rfl, htext⟩ | ⟨front, htext, hfront⟩⟩
  · have hlead : path.toList = [] ++ last := htext
    rw [toList_directory_of_free hlead anchor hfree busy]
    exact ⟨⟨[], by simp, rfl⟩, by simp [other]⟩
  · have hlead : path.toList = [] ++ (front ++ '/' :: last) := htext
    rw [toList_directory_of_slash hlead anchor hfree busy, List.nil_append]
    rcases exists_splitOn_eq_dropIdle front with ⟨idle, hidle, hsplit⟩
    refine ⟨⟨idle, hidle, by rw [← hfront, hsplit]⟩, ?_⟩
    have hkept := dropIdle_prefix front
    constructor
    · intro hhead
      rcases List.head?_eq_some_iff.1 hhead with ⟨kept, hsame⟩
      rw [hsame] at hkept
      rcases hkept with ⟨more, hmore⟩
      rw [htext, ← hmore] at other
      exact absurd rfl other
    · intro hhead
      exact absurd hhead other

/-- Takes the first component off a path of more than one. -/
theorem exists_eq_cons_of_splitOn
    {first more : List Char}
    {parts : List (List Char)}
    (free : '/' ∉ first)
    (split : (first ++ '/' :: more).splitOn '/' = parts ++ [last]) :
    ∃ others, parts = first :: others ∧ more.splitOn '/' = others ++ [last] := by
  rw [List.splitOn_append_cons_self_of_not_mem free] at split
  cases parts with
  | nil =>
      exact absurd (List.cons.inj split).2 (List.splitOn_ne_nil '/' more)
  | cons head others =>
      rcases List.cons.inj split with ⟨rfl, hmore⟩
      exact ⟨others, rfl, hmore⟩

/-- The directory of a path heads it. -/
theorem heads_directory
    {parts : List (List Char)}
    (split : path.toList.splitOn '/' = parts ++ [last])
    (busy : ¬ IsIdleText last) :
    Heads (directory path).toList parts path.toList := by
  rcases anchor_cases path.toList with ⟨rest, htext⟩ | htext | ⟨rest, htext⟩ | ⟨hanchor, hhead⟩
  · have hsplit : ([] ++ '/' :: rest).splitOn '/' = parts ++ [last] := by
      rw [← split, htext, List.nil_append]
    rcases exists_eq_cons_of_splitOn (by simp) hsplit with ⟨others, rfl, hrest⟩
    exact heads_directory_of_slash htext hrest busy
  · have hsplit : [] ++ [['.']] = parts ++ [last] := by
      rw [← split, htext, List.splitOn_eq_singleton (by simp), List.nil_append]
    rcases List.append_inj' hsplit rfl with ⟨_, hlast⟩
    exact absurd (Or.inr (List.cons.inj hlast).1.symm) busy
  · have hsplit : (['.'] ++ '/' :: rest).splitOn '/' = parts ++ [last] := by
      rw [← split, htext, List.singleton_append]
    rcases exists_eq_cons_of_splitOn (by simp) hsplit with ⟨others, rfl, hrest⟩
    exact heads_directory_of_dot htext hrest busy
  · exact heads_directory_of_other hanchor hhead split busy

/-- The directory of a path has all components of it but the last and idle ones, and starts where
the path does. -/
theorem exists_components_eq_heading
    {parts : List String}
    {final : String}
    (split : components path = parts ++ [final])
    (busy : ¬ IsIdle final) :
    ∃ idle,
      (∀ part ∈ idle, IsIdle part) ∧
        parts = (heading (directory path).toList).map String.ofList ++ idle ∧
        isRooted (directory path) = isRooted path := by
  unfold components at split
  rcases List.map_eq_append_iff.1 split with ⟨texts, lasts, hsplit, hparts, hlasts⟩
  rcases List.map_eq_singleton_iff.1 hlasts with ⟨last, rfl, rfl⟩
  have hbusy : ¬ IsIdleText last := by
    rintro (hempty | hdot)
    · exact busy (Or.inl (by rw [hempty]))
    · exact busy (Or.inr (by rw [hdot]))
  rcases heads_directory hsplit hbusy with ⟨⟨idle, hidle, htexts⟩, hstart⟩
  refine ⟨idle.map String.ofList, ?_, ?_, ?_⟩
  · intro part hmember
    rcases List.mem_map.1 hmember with ⟨text, htext, rfl⟩
    rcases hidle text htext with rfl | rfl
    · exact Or.inl rfl
    · exact Or.inr rfl
  · rw [← hparts, htexts, List.map_append]
  · unfold isRooted
    exact decide_eq_decide.2 hstart

/-- The directory of a path has no characters that the path does not have. -/
theorem mem_directory {c : Char} (member : c ∈ (directory path).toList) : c ∈ path.toList := by
  unfold directory at member
  dsimp only at member
  split at member
  · cases member
  · rw [String.toList_ofList, List.mem_append, List.mem_reverse] at member
    rcases member with htake | hdrop
    · exact List.mem_of_mem_take htake
    · have hkept := List.mem_of_mem_drop ((dropIdle_suffix _).subset hdrop)
      have hbody := (dropIdle_suffix _).subset hkept
      exact List.mem_of_mem_drop (List.mem_reverse.1 hbody)

end Directory

section Beside

variable {path later : String}

/-- The components of a path read from a directory. -/
theorem components_beside
    (directory : String)
    (relative : isRooted later = false) :
    components (beside directory later) =
      (heading directory.toList).map String.ofList ++ components later := by
  unfold beside
  by_cases hempty : directory = ""
  · rw [if_pos (by simp [hempty]), hempty]
    rfl
  rw [if_neg (by simp [relative, hempty])]
  have htext : directory.toList ≠ [] := by simpa using hempty
  by_cases hslash : directory.toList.getLast? = some '/'
  · rw [if_pos hslash]
    rcases List.getLast?_eq_some_iff.1 hslash with ⟨front, hfront⟩
    unfold components
    rw [String.toList_append, hfront, List.append_assoc, List.singleton_append,
      heading_append_cons, List.splitOn_append_cons_self]
    simp
  · rw [if_neg hslash]
    unfold components
    rw [String.toList_append, String.toList_append,
      show "/".toList = ['/'] from rfl, List.append_assoc, List.singleton_append,
      List.splitOn_append_cons_self, List.map_append]
    unfold heading
    rw [if_neg htext, if_neg hslash]

theorem isRooted_beside
    (directory : String)
    (relative : isRooted later = false) :
    isRooted (beside directory later) = isRooted directory := by
  unfold beside
  by_cases hempty : directory = ""
  · rw [if_pos (by simp [hempty]), hempty, relative]
    rfl
  rw [if_neg (by simp [relative, hempty])]
  have htext : directory.toList ≠ [] := by simpa using hempty
  rcases List.exists_cons_of_ne_nil htext with ⟨first, rest, hsame⟩
  split
  · unfold isRooted
    rw [String.toList_append, hsame]
    rfl
  · unfold isRooted
    rw [String.toList_append, String.toList_append, hsame]
    rfl

/-- A path read from a directory has no characters but those of both, and slashes. -/
theorem mem_beside
    {directory : String}
    {c : Char}
    (member : c ∈ (beside directory later).toList) :
    c ∈ directory.toList ∨ c = '/' ∨ c ∈ later.toList := by
  unfold beside at member
  split at member
  · exact Or.inr (Or.inr member)
  split at member
  · rw [String.toList_append, List.mem_append] at member
    rcases member with hdirectory | hlater
    · exact Or.inl hdirectory
    · exact Or.inr (Or.inr hlater)
  · rw [String.toList_append, String.toList_append, List.mem_append, List.mem_append] at member
    rcases member with (hdirectory | hslash) | hlater
    · exact Or.inl hdirectory
    · exact Or.inr (Or.inl (List.mem_singleton.1 hslash))
    · exact Or.inr (Or.inr hlater)

theorem mem_beside_of_mem
    (directory : String)
    {c : Char}
    (member : c ∈ later.toList) :
    c ∈ (beside directory later).toList := by
  unfold beside
  split
  · exact member
  split
  · rw [String.toList_append, List.mem_append]
    exact Or.inr member
  · rw [String.toList_append, List.mem_append]
    exact Or.inr member

theorem beside_ne_empty (directory : String) (nonempty : later ≠ "") :
    beside directory later ≠ "" := by
  intro hempty
  have htext : later.toList ≠ [] := by simpa using nonempty
  rcases List.exists_cons_of_ne_nil htext with ⟨first, rest, hsame⟩
  have hmember : first ∈ (beside directory later).toList :=
    mem_beside_of_mem directory (by rw [hsame]; exact List.mem_cons_self)
  rw [hempty] at hmember
  cases hmember

/-- What is written after a path is written after it in every directory. -/
theorem beside_append
    (directory : String)
    (nonempty : later ≠ "")
    (ending : String) :
    beside directory later ++ ending = beside directory (later ++ ending) := by
  have hrooted : isRooted (later ++ ending) = isRooted later := by
    have htext : later.toList ≠ [] := by simpa using nonempty
    rcases List.exists_cons_of_ne_nil htext with ⟨first, rest, hsame⟩
    unfold isRooted
    rw [String.toList_append, hsame]
    rfl
  unfold beside
  rw [hrooted]
  split
  · rfl
  split
  · rw [String.append_assoc]
  · rw [String.append_assoc]

end Beside

end Path
end InterfaceSchema
