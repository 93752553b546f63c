import Mathlib.Logic.Relation
import InterfaceSchema.Path.Clean
import InterfaceSchema.Proofs.Path.Directory

/-!
# Normal lists of components

Some components of a path make no difference wherever the path is read: one that stays, a name with
a `..` behind it, and at the root a `..`. Cleaning leaves out all of them.

* `Path.Shortens`, `Path.Reduces`: lists of components from which one, or any number of them, is
  left out.
* `Path.Equivalent`: lists that are connected by leaving out and putting in such components.
* `Path.IsNormal`: the lists from which nothing can be left out.
* `Path.cleanComponents_spec`: cleaning makes a list normal, and only leaves out.
* `Path.cleanComponents_eq_iff`: connected lists, and only these, have the same clean form.
-/

namespace InterfaceSchema
namespace Path

/-! ## Components that make no difference -/

/-- A component that names an entry of a directory. -/
def IsProper (part : String) : Prop :=
  ¬ IsIdle part ∧ part ≠ ".."

/-- Leaves out what makes no difference wherever a path is read: a component that stays, a name with
the `..` behind it, and at the root a `..`. -/
inductive Shortens (rooted : Bool) : List String → List String → Prop
  | idle
      {part : String}
      (before after : List String)
      (idle : IsIdle part) :
      Shortens rooted (before ++ part :: after) (before ++ after)
  | cancel
      {part : String}
      (before after : List String)
      (proper : IsProper part) :
      Shortens rooted (before ++ part :: ".." :: after) (before ++ after)
  | top
      (after : List String)
      (atRoot : rooted = true) :
      Shortens rooted (".." :: after) after

/-- Leaves out any number of components that make no difference. -/
def Reduces (rooted : Bool) : List String → List String → Prop :=
  Relation.ReflTransGen (Shortens rooted)

/-- Lists of components that are connected by leaving out, and putting in, what makes no
difference. -/
def Equivalent (rooted : Bool) : List String → List String → Prop :=
  Relation.EqvGen (Shortens rooted)

namespace Equivalent

variable {rooted : Bool} {parts others : List String}

theorem refl (rooted : Bool) (parts : List String) : Equivalent rooted parts parts :=
  Relation.EqvGen.refl parts

theorem symm (equivalent : Equivalent rooted parts others) : Equivalent rooted others parts :=
  Relation.EqvGen.symm _ _ equivalent

theorem trans
    {further : List String}
    (equivalent : Equivalent rooted parts others)
    (also : Equivalent rooted others further) :
    Equivalent rooted parts further :=
  Relation.EqvGen.trans _ _ _ equivalent also

theorem of_shortens (shortens : Shortens rooted parts others) : Equivalent rooted parts others :=
  Relation.EqvGen.rel _ _ shortens

theorem of_reduces (reduces : Reduces rooted parts others) : Equivalent rooted parts others :=
  Relation.EqvGen.reflTransGen_le_eqvGen (Shortens rooted) _ _ reduces

/-- An equivalence that holds at each step holds between connected lists. -/
theorem related
    {Related : List String → List String → Prop}
    (equivalent : Equivalent rooted parts others)
    (equivalence : Equivalence Related)
    (steps : ∀ longer shorter, Shortens rooted longer shorter → Related longer shorter) :
    Related parts others :=
  equivalence.eqvGen_iff.1 (Relation.EqvGen.mono steps _ _ equivalent)

theorem append_right
    (equivalent : Equivalent rooted parts others)
    (after : List String) :
    Equivalent rooted (parts ++ after) (others ++ after) := by
  refine
    equivalent.related ((Relation.EqvGen.is_equivalence (Shortens rooted)).comap (· ++ after)) ?_
  intro longer shorter hshortens
  refine of_shortens ?_
  cases hshortens with
  | idle before behind idle =>
      simpa using Shortens.idle before (behind ++ after) idle
  | cancel before behind proper =>
      simpa using Shortens.cancel before (behind ++ after) proper
  | top behind atRoot =>
      exact Shortens.top (shorter ++ after) atRoot

/-- Behind other components nothing is at the root. -/
theorem append_left
    (equivalent : Equivalent false parts others)
    (rooted : Bool)
    (before : List String) :
    Equivalent rooted (before ++ parts) (before ++ others) := by
  refine
    equivalent.related ((Relation.EqvGen.is_equivalence (Shortens rooted)).comap (before ++ ·)) ?_
  intro longer shorter hshortens
  refine of_shortens ?_
  cases hshortens with
  | idle front behind idle =>
      simpa using Shortens.idle (before ++ front) behind idle
  | cancel front behind proper =>
      simpa using Shortens.cancel (before ++ front) behind proper
  | top behind atRoot =>
      cases atRoot

end Equivalent

/-! ## Normal lists -/

/-- A list of components that nothing can be left out of: names, and before them `..` only, which
is not there in a path that starts at the root. -/
def IsNormal (rooted : Bool) (parts : List String) : Prop :=
  ∃ count names,
    parts = List.replicate count ".." ++ names ∧
      (∀ name ∈ names, IsProper name) ∧ (rooted = true → count = 0)

section Components

variable {rooted : Bool} {stack parts : List String} {part : String}

theorem pushComponent_idle (idle : IsIdle part) : pushComponent rooted stack part = stack :=
  if_pos idle

theorem pushComponent_proper (proper : IsProper part) :
    pushComponent rooted stack part = part :: stack := by
  have hidle : ¬ (part = "" ∨ part = ".") := proper.1
  unfold pushComponent
  rw [if_neg hidle, if_neg proper.2]

theorem pushComponent_up_proper (proper : IsProper part) :
    pushComponent rooted (part :: stack) ".." = stack := by
  unfold pushComponent
  rw [if_neg (by decide), if_pos rfl]
  exact if_neg proper.2

theorem pushComponent_up_nil : pushComponent true [] ".." = [] :=
  rfl

/-- At the start of a path that is not rooted each `..` is kept. -/
theorem pushComponent_up_ups (count : Nat) :
    pushComponent false (List.replicate count "..") ".." = List.replicate (count + 1) ".." := by
  cases count with
  | zero =>
      rfl
  | succ count =>
      rfl

/-- A component of a clean list was pushed. -/
theorem mem_pushComponent
    {other : String}
    (member : other ∈ pushComponent rooted stack part) :
    other ∈ stack ∨ other = part := by
  unfold pushComponent at member
  split at member
  · exact Or.inl member
  · split at member
    · split at member
      · split at member
        · cases member
        · exact Or.inr (List.mem_singleton.1 member)
      · split at member
        · split at member
          · exact Or.inl member
          · exact (List.mem_cons.1 member).symm
        · exact Or.inl (List.mem_cons_of_mem _ member)
    · exact (List.mem_cons.1 member).symm

theorem mem_foldl_pushComponent
    {other : String}
    (member : other ∈ parts.foldl (pushComponent rooted) stack) :
    other ∈ stack ∨ other ∈ parts := by
  induction parts generalizing stack with
  | nil =>
      exact Or.inl member
  | cons part rest ih =>
      rcases ih member with hpushed | hrest
      · rcases mem_pushComponent hpushed with hstack | rfl
        · exact Or.inl hstack
        · exact Or.inr List.mem_cons_self
      · exact Or.inr (List.mem_cons_of_mem part hrest)

theorem mem_of_mem_cleanComponents
    {other : String}
    (member : other ∈ cleanComponents rooted parts) :
    other ∈ parts := by
  rcases mem_foldl_pushComponent (List.mem_reverse.1 member) with hnone | hparts
  · cases hnone
  · exact hparts

/-- The last component of a normal list. -/
theorem IsNormal.stack_cases (normal : IsNormal rooted stack.reverse) :
    stack = [] ∧ rooted = true ∨
      (∃ count, stack = List.replicate count ".." ∧ rooted = false) ∨
        ∃ top below, stack = top :: below ∧ IsProper top ∧ IsNormal rooted below.reverse := by
  rcases normal with ⟨count, names, hstack, hproper, hcount⟩
  rcases List.eq_nil_or_concat names with rfl | ⟨front, top, rfl⟩
  · rw [List.append_nil] at hstack
    have hups : stack = List.replicate count ".." := by
      rw [← List.reverse_reverse stack, hstack, List.reverse_replicate]
    cases rooted with
    | true =>
        rw [hcount rfl] at hups
        exact Or.inl ⟨hups, rfl⟩
    | false =>
        exact Or.inr (Or.inl ⟨count, hups, rfl⟩)
  · rw [List.concat_eq_append] at hstack hproper
    refine Or.inr (Or.inr ⟨top, (List.replicate count ".." ++ front).reverse, ?_, ?_, ?_⟩)
    · rw [← List.reverse_reverse stack, hstack, ← List.append_assoc]
      simp
    · exact hproper top (by simp)
    · rw [List.reverse_reverse]
      exact ⟨count, front, rfl, fun name hname => hproper name (by simp [hname]), hcount⟩

theorem isNormal_nil (rooted : Bool) : IsNormal rooted [] :=
  ⟨0, [], rfl, by simp, fun _ => rfl⟩

theorem isNormal_ups (count : Nat) : IsNormal false (List.replicate count "..") :=
  ⟨count, [], by simp, by simp, by simp⟩

theorem IsNormal.concat (normal : IsNormal rooted parts) (proper : IsProper part) :
    IsNormal rooted (parts ++ [part]) := by
  rcases normal with ⟨count, names, rfl, hproper, hcount⟩
  refine ⟨count, names ++ [part], by simp, ?_, hcount⟩
  intro name hname
  rcases List.mem_append.1 hname with hold | hnew
  · exact hproper name hold
  · rw [List.mem_singleton.1 hnew]
    exact proper

/-- No component of a normal list stays where it is. -/
theorem IsNormal.busy (normal : IsNormal rooted parts) : ∀ part ∈ parts, ¬ IsIdle part := by
  rcases normal with ⟨count, names, rfl, hproper, _⟩
  intro part hmember
  rcases List.mem_append.1 hmember with hup | hname
  · rw [List.eq_of_mem_replicate hup]
    unfold IsIdle
    decide
  · exact (hproper part hname).1

/-- One more component leaves a normal list normal. What is cancelled makes no difference. -/
theorem pushComponent_spec
    (normal : IsNormal rooted stack.reverse)
    (part : String)
    (rest : List String) :
    IsNormal rooted (pushComponent rooted stack part).reverse ∧
      Reduces rooted (stack.reverse ++ part :: rest)
        ((pushComponent rooted stack part).reverse ++ rest) := by
  by_cases hidle : IsIdle part
  · rw [pushComponent_idle hidle]
    exact ⟨normal, .single (.idle _ _ hidle)⟩
  by_cases hups : part = ".."
  · subst hups
    rcases normal.stack_cases with ⟨rfl, rfl⟩ | ⟨count, rfl, rfl⟩ | ⟨top, below, rfl, htop, hbelow⟩
    · exact ⟨isNormal_nil true, .single (.top rest rfl)⟩
    · rw [pushComponent_up_ups, List.reverse_replicate, List.reverse_replicate]
      refine ⟨isNormal_ups (count + 1), ?_⟩
      rw [List.replicate_succ', List.append_assoc]
      exact .refl
    · rw [pushComponent_up_proper htop, List.reverse_cons, List.append_assoc]
      exact ⟨hbelow, .single (.cancel _ _ htop)⟩
  · rw [pushComponent_proper ⟨hidle, hups⟩, List.reverse_cons, List.append_assoc]
    exact ⟨normal.concat ⟨hidle, hups⟩, .refl⟩

/-- Cleaning leaves out what makes no difference, until nothing more can be left out. -/
theorem cleanComponents_spec (rooted : Bool) (parts : List String) :
    IsNormal rooted (cleanComponents rooted parts) ∧
      Reduces rooted parts (cleanComponents rooted parts) := by
  have hfold (stack : List String) (normal : IsNormal rooted stack.reverse) :
      IsNormal rooted (parts.foldl (pushComponent rooted) stack).reverse ∧
        Reduces rooted (stack.reverse ++ parts)
          (parts.foldl (pushComponent rooted) stack).reverse := by
    induction parts generalizing stack with
    | nil =>
        rw [List.append_nil]
        exact ⟨normal, .refl⟩
    | cons part rest ih =>
        rcases pushComponent_spec normal part rest with ⟨hpushed, hsame⟩
        rcases ih _ hpushed with ⟨hlast, hrest⟩
        exact ⟨hlast, hsame.trans hrest⟩
  exact hfold [] (isNormal_nil rooted)

theorem equivalent_cleanComponents (rooted : Bool) (parts : List String) :
    Equivalent rooted parts (cleanComponents rooted parts) :=
  .of_reduces (cleanComponents_spec rooted parts).2

/-- What makes no difference makes none to the clean form. -/
theorem cleanComponents_of_shortens
    {others : List String}
    (shortens : Shortens rooted parts others) :
    cleanComponents rooted parts = cleanComponents rooted others := by
  unfold cleanComponents
  cases shortens with
  | idle before after idle =>
      rw [List.foldl_append, List.foldl_cons, pushComponent_idle idle, List.foldl_append]
  | cancel before after proper =>
      rw [List.foldl_append, List.foldl_cons, List.foldl_cons, pushComponent_proper proper,
        pushComponent_up_proper proper, List.foldl_append]
  | top after atRoot =>
      rw [atRoot, List.foldl_cons, pushComponent_up_nil]

/-- Connected lists, and only these, have the same clean form. -/
theorem cleanComponents_eq_iff {others : List String} :
    cleanComponents rooted parts = cleanComponents rooted others ↔
      Equivalent rooted parts others := by
  constructor
  · intro hsame
    have hparts := equivalent_cleanComponents rooted parts
    rw [hsame] at hparts
    exact hparts.trans (equivalent_cleanComponents rooted others).symm
  · intro hequivalent
    exact
      hequivalent.related (eq_equivalence.comap (cleanComponents rooted)) fun _ _ hshortens =>
        cleanComponents_of_shortens hshortens

end Components

end Path
end InterfaceSchema
