import InterfaceSchema.Proofs.Path.Normal

/-!
# Clean paths

A path is cleaned by way of its components. What is shown of these here holds of the text that they
are written in.

* `Path.clean_cases`: how a clean path is written.
* `Path.isRooted_clean`, `Path.components_clean`: it starts where the path does, and its components
  mean the same.
* `Path.SameMeaning`, `Path.clean_eq_iff`: the paths that have the same clean form.
* `Path.isNormal_clean`, `Path.clean_ne_empty`: nothing more can be left out of a clean path.
* `Path.clean_append_slash`: a clean path read from another.
-/

namespace InterfaceSchema
namespace Path

/-! ## Slashes -/

/-- The characters between the slashes of a text are those that are not slashes. -/
theorem exists_mem_splitOn_iff {text : List Char} {c : Char} :
    (∃ part ∈ text.splitOn '/', c ∈ part) ↔ c ∈ text ∧ c ≠ '/' := by
  induction text with
  | nil =>
      simp
  | cons d rest ih =>
      rw [List.splitOn_cons_eq_if_modifyHead]
      split
      · next hslash =>
        rw [beq_iff_eq] at hslash
        subst hslash
        simp only [List.mem_cons, or_and_right, exists_or, exists_eq_left, List.not_mem_nil,
          false_or, ih]
        constructor
        · rintro ⟨hmember, hother⟩
          exact Or.inr ⟨hmember, hother⟩
        · rintro (⟨rfl, hother⟩ | hrest)
          · exact absurd rfl hother
          · exact hrest
      · next hother =>
        rw [beq_iff_eq] at hother
        cases hsplit : rest.splitOn '/' with
        | nil =>
            exact absurd hsplit (List.splitOn_ne_nil '/' rest)
        | cons first later =>
            rw [hsplit] at ih
            simp only [List.modifyHead_cons, List.mem_cons, or_and_right, exists_or,
              exists_eq_left] at ih ⊢
            rw [or_assoc, ih]
            constructor
            · rintro (rfl | hrest)
              · exact Or.inl ⟨rfl, hother⟩
              · exact Or.inr hrest
            · rintro (⟨rfl, _⟩ | hrest)
              · exact Or.inl rfl
              · exact Or.inr hrest

theorem exists_mem_components_iff {path : String} {c : Char} :
    (∃ part ∈ components path, c ∈ part.toList) ↔ c ∈ path.toList ∧ c ≠ '/' := by
  rw [← exists_mem_splitOn_iff]
  unfold components
  simp only [List.mem_map, exists_exists_and_eq_and, String.toList_ofList]

/-- No slash is left in a component. -/
theorem slash_not_mem_of_mem_components
    {path part : String}
    (member : part ∈ components path) :
    '/' ∉ part.toList :=
  fun hslash => (exists_mem_components_iff.1 ⟨part, member, hslash⟩).2 rfl

theorem components_append_slash (directory path : String) :
    components (directory ++ "/" ++ path) = components directory ++ components path := by
  unfold components
  rw [String.toList_append, String.toList_append, show "/".toList = ['/'] from rfl,
    List.append_assoc, List.singleton_append, List.splitOn_append_cons_self, List.map_append]

theorem components_slash (path : String) : components ("/" ++ path) = "" :: components path :=
  components_append_slash "" path

theorem isRooted_append {directory : String} (nonempty : directory ≠ "") (path : String) :
    isRooted (directory ++ path) = isRooted directory := by
  unfold isRooted
  rw [String.toList_append]
  cases htext : directory.toList with
  | nil =>
      exact absurd (String.toList_eq_nil_iff.1 htext) nonempty
  | cons c rest =>
      rfl

theorem isRooted_slash (path : String) : isRooted ("/" ++ path) = true :=
  isRooted_append (by decide) path

/-- A path begins with its first component, so it is not rooted unless this is empty. -/
theorem isRooted_ofComponents
    {first : String}
    (nonempty : first ≠ "")
    (free : '/' ∉ first.toList)
    (rest : List String) :
    isRooted (ofComponents (first :: rest)) = false := by
  have hfirst : isRooted first = false := by
    unfold isRooted
    rw [decide_eq_false_iff_not]
    exact fun hhead => free (List.mem_of_mem_head? hhead)
  unfold ofComponents
  cases rest with
  | nil =>
      rw [String.intercalate_singleton]
      exact hfirst
  | cons second others =>
      rw [String.intercalate_cons_cons, String.append_assoc, isRooted_append nonempty]
      exact hfirst

/-! ## Whole paths -/

/-- Two paths mean the same wherever they are read: they start at the same place, and their
components are connected. -/
def SameMeaning (path other : String) : Prop :=
  isRooted path = isRooted other ∧
    Equivalent (isRooted path) (components path) (components other)

section Texts

variable {path other : String}

/-- How a clean path is written: as a slash or a dot if no components are left, and otherwise with
just the components that are left, behind a slash if the path is rooted. -/
theorem clean_cases (path : String) :
    (cleanComponents (isRooted path) (components path) = [] ∧
        clean path = if isRooted path then "/" else ".") ∨
      (cleanComponents (isRooted path) (components path) ≠ [] ∧
        isRooted (clean path) = isRooted path ∧
        components (clean path) =
          (if isRooted path then [""] else []) ++
            cleanComponents (isRooted path) (components path)) := by
  have hfree :
      ∀ part ∈ cleanComponents (isRooted path) (components path), '/' ∉ part.toList := by
    intro part hmember
    exact slash_not_mem_of_mem_components (mem_of_mem_cleanComponents hmember)
  have hbusy := (cleanComponents_spec (isRooted path) (components path)).1.busy
  unfold clean
  dsimp only
  generalize cleanComponents (isRooted path) (components path) = parts at hfree hbusy ⊢
  cases parts with
  | nil =>
      exact Or.inl ⟨rfl, rfl⟩
  | cons first rest =>
      have hfirst : first ≠ "" := fun hempty => hbusy first List.mem_cons_self (Or.inl hempty)
      have hparts := components_ofComponents (List.cons_ne_nil first rest) hfree
      refine Or.inr ⟨List.cons_ne_nil first rest, ?_⟩
      cases isRooted path with
      | true =>
          exact ⟨isRooted_slash _, (components_slash _).trans (congrArg ("" :: ·) hparts)⟩
      | false =>
          exact ⟨isRooted_ofComponents hfirst (hfree first List.mem_cons_self) rest, hparts⟩

@[simp]
theorem isRooted_clean (path : String) : isRooted (clean path) = isRooted path := by
  rcases clean_cases path with ⟨_, hclean⟩ | ⟨_, hrooted, _⟩
  · rw [hclean]
    cases isRooted path with
    | true =>
        rfl
    | false =>
        rfl
  · exact hrooted

/-- What holds of the components of a path holds of those of its clean form, if it outlasts leaving
out what makes no difference and putting idle components in front. -/
theorem components_clean_of_steps
    (Holds : List String → Prop)
    (shorter :
      ∀ longer shorter, Shortens (isRooted path) longer shorter → Holds longer → Holds shorter)
    (idle : ∀ part parts, IsIdle part → Holds parts → Holds (part :: parts))
    (holds : Holds (components path)) :
    Holds (components (clean path)) := by
  have hreduced {parts : List String} (hreduces : Reduces (isRooted path) (components path) parts) :
      Holds parts := by
    induction hreduces with
    | refl =>
        exact holds
    | tail _ hshortens ih =>
        exact shorter _ _ hshortens ih
  have hcleaned := hreduced (cleanComponents_spec (isRooted path) (components path)).2
  rcases clean_cases path with ⟨hnone, hclean⟩ | ⟨_, _, hparts⟩
  · rw [hnone] at hcleaned
    rw [hclean]
    cases isRooted path with
    | true =>
        exact idle "" [""] (Or.inl rfl) (idle "" [] (Or.inl rfl) hcleaned)
    | false =>
        exact idle "." [] (Or.inr rfl) hcleaned
  · rw [hparts]
    cases hrooted : isRooted path with
    | true =>
        rw [hrooted] at hcleaned
        exact idle "" _ (Or.inl rfl) hcleaned
    | false =>
        rw [hrooted] at hcleaned
        exact hcleaned

/-- A clean path means the same as the path. -/
theorem components_clean (path : String) :
    Equivalent (isRooted path) (components (clean path)) (components path) := by
  refine
    components_clean_of_steps
      (fun parts => Equivalent (isRooted path) parts (components path)) ?_ ?_ (.refl _ _)
  · intro longer shorter hshortens hsame
    exact (Equivalent.of_shortens hshortens).symm.trans hsame
  · intro part parts hidle hsame
    exact (Equivalent.of_shortens (.idle [] parts hidle)).trans hsame

theorem clean_congr
    (rooted : isRooted path = isRooted other)
    (parts :
      cleanComponents (isRooted path) (components path) =
        cleanComponents (isRooted other) (components other)) :
    clean path = clean other := by
  unfold clean
  rw [parts, rooted]

/-- Two paths have the same clean form just if they mean the same. -/
theorem clean_eq_iff : clean path = clean other ↔ SameMeaning path other := by
  constructor
  · intro hsame
    have hrooted : isRooted path = isRooted other := by
      rw [← isRooted_clean path, hsame, isRooted_clean]
    have hother := components_clean other
    rw [← hsame, ← hrooted] at hother
    exact ⟨hrooted, (components_clean path).symm.trans hother⟩
  · rintro ⟨hrooted, hsame⟩
    refine clean_congr hrooted ?_
    rw [← hrooted]
    exact cleanComponents_eq_iff.2 hsame

theorem sameMeaning_clean (path : String) : SameMeaning (clean path) path := by
  refine ⟨isRooted_clean path, ?_⟩
  rw [isRooted_clean]
  exact components_clean path

@[simp]
theorem clean_clean (path : String) : clean (clean path) = clean path :=
  clean_eq_iff.2 (sameMeaning_clean path)

/-- The components of a path behind the slash that it may begin with. -/
def componentsBelow (path : String) : List String :=
  if isRooted path then (components path).tail else components path

/-- Nothing can be left out of a clean path. -/
theorem isNormal_clean (path : String) :
    clean path = "." ∨
      clean path = "/" ∨ IsNormal (isRooted (clean path)) (componentsBelow (clean path)) := by
  rcases clean_cases path with ⟨_, hclean⟩ | ⟨_, hrooted, hparts⟩
  · rw [hclean]
    cases isRooted path with
    | true =>
        exact Or.inr (Or.inl rfl)
    | false =>
        exact Or.inl rfl
  · have hbelow :
        componentsBelow (clean path) = cleanComponents (isRooted path) (components path) := by
      unfold componentsBelow
      rw [hrooted, hparts]
      cases isRooted path with
      | true =>
          rfl
      | false =>
          rfl
    rw [hbelow, hrooted]
    exact Or.inr (Or.inr (cleanComponents_spec _ _).1)

/-- A clean path is never the empty text. -/
theorem clean_ne_empty (path : String) : clean path ≠ "" := by
  intro hempty
  rcases isNormal_clean path with hdot | hslash | hnormal
  · rw [hempty] at hdot
    exact absurd hdot (by decide)
  · rw [hempty] at hslash
    exact absurd hslash (by decide)
  · rw [hempty] at hnormal
    exact hnormal.busy "" List.mem_cons_self (Or.inl rfl)

/-- Cleaning puts no characters into a path but slashes and a dot. -/
theorem mem_clean {c : Char} (member : c ∈ (clean path).toList) :
    c ∈ path.toList ∨ c = '/' ∨ c = '.' := by
  by_cases hslash : c = '/'
  · exact Or.inr (Or.inl hslash)
  rcases clean_cases path with ⟨_, hclean⟩ | ⟨_, _, hparts⟩
  · rw [hclean] at member
    split at member
    · exact Or.inr (Or.inl (List.mem_singleton.1 member))
    · exact Or.inr (Or.inr (List.mem_singleton.1 member))
  · rcases exists_mem_components_iff.2 ⟨member, hslash⟩ with ⟨part, hpart, hc⟩
    rw [hparts, List.mem_append] at hpart
    rcases hpart with hroot | hkept
    · split at hroot
      · rw [List.mem_singleton.1 hroot] at hc
        cases hc
      · cases hroot
    · exact Or.inl (exists_mem_components_iff.1 ⟨part, mem_of_mem_cleanComponents hkept, hc⟩).1

/-- Two clean paths, one read from the other, mean the same as the paths themselves. -/
theorem clean_append_slash
    {directory : String}
    (nonempty : directory ≠ "")
    (relative : isRooted path = false) :
    clean (directory ++ "/" ++ path) = clean (clean directory ++ "/" ++ clean path) := by
  have hstart (first : String) (hfirst : first ≠ "") (second : String) :
      isRooted (first ++ "/" ++ second) = isRooted first := by
    rw [String.append_assoc]
    exact isRooted_append hfirst _
  have hdirectory := (components_clean directory).symm
  have hpath := (components_clean path).symm
  rw [relative] at hpath
  rw [clean_eq_iff]
  unfold SameMeaning
  rw [hstart _ nonempty, hstart _ (clean_ne_empty directory), isRooted_clean,
    components_append_slash, components_append_slash]
  exact ⟨rfl, (hdirectory.append_right _).trans (hpath.append_left _ _)⟩

end Texts

end Path
end InterfaceSchema
