/-
# Labels and their components

Components without dots can be told apart in a label (`split_dotted`), and a module, whatever
its name, puts the same text in front of all labels in it (`exists_label_eq_append`).  So the
labels in one module differ wherever a submodule or a function does (`eq_of_label_eq`).

Dots come into a label from its components and from between them only, so a label has no stray
dots if they have none (`not_hasStray_dotted`), and then it can be taken apart again
(`label_reversible`).
-/

import DocTree.Label
import DocTree.Proofs.Selection

namespace DocTree

/-- The components that a label shows. -/
def shownComponents (components : List (Option String)) : List String :=
  (components.filterMap id).filter (· ≠ "")

theorem dotted_eq (components : List (Option String)) :
    dotted components = ".".intercalate (shownComponents components) :=
  rfl

/-- **A label is split into the components that it shows,** if these have no dots. -/
theorem split_dotted {components : List (Option String)} (hne : shownComponents components ≠ [])
    (h : ∀ component ∈ shownComponents components, '.' ∉ component.toList) :
    Text.split '.' (dotted components).toList =
      (shownComponents components).map String.toList := by
  have hdot : ".".toList = ['.'] := rfl
  rw [dotted_eq, String.toList_intercalate, hdot]
  refine Text.split_intercalate (by simpa using hne) fun part hpart => ?_
  obtain ⟨component, hcomponent, rfl⟩ := List.mem_map.1 hpart
  exact h component hcomponent

/-- In a module with a name, every label has the name and a dot in front. -/
theorem label_some_module {name submodule : String} (hname : name ≠ "") (hsub : submodule ≠ "")
    (function? : Option String) :
    label (some name) (some submodule) function? =
      name ++ "." ++ label none (some submodule) function? := by
  simp [label, dotted, hname, hsub]

/-- **A module puts the same text in front of all labels in it:** its name and a dot, or
nothing if it has no name. -/
theorem exists_label_eq_append (module? : Option String) :
    ∃ front, ∀ submodule function?, submodule ≠ "" →
      label module? (some submodule) function? =
        front ++ label none (some submodule) function? := by
  by_cases h : module? = none ∨ module? = some ""
  · refine ⟨"", fun submodule function? _ => ?_⟩
    rcases h with rfl | rfl <;> simp [label, dotted]
  · rw [not_or] at h
    obtain ⟨name, rfl⟩ := Option.ne_none_iff_exists'.1 h.1
    have hname : name ≠ "" := fun he => h.2 (congrArg some he)
    exact ⟨name ++ ".", fun submodule function? hsub => label_some_module hname hsub function?⟩

/-- The components of the label of a submodule or of one of its functions. -/
theorem shownComponents_submodule {submodule : String} {function? : Option String}
    (hsub : IsPlainName submodule) (hfun : ∀ name ∈ function?, IsPlainName name) :
    shownComponents [none, some submodule, function?] = submodule :: function?.toList := by
  cases function? with
  | none => simp [shownComponents, hsub.1]
  | some name => simp [shownComponents, hsub.1, (hfun name rfl).1]

theorem split_label {submodule : String} {function? : Option String}
    (hsub : IsPlainName submodule) (hfun : ∀ name ∈ function?, IsPlainName name) :
    Text.split '.' (label none (some submodule) function?).toList =
      (submodule :: function?.toList).map String.toList := by
  have hshown := shownComponents_submodule hsub hfun
  have hplain : ∀ component ∈ submodule :: function?.toList, '.' ∉ component.toList := by
    rw [List.forall_mem_cons]
    exact ⟨hsub.2, fun name hname => (hfun name (Option.mem_toList.1 hname)).2⟩
  rw [label, split_dotted (by simp [hshown]) (hshown ▸ hplain), hshown]

/-- **The labels in one module differ** wherever a submodule or a function does.  The
module may have any name, with dots or without; it is in front of them all. -/
theorem eq_of_label_eq {module? : Option String} {submodule other : String}
    {function? other? : Option String} (hsub : IsPlainName submodule)
    (hother : IsPlainName other) (hfun : ∀ name ∈ function?, IsPlainName name)
    (hfun' : ∀ name ∈ other?, IsPlainName name)
    (h : label module? (some submodule) function? = label module? (some other) other?) :
    submodule = other ∧ function? = other? := by
  obtain ⟨front, hfront⟩ := exists_label_eq_append module?
  rw [hfront _ _ hsub.1, hfront _ _ hother.1, String.append_right_inj] at h
  have hparts := congrArg (fun label => Text.split '.' label.toList) h
  have hcomponents : submodule :: function?.toList = other :: other?.toList :=
    List.map_injective_iff.2 (fun _ _ => String.toList_inj.1)
      ((split_label hsub hfun).symm.trans (hparts.trans (split_label hother hfun')))
  obtain ⟨hname, hrest⟩ := List.cons.inj hcomponents
  refine ⟨hname, ?_⟩
  cases function? <;> cases other? <;> simp_all

/-! ### Any components -/

theorem not_hasStray_of_mem_shown {components : List (Option String)}
    (h : ∀ component ∈ components, ∀ text ∈ component, ¬Text.HasStray '.' text.toList) :
    ∀ text ∈ shownComponents components, text ≠ "" ∧ ¬Text.HasStray '.' text.toList := by
  intro text htext
  obtain ⟨hmem, hne⟩ := List.mem_filter.1 htext
  obtain ⟨_, hcomponent, rfl⟩ := List.mem_filterMap.1 hmem
  exact ⟨of_decide_eq_true hne, h _ hcomponent text rfl⟩

/-- **There are no stray dots in a label,** if there are none in its components: what has none is
split into parts that are not empty, and the label is split into those of its components. -/
theorem not_hasStray_dotted {components : List (Option String)}
    (h : ∀ component ∈ components, ∀ text ∈ component, ¬Text.HasStray '.' text.toList) :
    ¬Text.HasStray '.' (dotted components).toList := by
  have hshown := not_hasStray_of_mem_shown h
  rw [dotted_eq]
  generalize shownComponents components = shown at hshown
  intro hstray
  have hdot : ".".toList = ['.'] := rfl
  have hempty := Text.nil_mem_split_iff.2 (.inr hstray)
  rw [String.toList_intercalate, hdot] at hempty
  cases shown with
  | nil => exact absurd hstray (by decide)
  | cons text texts =>
    rw [Text.split_intercalate_eq_flatMap (by simp), List.mem_flatMap] at hempty
    obtain ⟨_, hpart, hempty⟩ := hempty
    obtain ⟨component, hcomponent, rfl⟩ := List.mem_map.1 hpart
    obtain ⟨hne, hclean⟩ := hshown component hcomponent
    rcases Text.nil_mem_split_iff.1 hempty with hnil | hstray
    · exact hne (String.toList_eq_nil_iff.1 hnil)
    · exact hclean hstray

/-- What a label shows of components that have no dots is what it is split into. -/
theorem split_dotted_of_not_mem {components : List (Option String)}
    (h : ∀ component ∈ components, ∀ text ∈ component, '.' ∉ text.toList)
    (hne : shownComponents components ≠ []) :
    Text.split '.' (dotted components).toList =
      (shownComponents components).map String.toList := by
  refine split_dotted hne fun text htext => ?_
  obtain ⟨_, hcomponent, rfl⟩ := List.mem_filterMap.1 (List.mem_filter.1 htext).1
  exact h _ hcomponent text rfl

theorem shownComponents_of_isPlainName {names : List String}
    (h : ∀ name ∈ names, IsPlainName name) : shownComponents (names.map some) = names := by
  rw [shownComponents, List.filterMap_map, List.filter_eq_self.2]
  · exact List.filterMap_some
  · intro name hname
    have hmem : name ∈ names := by simpa using hname
    exact decide_eq_true (h name hmem).1

/-- Names that have no dots and are not empty can be told from what they are joined to. -/
theorem eq_of_dotted_eq {names others : List String} (hne : names ≠ []) (hne' : others ≠ [])
    (hnames : ∀ name ∈ names, IsPlainName name) (hothers : ∀ name ∈ others, IsPlainName name)
    (h : dotted (names.map some) = dotted (others.map some)) : names = others := by
  have hshown := shownComponents_of_isPlainName hnames
  have hshown' := shownComponents_of_isPlainName hothers
  have hsplit := split_dotted (hshown.symm ▸ hne) fun name hname =>
    (hnames name (hshown ▸ hname)).2
  have hsplit' := split_dotted (hshown'.symm ▸ hne') fun name hname =>
    (hothers name (hshown' ▸ hname)).2
  rw [hshown] at hsplit
  rw [hshown', ← h, hsplit] at hsplit'
  exact List.map_injective_iff.2 (fun _ _ => String.toList_inj.1) hsplit'

/-- **Labels are clean and can be taken apart.**  If no component begins or ends with a dot or has
two in a row, then neither does the label.  If no component has a dot at all, then the label is
split into just those that are there and not empty, in order, and is empty if there are none; so
no two triples of names have the same label. -/
theorem label_reversible :
    (∀ module? submodule? function? : Option String,
      ((∀ component ∈ [module?, submodule?, function?], ∀ text ∈ component,
          ¬Text.HasStray '.' text.toList) →
        ¬Text.HasStray '.' (label module? submodule? function?).toList) ∧
      ((∀ component ∈ [module?, submodule?, function?], ∀ text ∈ component,
          '.' ∉ text.toList) →
        (shownComponents [module?, submodule?, function?] = [] →
          label module? submodule? function? = "") ∧
        (shownComponents [module?, submodule?, function?] ≠ [] →
          Text.split '.' (label module? submodule? function?).toList =
            (shownComponents [module?, submodule?, function?]).map String.toList))) ∧
    ∀ m s f m' s' f' : String, (∀ name ∈ [m, s, f, m', s', f'], IsPlainName name) →
      label (some m) (some s) (some f) = label (some m') (some s') (some f') →
        m = m' ∧ s = s' ∧ f = f' := by
  refine ⟨fun module? submodule? function? => ⟨not_hasStray_dotted, fun h => ⟨fun hnone => ?_,
    split_dotted_of_not_mem h⟩⟩, fun m s f m' s' f' hplain h => ?_⟩
  · rw [label, dotted_eq, hnone]
    rfl
  · have hnames : ∀ name ∈ [m, s, f], IsPlainName name := fun name hname =>
      hplain name (List.mem_append_left [m', s', f'] hname)
    have hothers : ∀ name ∈ [m', s', f'], IsPlainName name := fun name hname =>
      hplain name (List.mem_append_right [m, s, f] hname)
    have heq := eq_of_dotted_eq (by simp) (by simp) hnames hothers h
    simpa using heq

/-- A module with a dot inside of its name, a submodule that is left out, and triples of names that
would be the same text without the dots. -/
theorem label_reversible_sample :
    ¬Text.HasStray '.' (label (some "pkg.io") (some "") (some "read")).toList ∧
      Text.split '.' (label (some "pkg") none (some "read")).toList =
        ["pkg".toList, "read".toList] ∧
      label (some "a") (some "bc") (some "d") ≠ label (some "ab") (some "c") (some "d") := by
  obtain ⟨hlabel, htriple⟩ := label_reversible
  refine ⟨(hlabel _ _ _).1 (by decide), ((hlabel _ _ _).2 (by decide)).2 (by decide), fun h => ?_⟩
  have hmodule : "a" = "ab" := (htriple _ _ _ _ _ _ (by decide) h).1
  exact absurd hmodule (by decide)

end DocTree
