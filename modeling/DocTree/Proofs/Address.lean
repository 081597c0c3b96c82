/-
# What an address asks for

An address is the path of a record, and behind a `#` the names of a submodule and of a function
with a dot in between.  It selects the function if there is one of these names, else the submodule
if there is one, and else the whole record (`Catalog.select_eq_iff`); whatever comes behind a
second `#` or a second dot is ignored.  So there are several ways to ask for a function, and to ask
for nothing there is, which comes to the same document as asking for the record
(`address_selects`).
-/

import DocTree.Document
import DocTree.Proofs.Listing
import DocTree.Proofs.Program
import DocTree.Proofs.Record
import DocTree.Proofs.Selection
import DocTree.Proofs.Text.Mark

namespace DocTree

open Text (upTo beyond nonempty?)

/-- An address is the text before the first `#`, and the text between that and the second. -/
theorem Address.ofString_eq (text : String) :
    ofString text =
      { path := upTo '#' text, target? := nonempty? (upTo '#' (beyond '#' text)) } := by
  rw [ofString, Text.headD_split, Text.part?_one_split]

namespace Catalog

/-- What two names, each of which may be empty, select in a catalog. -/
def Selects (catalog : Catalog) (first second : String) : Selection → Prop
  | .function submodule name doc => submodule = first ∧ name = second ∧ first ≠ "" ∧ second ≠ "" ∧
      ∃ functions, (first, functions) ∈ catalog.entries ∧ (second, doc) ∈ functions.entries
  | .submodule submodule functions => submodule = first ∧ first ≠ "" ∧
      (first, functions) ∈ catalog.entries ∧ (second = "" ∨ second ∉ functions.names)
  | .whole => first = "" ∨ first ∉ catalog.names

/-- What a target selects depends on its first two components alone. -/
theorem selects_select (catalog : Catalog) (target? : Option String) :
    catalog.Selects (upTo '.' (target?.getD "")) (upTo '.' (beyond '.' (target?.getD "")))
      (catalog.select target?) := by
  rw [select, Text.part?_zero_split, Text.part?_one_split]
  generalize upTo '.' (target?.getD "") = first
  generalize upTo '.' (beyond '.' (target?.getD "")) = second
  by_cases hfirst : first = ""
  · rw [nonempty?, if_pos hfirst]
    exact .inl hfirst
  · rw [nonempty?, if_neg hfirst]
    dsimp only
    cases hfunctions : catalog.get? first with
    | none => exact .inr (Listing.get?_eq_none_iff.1 hfunctions)
    | some functions =>
      have hmem := Listing.get?_eq_some_iff.1 hfunctions
      by_cases hsecond : second = ""
      · rw [nonempty?, if_pos hsecond]
        exact ⟨rfl, hfirst, hmem, .inl hsecond⟩
      · rw [nonempty?, if_neg hsecond]
        dsimp only [Option.bind_some]
        cases hdoc : functions.get? second with
        | none => exact ⟨rfl, hfirst, hmem, .inr (Listing.get?_eq_none_iff.1 hdoc)⟩
        | some doc =>
          exact ⟨rfl, rfl, hfirst, hsecond, functions, hmem, Listing.get?_eq_some_iff.1 hdoc⟩

section Selects

variable {catalog : Catalog} {first second : String} {functions : Submodule} {doc : Docstring}

theorem not_selects_whole (hfirst : first ≠ "") (hmem : (first, functions) ∈ catalog.entries) :
    ¬catalog.Selects first second .whole := by
  rintro (hempty | hnames)
  · exact hfirst hempty
  · exact hnames (Listing.mem_names_iff.2 ⟨functions, hmem⟩)

theorem not_selects_submodule (hsecond : second ≠ "")
    (hmem : (first, functions) ∈ catalog.entries) (hdoc : (second, doc) ∈ functions.entries)
    {name : String} {other : Submodule} :
    ¬catalog.Selects first second (.submodule name other) := by
  rintro ⟨-, -, hother, hempty | hnames⟩
  · exact hsecond hempty
  · obtain rfl := Listing.eq_of_mem_entries hmem hother
    exact hnames (Listing.mem_names_iff.2 ⟨doc, hdoc⟩)

/-- Two names select one thing at most. -/
theorem Selects.unique : ∀ {selection other : Selection}, catalog.Selects first second selection →
    catalog.Selects first second other → selection = other
  | .whole, .whole, _, _ => rfl
  | .whole, .submodule .., h, ⟨_, hfirst, hmem, _⟩ => absurd h (not_selects_whole hfirst hmem)
  | .whole, .function .., h, ⟨_, _, hfirst, _, _, hmem, _⟩ =>
    absurd h (not_selects_whole hfirst hmem)
  | .submodule .., .whole, ⟨_, hfirst, hmem, _⟩, h => absurd h (not_selects_whole hfirst hmem)
  | .submodule .., .submodule .., ⟨hname, _, hmem, _⟩, ⟨hname', _, hmem', _⟩ => by
    rw [hname, hname', Listing.eq_of_mem_entries hmem hmem']
  | .submodule .., .function .., h, ⟨_, _, _, hsecond, _, hmem, hdoc⟩ =>
    absurd h (not_selects_submodule hsecond hmem hdoc)
  | .function .., .whole, ⟨_, _, hfirst, _, _, hmem, _⟩, h =>
    absurd h (not_selects_whole hfirst hmem)
  | .function .., .submodule .., ⟨_, _, _, hsecond, _, hmem, hdoc⟩, h =>
    absurd h (not_selects_submodule hsecond hmem hdoc)
  | .function .., .function .., ⟨hname, hname₂, _, _, _, hmem, hdoc⟩,
      ⟨hname', hname₂', _, _, _, hmem', hdoc'⟩ => by
    obtain rfl := Listing.eq_of_mem_entries hmem hmem'
    rw [hname, hname', hname₂, hname₂', Listing.eq_of_mem_entries hdoc hdoc']

end Selects

/-- **What a target selects is told by its first two components.** -/
theorem select_eq_iff (catalog : Catalog) (target? : Option String) (selection : Selection) :
    catalog.select target? = selection ↔
      catalog.Selects (upTo '.' (target?.getD "")) (upTo '.' (beyond '.' (target?.getD "")))
        selection := by
  constructor
  · rintro rfl
    exact catalog.selects_select target?
  · exact (catalog.selects_select target?).unique

end Catalog

/-! ### Documents -/

/-- A path without a `#` is an address that asks for the whole record. -/
theorem Address.ofString_path {path : String} (h : '#' ∉ path.toList) :
    ofString path = { path } := by
  rw [ofString_eq, Text.upTo_of_not_mem h, Text.beyond_of_not_mem h]
  rfl

/-- An address of a function goes on for nothing with a further dot or a further `#`. -/
theorem Address.ofString_function {path s f : String} (hpath : '#' ∉ path.toList)
    (hs : IsPlainName s ∧ '#' ∉ s.toList) (hf : IsPlainName f ∧ '#' ∉ f.toList) {tail : String}
    (htail : upTo '.' (upTo '#' tail) = "") :
    ∃ target, ofString (path ++ "#" ++ s ++ "." ++ f ++ tail) = { path, target? := some target } ∧
      upTo '.' target = s ∧ upTo '.' (beyond '.' target) = f := by
  have htarget : upTo '#' (s ++ ("." ++ (f ++ tail))) = s ++ ("." ++ (f ++ upTo '#' tail)) := by
    rw [Text.upTo_append hs.2, Text.upTo_append (by decide), Text.upTo_append hf.2]
  refine ⟨s ++ ("." ++ (f ++ upTo '#' tail)), ?_, ?_, ?_⟩
  · rw [ofString_eq]
    simp only [String.append_assoc]
    rw [Text.upTo_append hpath, Text.beyond_append hpath, Text.upTo_mark_append rfl,
      Text.beyond_mark_append rfl, htarget, nonempty?, if_neg (by simp [hs.1.1]),
      String.append_empty]
  · rw [Text.upTo_append hs.1.2, Text.upTo_mark_append rfl, String.append_empty]
  · rw [Text.beyond_append hs.1.2, Text.beyond_mark_append rfl, Text.upTo_append hf.1.2, htail,
      String.append_empty]

/-- The addresses of a function in the record at a path: they end with its name, or go on with
anything behind a further dot or `#`. -/
def Address.spellings (path s f rest : String) : List String :=
  [path ++ "#" ++ s ++ "." ++ f, path ++ "#" ++ s ++ "." ++ f ++ "." ++ rest,
    path ++ "#" ++ s ++ "." ++ f ++ "#" ++ rest]

theorem Address.exists_tail_of_mem_spellings {path s f rest address : String}
    (h : address ∈ spellings path s f rest) :
    ∃ tail, address = path ++ "#" ++ s ++ "." ++ f ++ tail ∧ upTo '.' (upTo '#' tail) = "" := by
  simp only [spellings, List.mem_cons, List.not_mem_nil, or_false] at h
  obtain rfl | rfl | rfl := h
  · exact ⟨"", String.append_empty.symm, rfl⟩
  · refine ⟨"." ++ rest, String.append_assoc .., ?_⟩
    rw [Text.upTo_append (by decide), Text.upTo_mark_append rfl]
  · refine ⟨"#" ++ rest, String.append_assoc .., ?_⟩
    rw [Text.upTo_mark_append rfl]
    rfl

/-- **An address of a function selects the function,** with whatever it goes on behind a further
dot or `#`. -/
theorem Address.select_spelling {path s f rest address : String} (hpath : '#' ∉ path.toList)
    (hs : IsPlainName s ∧ '#' ∉ s.toList) (hf : IsPlainName f ∧ '#' ∉ f.toList)
    (h : address ∈ spellings path s f rest) :
    (ofString address).path = path ∧
      ∀ {catalog : Catalog} {functions : Submodule} {doc : Docstring},
        (s, functions) ∈ catalog.entries → (f, doc) ∈ functions.entries →
          catalog.select (ofString address).target? = .function s f doc := by
  obtain ⟨tail, rfl, htail⟩ := exists_tail_of_mem_spellings h
  obtain ⟨target, hspelled, hfirst, hsecond⟩ := ofString_function hpath hs hf htail
  rw [hspelled]
  refine ⟨rfl, fun {catalog functions doc} hmem hdoc => ?_⟩
  rw [catalog.select_eq_iff, Option.getD_some, hfirst, hsecond]
  exact ⟨rfl, rfl, hs.1.1, hf.1.1, functions, hmem, hdoc⟩

/-- **An address that asks for nothing there is comes to what its path comes to.** -/
theorem run_document_of_whole {σ : Type} {disk : Disk (StateM σ)} {text : String} {before : σ}
    (h : ∀ catalog after, (Catalog.load disk (upTo '#' text)).run before = (.ok catalog, after) →
      catalog.select (Address.ofString text).target? = .whole)
    (parse : ProseParser) (ctx : Context) :
    (document disk text parse ctx).run before =
      (document disk (upTo '#' text) parse ctx).run before := by
  have hpath : Address.ofString (upTo '#' text) = { path := upTo '#' text } :=
    Address.ofString_path (Text.not_mem_upTo '#' text)
  cases hload : (Catalog.load disk (upTo '#' text)).run before with
  | mk loaded after =>
    rw [run_document (by rw [Address.ofString_eq]; exact hload),
      run_document (by rw [hpath]; exact hload), hpath]
    cases loaded with
    | error error => rfl
    | ok catalog =>
      simp only [Except.map, Catalog.render, h catalog after hload]
      rfl

/-- **An address asks for what it names, and falls back to what is named before it.**

* Its path is what comes before the first `#`, and its target, unless that is empty, what comes
  between the first and the second.
* Of the first two components of the target, the two select a function, if there is one, or else
  the first a submodule, if there is one, or else the whole record is selected.
* A function is asked for by its address, with anything behind a further dot or `#`; then it is
  all that is rendered.
* An address that asks for nothing there is comes to the same document, or to the same error, as
  its path.

What is said of documents is true on every disk that has a state. -/
theorem address_selects :
    (∀ text, Address.ofString text =
      { path := upTo '#' text, target? := nonempty? (upTo '#' (beyond '#' text)) }) ∧
    (∀ (catalog : Catalog) (text : String) (selection : Selection),
      catalog.select (Address.ofString text).target? = selection ↔
        catalog.Selects (upTo '.' (upTo '#' (beyond '#' text)))
          (upTo '.' (beyond '.' (upTo '#' (beyond '#' text)))) selection) ∧
    (∀ path s f rest : String, '#' ∉ path.toList → IsPlainName s ∧ '#' ∉ s.toList →
      IsPlainName f ∧ '#' ∉ f.toList → ∀ address ∈ Address.spellings path s f rest,
        (Address.ofString address).path = path ∧
        ∀ (catalog : Catalog) (functions : Submodule) (doc : Docstring),
          (s, functions) ∈ catalog.entries → (f, doc) ∈ functions.entries → ∀ parse ctx,
            catalog.render (Address.ofString address).target? parse ctx =
              doc.render f parse (ctx.inSubmodule s) ∧
            ∀ {σ : Type} (disk : Disk (StateM σ)) (before after : σ),
              (Catalog.load disk path).run before = (.ok catalog, after) →
                (document disk address parse ctx).run before =
                  (.ok { children := doc.render f parse (ctx.inSubmodule s) }, after)) ∧
    ∀ {σ : Type} (disk : Disk (StateM σ)) (text : String) (parse : ProseParser) (ctx : Context)
      (before : σ),
      (∀ catalog after, (Catalog.load disk (upTo '#' text)).run before = (.ok catalog, after) →
        catalog.select (Address.ofString text).target? = .whole) →
      (document disk text parse ctx).run before =
        (document disk (upTo '#' text) parse ctx).run before := by
  refine ⟨Address.ofString_eq, fun catalog text selection => ?_, ?_,
    fun disk text parse ctx before hwhole => run_document_of_whole hwhole parse ctx⟩
  · rw [catalog.select_eq_iff, Address.ofString_eq, Text.getD_nonempty?]
  · intro path s f rest hpath hs hf address haddress
    obtain ⟨haddressPath, hselect⟩ := Address.select_spelling hpath hs hf haddress
    refine ⟨haddressPath, fun catalog functions doc hmem hdoc parse ctx => ?_⟩
    have hrender : catalog.render (Address.ofString address).target? parse ctx =
        doc.render f parse (ctx.inSubmodule s) := by
      rw [Catalog.render, hselect hmem hdoc]
    refine ⟨hrender, fun disk before after hload => ?_⟩
    rw [run_document (by rw [haddressPath]; exact hload), Except.map, hrender]

/-- The record of a function, asked for the function with something behind a further `#`, and for
what it does not have. -/
theorem address_selects_sample :
    let record := (Json.object [("io", .object [("read", .object [])])]).compact
    let tree : FileTree := { entries := [(["r"], .file record.toUTF8)] }
    (document FileTree.disk "r#io.read#x" Markup.parse { depth := 2 }).run tree =
        (.ok { children := [.target "io.read", .titled 2 "read"] }, tree) ∧
      (document FileTree.disk "r#.read" Markup.parse {}).run tree =
        (document FileTree.disk "r" Markup.parse {}).run tree := by
  intro record tree
  let functions : Submodule := { entries := [("read", {})], nodup := by decide }
  let catalog : Catalog := { entries := [("io", functions)], nodup := by decide }
  have hload : (Catalog.load FileTree.disk "r").run tree = (.ok catalog, tree) := by
    have hread : tree.read? "r" = some record.toUTF8 := rfl
    have htext : Catalog.ofText record = .ok catalog := by
      rw [Catalog.ofText, Json.Page.ofText_compact (by decide)]
      rfl
    rw [Catalog.load_toUTF8 hread, htext]
    rfl
  obtain ⟨-, -, hfunction, hwhole⟩ := address_selects
  obtain ⟨-, hrender⟩ := hfunction "r" "io" "read" "x" (by decide) (by decide) (by decide)
    "r#io.read#x" (by decide)
  refine ⟨?_, hwhole FileTree.disk "r#.read" Markup.parse {} tree fun other after hother => ?_⟩
  · exact (hrender catalog functions {} (List.mem_singleton_self _) (List.mem_singleton_self _)
      Markup.parse { depth := 2 }).2 FileTree.disk tree tree hload
  · obtain rfl : catalog = other := Except.ok.inj (Prod.mk.inj (hload.symm.trans hother)).1
    rfl

end DocTree
