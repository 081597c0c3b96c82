/-
# Parts that are given twice

An object may give a part of a structure once.  When a key comes for a part that a member is for
already, the object is refused, whatever was read as that part before and whatever follows the key
(`Layout.read_again`, `GivesAgain.hasInside`).  So it is with docstrings, with entries of parameter
lists, and with records in which one of these is the first thing that is wrong
(`repeatedParts_refused`).
-/

import DocTree.Proofs.FirstFault
import DocTree.Proofs.Json.Key
import DocTree.Proofs.Record
import DocTree.Proofs.Unpopulated

namespace DocTree

open Json (Draft Fault Damage Frame HasInside Page State StringText IsKeySpelling IsMemberText
  forall₂_memberText isKeySpelling_quote isSpace memberText nestingLimit
  openObject quote)

variable {α κ : Type}

/-- Whether a member is for a part: its key is one of those of the part. -/
def Names (isKey : κ → String → Prop) (part : κ) (member : StringText × Draft) : Prop :=
  ∃ key, member.1 = some key ∧ isKey part key

/-- Whether members can be read one by one, and no two of them are for the same part.  Those that
are for no part may come any number of times. -/
structure IsGivenOnce (isKey : κ → String → Prop) (read : Draft → Except Fault α)
    (members : List (StringText × Draft)) : Prop where
  reads (member : StringText × Draft) (hmember : member ∈ members) :
    ∃ whole, read (.object [member] none) = .ok whole
  distinct : members.Pairwise fun member other =>
    ∀ part, Names isKey part member → ¬Names isKey part other

/-- Whether a text begins an object, with members and then a key for a part that one of them is for
already. -/
inductive GivesAgain (isKey : κ → String → Prop) (read : Draft → Except Fault α) :
    List Char → Prop where
  | intro {members : List (StringText × Draft)} {texts : List (List Char)} {part : κ} {key : String}
    {spelling : List Char} (htexts : List.Forall₂ IsMemberText members texts)
    (hmembers : IsGivenOnce isKey read members)
    (hgiven : ∃ member ∈ members, Names isKey part member) (hpart : isKey part key)
    (hkey : IsKeySpelling key spelling) :
    GivesAgain isKey read (openObject texts ++ spelling)

namespace Layout

variable [DecidableEq κ] {layout : Layout α κ} {isKey : κ → String → Prop}

/-- Whether a value that is read as a part is so whatever the structure. -/
def ReadsAnywhere (layout : Layout α κ) : Prop :=
  ∀ whole start part value, (∃ next, layout.readPart start part value = .ok next) →
    ∃ next, layout.readPart whole part value = .ok next

section

variable (hkey : ∀ key part, layout.ofKey? key = some part ↔ isKey part key)
  (hany : layout.ReadsAnywhere)

include hkey

omit [DecidableEq κ] in
theorem names_iff {part : κ} {name : String} {value : Draft} :
    Names isKey part (some name, value) ↔ layout.ofKey? name = some part := by
  simp [Names, hkey]

include hany

/-- A member that can be read alone can be read after others, if none of them is for its part,
which is then seen. -/
theorem exists_readMember {start : α} {member : StringText × Draft}
    (h : ∃ whole, layout.read start (.object [member] none) = .ok whole) (whole : α) {seen : List κ}
    (hfresh : ∀ part, Names isKey part member → part ∉ seen) :
    ∃ next seen', layout.readMember (whole, seen) member = .ok (next, seen') ∧
      ∀ part, part ∈ seen' ↔ part ∈ seen ∨ Names isKey part member := by
  obtain ⟨key, value⟩ := member
  obtain ⟨_, h⟩ := h
  rw [read_object_eq, readMembers_cons_eq_ok_iff] at h
  obtain ⟨name, rfl, ⟨hnone, hskip, -⟩ | ⟨part, next, hpart, -, hnext, -⟩⟩ := h
  · refine ⟨whole, seen, ?_, fun part => ?_⟩
    · simp [readMember, Json.keepText, bind, Except.bind, hnone, hskip]
      rfl
    · rw [names_iff hkey, hnone]
      simp
  · obtain ⟨next', hnext'⟩ := hany whole start part value ⟨next, hnext⟩
    have hseen := hfresh part ((names_iff hkey).2 hpart)
    refine ⟨next', part :: seen, ?_, fun other => ?_⟩
    · simp [readMember, Json.keepText, bind, Except.bind, hpart, hseen, hnext']
      rfl
    · rw [names_iff hkey, hpart, List.mem_cons, or_comm, Option.some_inj, eq_comm]

/-- **Members that are given once are read together,** and then the parts they are for are seen. -/
theorem exists_foldlM_readMember {start : α} {members : List (StringText × Draft)}
    (h : IsGivenOnce isKey (layout.read start) members) (whole : α) {seen : List κ}
    (hfresh : ∀ member ∈ members, ∀ part, Names isKey part member → part ∉ seen) :
    ∃ next seen', members.foldlM layout.readMember (whole, seen) = .ok (next, seen') ∧
      ∀ part, part ∈ seen' ↔ part ∈ seen ∨ ∃ member ∈ members, Names isKey part member := by
  induction members generalizing whole seen with
  | nil => exact ⟨whole, seen, rfl, fun part => by simp⟩
  | cons member members ih =>
    obtain ⟨hreads, hdistinct⟩ := h
    rw [List.forall_mem_cons] at hreads hfresh
    rw [List.pairwise_cons] at hdistinct
    obtain ⟨next, seen', hnext, hseen'⟩ := exists_readMember hkey hany hreads.1 whole hfresh.1
    have hfresh' : ∀ other ∈ members, ∀ part, Names isKey part other → part ∉ seen' := by
      intro other hother part hpart
      rw [hseen', not_or]
      exact ⟨hfresh.2 other hother part hpart, fun hmember =>
        hdistinct.1 other hother part hmember hpart⟩
    obtain ⟨last, seen'', hlast, hseen''⟩ := ih ⟨hreads.2, hdistinct.2⟩ next hfresh'
    refine ⟨last, seen'', ?_, fun part => ?_⟩
    · rw [List.foldlM_cons, hnext]
      exact hlast
    · rw [hseen'', hseen', or_assoc, List.exists_mem_cons_iff]

/-- **A part is not read again.** -/
theorem read_again {start : α} {members : List (StringText × Draft)}
    (h : IsGivenOnce isKey (layout.read start) members) {part : κ} {key : String}
    (hgiven : ∃ member ∈ members, Names isKey part member) (hpart : isKey part key) (value : Draft)
    (more : List (StringText × Draft)) (damage? : Option Damage) :
    layout.read start (.object (members ++ (some key, value) :: more) damage?) =
      .error .wrongShape := by
  obtain ⟨next, seen, hmembers, hseen⟩ :=
    exists_foldlM_readMember hkey hany h start (fun _ _ _ _ => List.not_mem_nil)
  have hrefused : layout.readMember (next, seen) (some key, value) = .error .wrongShape := by
    simp [readMember, Json.keepText, bind, Except.bind, (hkey key part).2 hpart,
      (hseen part).2 (.inr hgiven)]
  rw [read, readMembers_eq_foldlM, bind_map_left,
    PassesFaults.foldlM_eq_error hmembers hrefused]
  rfl

end

end Layout

/-! ### Texts -/

section

variable [DecidableEq κ] {layout : Layout α κ} {isKey : κ → String → Prop}
  (hkey : ∀ key part, layout.ofKey? key = some part ↔ isKey part key)
  (hany : layout.ReadsAnywhere)

include hkey hany

/-- **A text that gives a part again holds what is refused,** whatever is around it and whatever
follows. -/
theorem GivesAgain.hasInside {start : α} {text : List Char}
    (h : GivesAgain isKey (layout.read start) text) {outer : List Frame} {state : State}
    (hstate : state.Awaits outer) (rest : List Char) :
    HasInside outer (fun value => layout.read start value = .error .wrongShape)
      (State.run state (text ++ rest)).page.value := by
  cases h with
  | @intro members texts part key spelling htexts hmembers hgiven hpart hspelling =>
    have hne : members ≠ [] := by
      rintro rfl
      obtain ⟨_, hmember, -⟩ := hgiven
      cases hmember
    have hinside := State.mayHold_run (.afterKey (some key) members.reverse outer) rest
    rw [List.append_assoc, State.run_append, State.run_openObject htexts hne hstate,
      State.run_append, hspelling]
    refine HasInside.mono hinside ?_
    rintro _ ⟨value, more, damage?, -, rfl⟩
    rw [List.reverse_reverse]
    exact Layout.read_again hkey hany hmembers hgiven hpart value more damage?

/-- **The fault of the repeated part is the fault of the text,** if there is none in front. -/
theorem GivesAgain.decode {β : Type} {start : α} {text : List Char}
    (h : GivesAgain isKey (layout.read start) text) {outer : List Frame}
    {readWhole : Draft → Except Fault β}
    (hfaults : PassesFaults outer (layout.read start) readWhole)
    {front : List Char} (hplace : (State.run (.expectValue []) front).Awaits outer)
    (hgood : ∃ tail result,
      (Page.ofText (front ++ '\x7b' :: '\x7d' :: tail)).decode readWhole = .ok result)
    (rest : List Char) :
    (Page.ofText (front ++ (text ++ rest))).decode readWhole = .error .wrongShape := by
  refine hfaults.decode hplace hgood ?_
  rw [Page.ofText, State.run_append]
  exact h.hasInside hkey hany hplace rest

/-- A text that gives a part again is refused as a whole. -/
theorem GivesAgain.decode_whole {start : α} {text : List Char}
    (h : GivesAgain isKey (layout.read start) text) {front : List Char}
    (hfront : ∀ c ∈ front, isSpace c = true) (rest : List Char) :
    (Page.ofText (front ++ (text ++ rest))).decode (layout.read start) = .error .wrongShape := by
  have hplace := State.run_gap (.expectValue []) rfl hfront
  refine h.decode hkey hany (.refl _) (State.awaits_of_eq hplace) ⟨[], start, ?_⟩ rest
  rw [Page.ofText, State.run_append, hplace]
  rfl

end

theorem Docstring.readsAnywhere_layout (depth : Nat) : (layout depth).ReadsAnywhere := by
  rintro whole start part value ⟨next, hnext⟩
  rw [(isIndependent_layout depth).readPart_eq whole start, hnext]
  exact ⟨_, rfl⟩

theorem Parameter.readsAnywhere_layout : layout.ReadsAnywhere := by
  rintro whole start part value ⟨next, hnext⟩
  cases value with
  | string text =>
    cases text with
    | none => cases hnext
    | some text => exact ⟨_, rfl⟩
  | _ => cases hnext

/-- Whether a key is the name of the part. -/
def Parameter.Part.IsKey (part : Part) (key : String) : Prop :=
  key = part.key

/-- Whether an entry of a parameter list may come after a text: an item of the value of a section of
a docstring of a record, which is found by its name or by its position. -/
def IsParameterPlace (front : List Char) : Prop :=
  ∃ entries sections functions function submodules submodule g,
    (Docstring.layout (nestingLimit - 3)).partAt? sections = some (.group g) ∧
      (State.run (.expectValue []) front).Awaits [.item entries, sections,
        .member functions function, .member submodules submodule]

namespace Catalog

/-- Whether there is nothing wrong with a record so far: with an empty object it can go on so that
it loads. -/
def LoadsUpTo (front : List Char) : Prop :=
  ∃ tail catalog, Catalog.ofText (.ofList (front ++ '\x7b' :: '\x7d' :: tail)) = .ok catalog

/-- Whether a record does not load for a fault, as a text and from a file. -/
def IsRefused (fault : Fault) (text : String) : Prop :=
  Catalog.ofText text = .error fault ∧
    ∀ (tree : FileTree) (path : String), tree.read? path = some text.toUTF8 →
      (load FileTree.disk path).run tree = (.error (.invalid path fault), tree)

theorem isRefused_of_ofText {fault : Fault} {text : String}
    (h : Catalog.ofText text = .error fault) : IsRefused fault text := by
  refine ⟨h, fun tree path hfile => ?_⟩
  rw [load_toUTF8 hfile, h]
  rfl

end Catalog

/-- **No part is given twice.**  A docstring is refused, as being of the wrong shape, as soon as a
key comes that names a section for which there is a member already.  It does not matter what the
members in front are, if only each can be read and no two are for the same section, nor what was
read as the section, by which of its names and in which spelling it is named each time, or what
follows the key.  So is an entry of a parameter list that gives a part again; and so is a record in
which one of these is the first thing that is wrong. -/
theorem repeatedParts_refused :
    (∀ {front text : List Char}, (∀ c ∈ front, isSpace c = true) →
      GivesAgain Section.IsKey (Docstring.ofDraft (nestingLimit - 1)) text → ∀ rest,
        Docstring.ofText (.ofList (front ++ (text ++ rest))) = .error .wrongShape) ∧
    (∀ {front text : List Char}, (∀ c ∈ front, isSpace c = true) →
      GivesAgain Parameter.Part.IsKey Parameter.ofDraft text → ∀ rest,
        Parameter.ofText (.ofList (front ++ (text ++ rest))) = .error .wrongShape) ∧
    (∀ {front text : List Char}, IsDocstringPlace front → Catalog.LoadsUpTo front →
      GivesAgain Section.IsKey (Docstring.ofDraft (nestingLimit - 3)) text → ∀ rest,
        Catalog.IsRefused .wrongShape (.ofList (front ++ (text ++ rest)))) ∧
    ∀ {front text : List Char}, IsParameterPlace front → Catalog.LoadsUpTo front →
      GivesAgain Parameter.Part.IsKey Parameter.ofDraft text → ∀ rest,
        Catalog.IsRefused .wrongShape (.ofList (front ++ (text ++ rest))) := by
  have hsection (key : String) (part : Section) : Section.ofKey? key = some part ↔ part.IsKey key :=
    Section.ofKey?_eq_some_iff
  have hpart (key : String) (part : Parameter.Part) :
      Parameter.Part.ofKey? key = some part ↔ part.IsKey key := Parameter.Part.ofKey?_eq_some_iff
  refine ⟨fun {front text} hfront h rest => ?_, fun {front text} hfront h rest => ?_,
    fun {front text} hplace hfront h rest => ?_, fun {front text} hplace hfront h rest => ?_⟩
  · rw [Docstring.ofText, String.toList_ofList]
    exact h.decode_whole hsection (Docstring.readsAnywhere_layout _) hfront rest
  · rw [Parameter.ofText, String.toList_ofList]
    exact h.decode_whole hpart Parameter.readsAnywhere_layout hfront rest
  · obtain ⟨submodules, submodule, functions, function, hrun⟩ := hplace
    simp only [Catalog.LoadsUpTo, Catalog.ofText, String.toList_ofList] at hfront
    refine Catalog.isRefused_of_ofText ?_
    rw [Catalog.ofText, String.toList_ofList]
    exact h.decode hsection (Docstring.readsAnywhere_layout _)
      (Catalog.passesFaults_docstring _ _ _) (State.awaits_of_eq hrun) hfront rest
  · obtain ⟨entries, sections, functions, function, submodules, submodule, g, hg, hrun⟩ := hplace
    simp only [Catalog.LoadsUpTo, Catalog.ofText, String.toList_ofList] at hfront
    refine Catalog.isRefused_of_ofText ?_
    rw [Catalog.ofText, String.toList_ofList]
    exact h.decode hpart Parameter.readsAnywhere_layout
      (Catalog.passesFaults_parameter hg _ _ _) hrun hfront rest

/-! ### An example -/

/-- An object with no notes and something unknown twice, that goes on with notes again. -/
def notesAgain : List Char :=
  openObject [memberText ("Notes", .null), memberText ("x", .null), memberText ("x", .array [])] ++
    ['"', 'n', 'o', 't', '\\', 'u', '0', '0', '6', '5', 's', '"']

theorem givesAgain_notesAgain (depth : Nat) :
    GivesAgain Section.IsKey (Docstring.ofDraft depth) notesAgain := by
  have hunknown (part : Section) (value : Draft) : ¬Names Section.IsKey part (some "x", value) := by
    rintro ⟨_, ⟨⟩, hkey⟩
    have hnone : Section.ofKey? "x" = none := by decide
    cases hnone.symm.trans (Section.ofKey?_eq_some_iff.2 hkey)
  refine @GivesAgain.intro _ _ _ _
    [(some "Notes", .null), (some "x", .null), (some "x", .array [] none)] _ .notes
    "notes" _ ?_ ⟨?_, ?_⟩ ⟨_, List.mem_cons_self, "Notes", rfl, .inl rfl⟩ (.inr rfl) fun _ _ => rfl
  · exact @forall₂_memberText [("Notes", .null), ("x", .null), ("x", .array [])] (by decide)
  · simp only [List.forall_mem_cons]
    exact ⟨⟨_, rfl⟩, ⟨_, rfl⟩, ⟨_, rfl⟩, List.forall_mem_nil _⟩
  · simp [hunknown]

/-- An object that goes on with its name again. -/
def nameAgain : List Char :=
  openObject [memberText ("name", .string "")] ++ quote "name"

theorem givesAgain_nameAgain : GivesAgain Parameter.Part.IsKey Parameter.ofDraft nameAgain := by
  refine @GivesAgain.intro _ _ _ _ [(some "name", .string (some ""))] _ Parameter.Part.name "name"
    _ ?_ ⟨?_, ?_⟩ ⟨_, List.mem_cons_self, "name", rfl, rfl⟩ rfl (isKeySpelling_quote "name")
  · exact @forall₂_memberText [("name", .string "")] (by decide)
  · exact List.forall_mem_singleton.2 ⟨_, rfl⟩
  · exact List.pairwise_singleton _ _

/-- The beginning of the record of one function, up to the entries of its parameter list. -/
def entryFront : List Char :=
  recordFront ++ '\x7b' :: (quote "Parameters" ++ [':', '['])

theorem isParameterPlace_entryFront : IsParameterPlace entryFront := by
  obtain ⟨submodules, submodule, functions, function, hfront⟩ := isDocstringPlace_recordFront
  refine ⟨[], .member [] (some "Parameters"), functions, function, submodules, submodule,
    .parameters, by decide, ?_⟩
  have hopen (outer : List Frame) : State.step (.expectValue outer) '\x7b' = .firstKey outer := rfl
  rw [entryFront, State.run_append, hfront, State.run_cons, hopen, State.run_firstKey,
    State.run_key]
  exact .firstItem _

/-- A record of one function loads up to an empty object in it. -/
theorem loadsUpTo_of_compactText {front tail : List Char} {members : List (String × Json)}
    (htext : (recordOfMembers members).compactText = front ++ '\x7b' :: '\x7d' :: tail)
    (hread : ∃ catalog, Catalog.ofText (recordOfMembers members).compact = .ok catalog) :
    Catalog.LoadsUpTo front := by
  obtain ⟨catalog, hread⟩ := hread
  exact ⟨tail, catalog, htext ▸ hread⟩

/-- No notes are notes, an entry may have an empty name, and what follows need not be JSON. -/
theorem repeatedParts_refused_sample :
    Docstring.ofText (.ofList (notesAgain ++ ['?'])) = .error .wrongShape ∧
      Parameter.ofText (.ofList (' ' :: nameAgain)) = .error .wrongShape ∧
      Catalog.IsRefused .wrongShape (.ofList (recordFront ++ (notesAgain ++ [':']))) ∧
      Catalog.IsRefused .wrongShape (.ofList (entryFront ++ nameAgain)) := by
  have hblank : ∀ c ∈ [' '], isSpace c = true := List.forall_mem_singleton.2 rfl
  have hrecord : Catalog.LoadsUpTo recordFront := by
    refine loadsUpTo_of_compactText (compactText_recordOfMembers []) ?_
    rw [Catalog.ofText, Page.ofText_compact (by decide)]
    exact ⟨_, rfl⟩
  have hentries : Catalog.LoadsUpTo entryFront := by
    have htext : (recordOfMembers [("Parameters", .array [.object []])]).compactText =
        entryFront ++ '\x7b' :: '\x7d' :: [']', '\x7d', '\x7d', '\x7d'] := by
      rw [compactText_recordOfMembers, entryFront]
      rfl
    refine loadsUpTo_of_compactText htext ?_
    rw [Catalog.ofText, Page.ofText_compact (by decide)]
    exact ⟨_, rfl⟩
  obtain ⟨hdocs, hparameters, hdocsInside, hparametersInside⟩ := repeatedParts_refused
  have hparameter := hparameters hblank givesAgain_nameAgain []
  have hinside := hparametersInside isParameterPlace_entryFront hentries givesAgain_nameAgain []
  rw [List.append_nil] at hparameter hinside
  exact ⟨hdocs (List.forall_mem_nil _) (givesAgain_notesAgain _) ['?'], hparameter,
    hdocsInside isDocstringPlace_recordFront hrecord (givesAgain_notesAgain _) [':'], hinside⟩

end DocTree
