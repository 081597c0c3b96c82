/-
# The first fault counts

A record is read from its front, so what is wrong with a value in it is what is wrong with the
record, if there is nothing wrong in front of the value: whatever comes behind it does not matter
(`PassesFaults.decode`).  It is so with the docstrings of a record
(`Catalog.passesFaults_docstring`) and with the entries of their parameter lists
(`Catalog.passesFaults_parameter`).
-/

import DocTree.Proofs.Damaged
import DocTree.Proofs.Json.Key

namespace DocTree

open Json (Draft Fault Damage Frame HasInside Page State bind_eq_ok_iff keepText)

variable {α β γ : Type}

/-- Whether the faults of a value inside of frames are those of the whole.  If the whole can be
read then so can a value in it, and with a value in its place that cannot be read the whole cannot
be read either, for the same reason and whatever follows. -/
def PassesFaults (outer : List Frame) (read : Draft → Except Fault α)
    (readWhole : Draft → Except Fault β) : Prop :=
  ∀ ⦃inner : Draft → Prop⦄ ⦃whole : Draft⦄ ⦃result : β⦄, HasInside outer inner whole →
    readWhole whole = .ok result → (∃ value part, inner value ∧ read value = .ok part) ∧
      ∀ ⦃whole' : Draft⦄ ⦃fault : Fault⦄,
        HasInside outer (fun value => read value = .error fault) whole' →
          readWhole whole' = .error fault

namespace PassesFaults

variable {outer : List Frame} {frame : Frame} {read : Draft → Except Fault α}
  {readWhole : Draft → Except Fault β}

theorem refl (read : Draft → Except Fault α) : PassesFaults [] read read :=
  fun _ whole result hinner hread => ⟨⟨whole, result, hinner, hread⟩, fun _ _ hfault => hfault⟩

/-- What is done with the whole when it is read does not matter. -/
theorem bind (h : PassesFaults outer read readWhole) (finish : β → Except Fault γ) :
    PassesFaults outer read (fun value => readWhole value >>= finish) := by
  intro inner whole result hinside hread
  obtain ⟨part, hpart, -⟩ := bind_eq_ok_iff.1 hread
  obtain ⟨hvalue, hfaults⟩ := h hinside hpart
  refine ⟨hvalue, fun whole' fault hfault => ?_⟩
  show readWhole whole' >>= finish = _
  rw [hfaults hfault]
  rfl

/-- Faults go from one frame to the next. -/
theorem cons {readMiddle : Draft → Except Fault γ} (h : PassesFaults [frame] read readMiddle)
    (houter : PassesFaults outer readMiddle readWhole) :
    PassesFaults (frame :: outer) read readWhole := by
  have hinside (inner : Draft → Prop) :
      HasInside (frame :: outer) inner = HasInside outer (HasInside [frame] inner) := by
    cases frame <;> rfl
  intro inner whole result hwhole hread
  rw [hinside] at hwhole
  obtain ⟨⟨middle, part, hmiddle, hpart⟩, hfaults⟩ := houter hwhole hread
  obtain ⟨hvalue, hmiddleFaults⟩ := h hmiddle hpart
  refine ⟨hvalue, fun whole' fault hfault => hfaults ?_⟩
  rw [hinside] at hfault
  exact hfault.mono fun _ hvalue' => hmiddleFaults hvalue'

section Steps

variable {σ τ : Type} {step : σ → τ → Except Fault σ} {start : σ} {front more : List τ} {x : τ}

theorem exists_of_foldlM {result : σ}
    (h : (front ++ x :: more).foldlM step start = .ok result) :
    ∃ sofar next, front.foldlM step start = .ok sofar ∧ step sofar x = .ok next := by
  rw [List.foldlM_append, bind_eq_ok_iff] at h
  obtain ⟨sofar, hsofar, h⟩ := h
  rw [List.foldlM_cons, bind_eq_ok_iff] at h
  obtain ⟨next, hnext, -⟩ := h
  exact ⟨sofar, next, hsofar, hnext⟩

theorem foldlM_eq_error {sofar : σ} {fault : Fault} (hfront : front.foldlM step start = .ok sofar)
    (hstep : step sofar x = .error fault) (more : List τ) :
    (front ++ x :: more).foldlM step start = .error fault := by
  rw [List.foldlM_append, hfront]
  show List.foldlM step sofar (x :: more) = _
  rw [List.foldlM_cons, hstep]
  rfl

/-- **A whole that is read step by step passes the faults of its steps.** -/
theorem foldlM (wrap : Draft → τ) (build : List τ → Option Damage → Draft)
    (hframe : ∀ {inner whole}, HasInside [frame] inner whole →
      ∃ value more damage?, inner value ∧ whole = build (front ++ wrap value :: more) damage?)
    {finish : Option Damage → σ → Except Fault β}
    (hwhole : ∀ steps damage?,
      readWhole (build steps damage?) = steps.foldlM step start >>= finish damage?)
    (hstep : ∀ sofar, front.foldlM step start = .ok sofar →
      PassesFaults [] read fun value => step sofar (wrap value)) :
    PassesFaults [frame] read readWhole := by
  intro inner whole result hinside hread
  obtain ⟨value, more, damage?, hvalue, rfl⟩ := hframe hinside
  rw [hwhole, bind_eq_ok_iff] at hread
  obtain ⟨_, hsteps, -⟩ := hread
  obtain ⟨sofar, next, hfront, hnext⟩ := exists_of_foldlM hsteps
  obtain ⟨hpart, hfaults⟩ := hstep sofar hfront hvalue hnext
  refine ⟨hpart, fun whole' fault hfault => ?_⟩
  obtain ⟨value', more', damage?', hvalue', rfl⟩ := hframe hfault
  rw [hwhole, foldlM_eq_error hfront (hfaults hvalue')]
  rfl

end Steps

/-- **What is wrong with a value is wrong with a text,** if a text with an empty object in its place
can go on so that it is read. -/
theorem decode (h : PassesFaults outer read readWhole) {front : List Char}
    (hplace : (State.run (.expectValue []) front).Awaits outer)
    (hgood : ∃ tail result,
      (Page.ofText (front ++ '\x7b' :: '\x7d' :: tail)).decode readWhole = .ok result)
    {page : Page} {fault : Fault}
    (hbad : HasInside outer (fun value => read value = .error fault) page.value) :
    page.decode readWhole = .error fault := by
  obtain ⟨tail, result, hgood⟩ := hgood
  have hread := (Page.decode_eq_ok_iff.1 hgood).1
  have hempty : State.run (.firstKey outer) ('\x7d' :: tail) =
      State.run (State.deliver (.object [] none) outer) tail := rfl
  rw [Page.ofText, State.run_append, hplace.run_brace, hempty] at hread
  have hinside := (State.mayHold_run (State.deliver (.object [] none) outer) tail).of_deliver
  rw [Page.decode, (h hinside hread).2 hbad]
  rfl

end PassesFaults

/-! ### The parts of a record -/

theorem Listing.passesFaults (read : Draft → Except Fault α) (frame : Frame) :
    PassesFaults [frame] read (Listing.ofDraft read) := by
  cases frame with
  | item items =>
    rintro inner _ result ⟨value, more, damage?, -, rfl⟩ hread
    cases hread
  | member members key =>
    refine PassesFaults.foldlM (key, ·) Draft.object id
      (fun steps damage? => by rw [ofDraft, readMembers_eq_foldlM]) fun sofar _ => ?_
    cases key with
    | none =>
      intro inner whole result _ hread
      cases hread
    | some name => exact (PassesFaults.refl read).bind fun thing => .ok (sofar.insert name thing)

namespace Layout

variable {κ : Type} {layout : Layout α κ} {part : κ} {read : Draft → Except Fault β}

/-- The part that a value in a frame is read as. -/
def partAt? (layout : Layout α κ) : Frame → Option κ
  | .item items => layout.parts[items.length]?
  | .member _ key => key.bind layout.ofKey?

/-- By position the parts are read in turn. -/
theorem parts_of_foldlM_readItem {items : List Draft} {whole : α} {parts : List κ}
    {sofar : α × List κ} (h : items.foldlM layout.readItem (whole, parts) = .ok sofar) :
    sofar.2 = parts.drop items.length := by
  induction items generalizing whole parts with
  | nil =>
    obtain rfl := Except.ok.inj h
    rfl
  | cons item items ih =>
    rw [List.foldlM_cons, bind_eq_ok_iff] at h
    obtain ⟨_, hnext, h⟩ := h
    cases parts with
    | nil => cases hnext
    | cons part parts =>
      obtain ⟨next, -, hnext⟩ := bind_eq_ok_iff.1 hnext
      obtain rfl := Except.ok.inj hnext
      exact ih h

/-- **The faults of a part are those of the structure.** -/
theorem passesFaults [DecidableEq κ] {frame : Frame} (hframe : layout.partAt? frame = some part)
    (hpart : ∀ whole, PassesFaults [] read (layout.readPart whole part)) (start : α) :
    PassesFaults [frame] read (layout.read start) := by
  cases frame with
  | item items =>
    refine PassesFaults.foldlM id Draft.array id
      (fun steps damage? => by rw [Layout.read, readItems_eq_foldlM, bind_map_left]) ?_
    rintro ⟨whole, parts⟩ hsofar
    obtain ⟨hlength, rfl⟩ := List.getElem?_eq_some_iff.1 hframe
    obtain rfl : parts = layout.parts.drop items.length := by
      rw [← List.length_reverse]
      exact parts_of_foldlM_readItem hsofar
    have hstep (value : Draft) : layout.readItem (whole, layout.parts.drop items.length) value =
        layout.readPart whole layout.parts[items.length] value >>= fun next =>
          .ok (next, layout.parts.drop (items.length + 1)) := by
      rw [List.drop_eq_getElem_cons hlength]
      rfl
    simp only [id, hstep]
    exact (hpart whole).bind _
  | member members key =>
    obtain ⟨name, rfl, hname⟩ := Option.bind_eq_some_iff.1 hframe
    refine PassesFaults.foldlM (some name, ·) Draft.object id
      (fun steps damage? => by rw [Layout.read, readMembers_eq_foldlM, bind_map_left]) ?_
    rintro ⟨whole, seen⟩ -
    have hstep (value : Draft) : layout.readMember (whole, seen) (some name, value) =
        if part ∈ seen then .error .wrongShape
        else layout.readPart whole part value >>= fun next => .ok (next, part :: seen) := by
      simp only [readMember, keepText, bind, Except.bind, hname]
      rfl
    simp only [hstep]
    split
    · intro inner value next _ hnext
      cases hnext
    · exact (hpart whole).bind _

end Layout

theorem Parameter.passesFaults_listOfDraft (frame : Frame) :
    PassesFaults [frame] ofDraft listOfDraft := by
  cases frame with
  | item items =>
    refine PassesFaults.foldlM id Draft.array id (fun steps damage? => by
      rw [listOfDraft, listOfDrafts_eq_mapM, List.mapM_eq_reverse_foldlM_cons, bind_map_left]) ?_
    exact fun sofar _ => (PassesFaults.refl ofDraft).bind _
  | member members key =>
    rintro inner _ result ⟨value, more, damage?, -, rfl⟩ hread
    cases hread

theorem Docstring.passesFaults_group {depth : Nat} {frame : Frame} {g : Group}
    (hframe : (layout depth).partAt? frame = some (.group g)) :
    PassesFaults [frame] Parameter.listOfDraft (ofDraft depth) :=
  Layout.passesFaults hframe (fun _ => (PassesFaults.refl Parameter.listOfDraft).bind _) {}

/-- **The faults of a docstring are those of the record.** -/
theorem Catalog.passesFaults_docstring (depth : Nat) (functions submodules : Frame) :
    PassesFaults [functions, submodules] (Docstring.ofDraft depth)
      (Listing.ofDraft (Listing.ofDraft (Docstring.ofDraft depth))) :=
  (Listing.passesFaults _ functions).cons (Listing.passesFaults _ submodules)

/-- **The faults of an entry of a parameter list are those of the record.** -/
theorem Catalog.passesFaults_parameter {depth : Nat} {sections : Frame} {g : Group}
    (hsections : (Docstring.layout depth).partAt? sections = some (.group g))
    (entries functions submodules : Frame) :
    PassesFaults [entries, sections, functions, submodules] Parameter.ofDraft
      (Listing.ofDraft (Listing.ofDraft (Docstring.ofDraft depth))) :=
  (Parameter.passesFaults_listOfDraft entries).cons
    ((Docstring.passesFaults_group hsections).cons
      (Catalog.passesFaults_docstring depth functions submodules))

end DocTree
