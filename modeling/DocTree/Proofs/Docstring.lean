/-
# The parts of entries and docstrings

An entry of a parameter list is determined by its parts and a docstring by its sections
(`Parameter.eq_of_sameAt`, `Docstring.eq_of_sameAt`), and a key of a record names a part or
section exactly when it is one of its names (`Section.ofKey?_eq_some_iff`).
-/

import DocTree.Record

namespace DocTree
namespace Parameter

/-- One part of the entry. -/
def text (p : Parameter) : Part → String
  | .name => p.name
  | .type => p.type
  | .description => p.description

/-- Whether two entries have the same text as one of their parts. -/
def SameAt (part : Part) (p q : Parameter) : Prop :=
  p.text part = q.text part

theorem eq_of_sameAt {p q : Parameter} (h : ∀ part, SameAt part p q) : p = q := by
  have hname : p.name = q.name := h .name
  have htype : p.type = q.type := h .type
  have hdescription : p.description = q.description := h .description
  cases p
  simp_all

theorem text_set (p : Parameter) (part : Part) (s : String) : (p.set part s).text part = s := by
  cases part <;> rfl

theorem text_set_of_ne (p : Parameter) {part other : Part} (h : other ≠ part) (s : String) :
    (p.set part s).text other = p.text other := by
  cases part <;> cases other <;> first | rfl | exact absurd rfl h

theorem Part.ofKey?_eq_some_iff {key : String} {part : Part} :
    Part.ofKey? key = some part ↔ key = part.key := by
  constructor
  · intro h
    have hkey := List.find?_some h
    exact (of_decide_eq_true hkey).symm
  · rintro rfl
    cases part <;> rfl

end Parameter

namespace Section

/-- Whether a key is one of the two names of the section. -/
def IsKey (part : Section) (key : String) : Prop :=
  key = part.title ∨ key = part.plainName

instance (part : Section) (key : String) : Decidable (part.IsKey key) :=
  inferInstanceAs (Decidable (_ ∨ _))

theorem ofKey?_eq_some_iff {key : String} {part : Section} :
    ofKey? key = some part ↔ part.IsKey key := by
  constructor
  · intro h
    have hkey := List.find?_some h
    rw [Bool.or_eq_true, decide_eq_true_eq, decide_eq_true_eq] at hkey
    exact hkey.imp Eq.symm Eq.symm
  · rintro (rfl | rfl)
    · cases part with
      | group g => cases g <;> rfl
      | _ => rfl
    · cases part with
      | group g => cases g <;> rfl
      | _ => rfl

theorem mem_all (part : Section) : part ∈ all := by
  cases part with
  | group g => cases g <;> decide
  | _ => decide

end Section

namespace Docstring

/-- Whether two docstrings have the same section, or both lack it. -/
def SameAt (part : Section) (doc other : Docstring) : Prop :=
  match part with
  | .summary => doc.summary = other.summary
  | .extendedSummary => doc.extendedSummary = other.extendedSummary
  | .group g => doc.group g = other.group g
  | .notes => doc.notes = other.notes
  | .references => doc.references = other.references
  | .examples => doc.examples = other.examples
  | .seeAlso => doc.seeAlso = other.seeAlso

theorem eq_of_sameAt {doc other : Docstring} (h : ∀ part, SameAt part doc other) :
    doc = other := by
  have hgroup (g : Group) : doc.group g = other.group g := h (.group g)
  have hsummary := h .summary
  have hextended := h .extendedSummary
  have hnotes := h .notes
  have hreferences := h .references
  have hexamples := h .examples
  have hseeAlso := h .seeAlso
  have hparameters := hgroup .parameters
  have hotherParameters := hgroup .otherParameters
  have hreturns := hgroup .returns
  have hyields := hgroup .yields
  have hreceives := hgroup .receives
  have hraises := hgroup .raises
  have hwarns := hgroup .warns
  have hattributes := hgroup .attributes
  simp only [SameAt, group] at *
  cases doc
  simp_all

/-- The docstring with one section as another docstring has it. -/
def withSection (doc : Docstring) (part : Section) (other : Docstring) : Docstring :=
  match part with
  | .summary => { doc with summary := other.summary }
  | .extendedSummary => { doc with extendedSummary := other.extendedSummary }
  | .group g => doc.setGroup g (other.group g)
  | .notes => { doc with notes := other.notes }
  | .references => { doc with references := other.references }
  | .examples => { doc with examples := other.examples }
  | .seeAlso => { doc with seeAlso := other.seeAlso }

theorem sameAt_withSection (doc : Docstring) (part : Section) (other : Docstring) :
    SameAt part (doc.withSection part other) other := by
  cases part with
  | group g => cases g <;> rfl
  | _ => rfl

theorem sameAt_withSection_of_ne (doc : Docstring) {part part' : Section} (h : part' ≠ part)
    (other : Docstring) : SameAt part' (doc.withSection part other) doc := by
  cases part with
  | group g =>
    cases part' with
    | group g' => cases g <;> cases g' <;> first | rfl | exact absurd rfl h
    | _ => cases g <;> rfl
  | _ => cases part' <;> first | rfl | exact absurd rfl h

theorem withSection_self (doc : Docstring) (part : Section) : doc.withSection part doc = doc := by
  cases part with
  | group g => cases g <;> rfl
  | _ => rfl

theorem SameAt.refl (part : Section) (doc : Docstring) : SameAt part doc doc := by
  cases part <;> rfl

theorem SameAt.symm {part : Section} {doc other : Docstring} (h : SameAt part doc other) :
    SameAt part other doc := by
  cases part <;> exact Eq.symm h

theorem SameAt.trans {part : Section} {doc other third : Docstring} (h : SameAt part doc other)
    (h' : SameAt part other third) : SameAt part doc third := by
  cases part <;> exact Eq.trans h h'

/-- Different sections can be replaced in either order. -/
theorem withSection_comm (doc first second : Docstring) {part part' : Section} (h : part ≠ part') :
    (doc.withSection part first).withSection part' second =
      (doc.withSection part' second).withSection part first := by
  refine eq_of_sameAt fun other => ?_
  by_cases hpart : other = part
  · subst hpart
    have hleft := sameAt_withSection_of_ne (doc.withSection other first) h second
    have hright := sameAt_withSection (doc.withSection part' second) other first
    exact (hleft.trans (sameAt_withSection doc other first)).trans hright.symm
  · have hright := sameAt_withSection_of_ne (doc.withSection part' second) hpart first
    by_cases hpart' : other = part'
    · subst hpart'
      have hleft := sameAt_withSection (doc.withSection part first) other second
      exact hleft.trans (hright.trans (sameAt_withSection doc other second)).symm
    · have hleft := sameAt_withSection_of_ne (doc.withSection part first) hpart' second
      have hfirst := sameAt_withSection_of_ne doc hpart first
      have hsecond := sameAt_withSection_of_ne doc hpart' second
      exact (hleft.trans hfirst).trans (hright.trans hsecond).symm

/-- Two docstrings without a section agree on it. -/
theorem sameAt_of_has_eq_false {doc other : Docstring} {part : Section} (h : doc.has part = false)
    (hother : other.has part = false) : SameAt part doc other := by
  cases part <;> simp_all [SameAt, has]

end Docstring
end DocTree
