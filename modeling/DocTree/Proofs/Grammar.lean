/-
# The grammar of documents

What a document looks like (`Grammar.Document`): blocks of prose, and headings, each with an
anchor before it or not and with a list of terms and descriptions below it or not.  Every part
of a catalog is rendered to a document of this form (`grammar_render`), and nothing in it that
is shown as running text is empty.
-/

import DocTree.Proofs.Contents
import DocTree.Proofs.Markup.Block
import DocTree.Proofs.Markup.Inline
import DocTree.Selection

namespace DocTree
namespace Grammar

/-- A piece of a paragraph: text, code, emphasised text, or a link into the document that
shows a text.  None of the texts is empty. -/
inductive Inline : Node → Prop
  | text {value : String} (h : value ≠ "") : Inline (.text value)
  | code {value : String} (h : value ≠ "") : Inline (.inlineCode value)
  | emphasis {value : String} (h : value ≠ "") : Inline (.emphasis [.text value])
  | link {value : String} (label : String) (h : value ≠ "") :
      Inline (.link ("#" ++ label) [.text value])

/-- A paragraph of at least one piece. -/
inductive Paragraph : Node → Prop
  | mk {children : List Node} (hne : children ≠ []) (h : ∀ node ∈ children, Inline node) :
      Paragraph (.paragraph children)

/-- A block of prose: a paragraph, a block of code, or a note of one paragraph. -/
inductive Block : Node → Prop
  | paragraph {node : Node} (h : Paragraph node) : Block node
  | code (lang value : String) : Block (.code lang value)
  | note {node : Node} (h : Paragraph node) : Block (.admonition "note" [node])

/-- A term: a text, and after it another one, emphasised and not empty, or nothing. -/
inductive Term : Node → Prop
  | plain (name : String) : Term (.definitionTerm [.text name])
  | typed (name : String) {type : String} (h : type ≠ "") :
      Term (.definitionTerm [.text name, .text " : ", .emphasis [.text type]])

/-- Terms and descriptions in turn. -/
inductive Entries : List Node → Prop
  | nil : Entries []
  | entry {term : Node} {description nodes : List Node} (hterm : Term term)
      (hdescription : ∀ node ∈ description, Block node) (hnodes : Entries nodes) :
      Entries (term :: .definitionDescription description :: nodes)

/-- A document: blocks and headings, one after the other.  A heading may have an anchor right
before it, and a list of at least one term right after it. -/
inductive Document : List Node → Prop
  | nil : Document []
  | block {node : Node} {nodes : List Node} (h : Block node) (hnodes : Document nodes) :
      Document (node :: nodes)
  | heading (depth : UInt64) (title : String) {nodes : List Node} (hnodes : Document nodes) :
      Document (.heading depth [.text title] :: nodes)
  | anchored (label : String) (depth : UInt64) (title : String) {nodes : List Node}
      (hnodes : Document nodes) :
      Document (.target label :: .heading depth [.text title] :: nodes)
  | list (depth : UInt64) (title : String) {entries nodes : List Node} (hne : entries ≠ [])
      (hentries : Entries entries) (hnodes : Document nodes) :
      Document (.heading depth [.text title] :: .definitionList entries :: nodes)

/-! ### Documents put together -/

theorem Document.append {ms ns : List Node} (hm : Document ms) (hn : Document ns) :
    Document (ms ++ ns) := by
  induction hm with
  | nil => exact hn
  | block h _ ih => exact .block h ih
  | heading depth title _ ih => exact .heading depth title ih
  | anchored label depth title _ ih => exact .anchored label depth title ih
  | list depth title hne hentries _ ih => exact .list depth title hne hentries ih

theorem Document.flatMap {α : Type} {f : α → List Node} (h : ∀ x, Document (f x)) (xs : List α) :
    Document (xs.flatMap f) := by
  induction xs with
  | nil => exact .nil
  | cons x xs ih => exact (h x).append ih

theorem Document.of_blocks {nodes : List Node} (h : ∀ node ∈ nodes, Block node) :
    Document nodes := by
  induction nodes with
  | nil => exact .nil
  | cons node nodes ih =>
    exact .block (h node (List.mem_cons_self ..)) (ih fun n hn => h n (List.mem_cons_of_mem _ hn))

theorem Document.optional {α : Type} {f : α → List Node} (h : ∀ x, Document (f x))
    (x? : Option α) : Document ((x?.map f).getD []) := by
  cases x? with
  | none => exact .nil
  | some x => exact h x

/-! ### Prose -/

theorem inline_span {span : Markup.Span} (h : span.content ≠ []) : Inline span.toNode := by
  have hcontent : String.ofList span.content ≠ "" := mt String.ofList_eq_empty_iff.1 h
  cases span with
  | plain text => exact .text hcontent
  | reference name => exact .link _ hcontent
  | code doubled text => exact .code hcontent
  | emphasis text => exact .emphasis hcontent

theorem paragraph_inlineNodes {cs : List Char} (h : cs ≠ []) :
    Paragraph (.paragraph (Markup.inlineNodes cs)) := by
  refine .mk (fun hnil => Markup.spans_ne_nil h (List.map_eq_nil_iff.1 hnil)) fun node hnode => ?_
  obtain ⟨span, hspan, rfl⟩ := List.mem_map.1 hnode
  exact inline_span (Markup.content_ne_nil_of_mem_spans hspan)

theorem paragraph_text {value : String} (h : value ≠ "") : Paragraph (.paragraph [.text value]) :=
  .mk (List.cons_ne_nil _ _) fun _ hnode => List.mem_singleton.1 hnode ▸ .text h

theorem block_note (change : VersionChange) (version : String) :
    Block (change.note version) := by
  have hremark : change.verb ++ " in Version " ++ version ≠ "" := by
    cases change <;> simp [VersionChange.verb]
  exact .note (paragraph_text hremark)

theorem block_fencedBlock (info body : List Char) : Block (Markup.fencedBlock info body) := by
  rw [Markup.fencedBlock]
  split
  · split
    · exact block_note _ _
    · exact .code _ _
  · exact .code _ _

theorem block_toNode {block : Markup.Block} (h : block.IsShown) : Block block.toNode := by
  cases block with
  | paragraph lines => exact .paragraph (paragraph_inlineNodes (Text.joinLines_ne_nil h.1 h.2))
  | fenced info body => exact block_fencedBlock info (Text.joinLines body)

/-- **Prose is made of blocks.** -/
theorem block_of_mem_parse {source : String} {node : Node}
    (h : node ∈ (Markup.parse source).children) : Block node := by
  obtain ⟨block, hblock, rfl⟩ := List.mem_map.1 h
  exact block_toNode (Markup.isShown_of_mem_blocks hblock)

theorem document_parse (source : String) : Document (Markup.parse source).children :=
  .of_blocks fun _ => block_of_mem_parse

/-! ### Sections -/

theorem term_shownTerm (p : Parameter) : Term p.shownTerm := by
  rw [Parameter.shownTerm]
  split
  · exact .plain p.type
  · split
    · exact .plain p.name
    · next htype => exact .typed p.name htype

theorem entries_parameters (list : List Parameter) :
    Entries (list.flatMap (Parameter.render Markup.parse)) := by
  induction list with
  | nil => exact .nil
  | cons p list ih =>
    have hterm : Term p.term := p.term_eq_shownTerm ▸ term_shownTerm p
    exact .entry hterm (fun _ => block_of_mem_parse) ih

theorem document_renderList (title : String) (list : List Parameter) (ctx : Context) :
    Document (Parameter.renderList title list Markup.parse ctx) := by
  rw [Parameter.renderList]
  split
  · exact .nil
  · next hlist =>
    cases list with
    | nil => exact absurd rfl hlist
    | cons p list =>
      exact .list ctx.depth title (List.cons_ne_nil _ _) (entries_parameters (p :: list)) .nil

theorem document_renderTitled (title text : String) (depth : UInt64) :
    Document (renderTitled title text Markup.parse depth) :=
  .heading depth title (document_parse text)

theorem document_renderExamples (lines : List String) (depth : UInt64) :
    Document (renderExamples lines depth) := by
  rw [renderExamples]
  split
  · exact .nil
  · exact .heading depth "Examples" (.block (.code _ _) .nil)

theorem inline_link {entry : SeeAlso.Entry} (h : entry.shown ≠ "") {ctx : Context} {node : Node}
    (hlink : SeeAlso.link? ctx entry = some node) : Inline node := by
  cases entry with
  | text text => cases hlink
  | reference name qualified => exact Option.some.inj hlink ▸ .link _ h

theorem paragraph_links {value : Json} {ctx : Context}
    (h : (SeeAlso.entries value).filterMap (SeeAlso.link? ctx) ≠ []) :
    Paragraph (.paragraph
      (((SeeAlso.entries value).filterMap (SeeAlso.link? ctx)).intersperse (.text ", "))) := by
  obtain ⟨first, hfirst⟩ := List.exists_mem_of_ne_nil _ h
  refine .mk (List.ne_nil_of_mem (SeeAlso.mem_intersperse _ hfirst)) fun node hnode => ?_
  rcases SeeAlso.eq_or_mem_of_mem_intersperse hnode with rfl | hnode
  · exact .text (by decide)
  · obtain ⟨entry, hentry, hlink⟩ := List.mem_filterMap.1 hnode
    exact inline_link (SeeAlso.shown_ne_empty hentry) hlink

theorem document_seeAlso (value : Json) (ctx : Context) :
    Document (SeeAlso.render value ctx) := by
  by_cases h : SeeAlso.entries value = []
  · rw [SeeAlso.render_of_nil h]
    exact .nil
  · rw [SeeAlso.render_of_ne_nil h]
    refine .heading _ "See Also" (.append ?_ ?_)
    · split
      · exact .nil
      · next hlinks => exact .block (.paragraph (paragraph_links hlinks)) .nil
    · split
      · exact .nil
      · next htexts =>
        have hremarks := mt (SeeAlso.intercalate_texts_eq_empty_iff value).1 htexts
        exact .block (.paragraph (paragraph_text hremarks)) .nil

theorem document_renderSection (name : String) (doc : Docstring) (ctx : Context)
    (part : Section) : Document (doc.renderSection name Markup.parse ctx part) := by
  cases part with
  | summary => exact .optional (fun lines => document_parse (summaryText lines)) doc.summary
  | extendedSummary => exact .optional document_parse doc.extendedSummary
  | group g => exact .optional (fun list => document_renderList g.title list _) (doc.group g)
  | notes => exact .optional (fun text => document_renderTitled _ text _) doc.notes
  | references => exact .optional (fun lines => document_renderTitled _ _ _) doc.references
  | examples => exact .optional (fun lines => document_renderExamples lines _) doc.examples
  | seeAlso => exact .optional (fun value => document_seeAlso value ctx) doc.seeAlso

/-! ### Functions, submodules and catalogs -/

theorem document_function (name : String) (doc : Docstring) (ctx : Context) :
    Document (doc.render name Markup.parse ctx) :=
  .anchored _ ctx.depth name (.flatMap (document_renderSection name doc ctx) Section.all)

theorem document_renderSubmodule (name : String) (functions : Submodule) (ctx : Context) :
    Document (renderSubmodule name functions Markup.parse ctx) :=
  .anchored _ ctx.depth name
    (.flatMap (fun entry => document_function entry.1 entry.2 _) functions.entries)

theorem document_renderCatalog (catalog : Catalog) (ctx : Context) :
    Document (renderCatalog catalog Markup.parse ctx) := by
  rw [renderCatalog]
  exact .flatMap (fun entry => document_renderSubmodule entry.1 entry.2 ctx) catalog.entries

end Grammar

/-- **Every part of a catalog is rendered to a document of the grammar,** whatever is asked
for and in whatever context, if its prose is markup. -/
theorem grammar_render (catalog : Catalog) (target? : Option String) (ctx : Context) :
    Grammar.Document (catalog.render target? Markup.parse ctx) := by
  rw [Catalog.render]
  cases catalog.select target? with
  | whole => exact Grammar.document_renderCatalog catalog ctx
  | submodule name functions => exact Grammar.document_renderSubmodule name functions ctx
  | function submodule name doc => exact Grammar.document_function name doc _

end DocTree
