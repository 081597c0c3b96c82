import DocTree.Main
import DocTree.Proofs.Anchor
import DocTree.Proofs.Outline
import DocTree.Proofs.Record
import DocTree.Proofs.Selection
import DocTree.Proofs.Label
import DocTree.Proofs.Contents
import DocTree.Proofs.Dependence
import DocTree.Proofs.Distinct
import DocTree.Proofs.Relocation
import DocTree.Proofs.Terms
import DocTree.Proofs.Unpopulated
import DocTree.Proofs.Markup.Block
import DocTree.Proofs.Markup.Inline
import DocTree.Proofs.Grammar
import DocTree.Proofs.Json.Alike
import DocTree.Proofs.Json.Numeral
import DocTree.Proofs.Json.Object
import DocTree.Proofs.Json.Visible
import DocTree.Proofs.Node.Json
import DocTree.Proofs.Disk
import DocTree.Proofs.Written
import DocTree.Proofs.Program
import DocTree.Proofs.Alike
import DocTree.Proofs.Json.Member
import DocTree.Proofs.Markup.Reading
import DocTree.Proofs.Outcome
import DocTree.Proofs.Damaged
import DocTree.Proofs.Text.Blank
import DocTree.Proofs.Text.Line
import DocTree.Proofs.Markup.Grouping
import DocTree.Proofs.Markup.Composition
import DocTree.Proofs.SeeAlso.Strings
import DocTree.Proofs.Address
import DocTree.Proofs.SeeAlso.Items
import DocTree.Proofs.SeeAlso.Paragraphs
import DocTree.Proofs.Repeated
import DocTree.Proofs.Positional
import DocTree.Proofs.Loose
import DocTree.Proofs.Duplicate
import DocTree.Proofs.Context.Steps
import DocTree.Proofs.Markup.LineEnds
import DocTree.Proofs.Markup.Info
import DocTree.Proofs.Summary
