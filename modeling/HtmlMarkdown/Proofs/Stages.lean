import HtmlMarkdown.Markdown
import HtmlMarkdown.Proofs.Conversion
import HtmlMarkdown.Proofs.NormalForm
import HtmlMarkdown.Proofs.Outlines

/-!
The stages of a conversion, said of forests. What a document becomes below the root can be read
off the document, the passes change that forest step by step, and the draft is laid out from the
outlines of what is left.
-/
namespace HtmlMarkdown

open Document Layout

/-- The forest that a document becomes, and what the passes make of it, in normal form. -/
structure Document.Forest.Normalized (document : List Html.Node) (options : ConversionOptions)
    (F : Forest) : Prop where
  steps : ∃ n, Forest.VisitedAll (Forest.steps n (!options.links))
    (.node Tree.root .document (Forest.ofDocument options.quote document) .nil)
    (.node Tree.root .document F .nil)
  separators : F.SeparatorsChildless

namespace Document.Forest.Normalized

variable {document : List Html.Node} {options : ConversionOptions} {F : Forest}

theorem rewrites (h : Normalized document options F) :
    ∃ n, Rewrites n (ofDocument options.quote document) F := by
  obtain ⟨n, hsteps⟩ := h.steps
  obtain ⟨G, hG, hrewrites⟩ := hsteps.rewrites_steps.below_document
  obtain rfl : F = G := by simpa using hG
  exact ⟨n, hrewrites⟩

theorem noOrderedList (h : Normalized document options F) :
    F.AllKinds fun k => k.name ≠ .orderedList := by
  obtain ⟨n, hsteps⟩ := h.steps
  exact (hsteps.noOrderedList (by simp [topKinds, Kind.name])).2.1

theorem noLineBreak (h : Normalized document options F) : F.AllKinds (· ≠ .lineBreak) := by
  obtain ⟨n, hsteps⟩ := h.steps
  exact (hsteps.noLineBreak (by simp [topKinds])).2.1

theorem noLink (h : Normalized document options F) (hlinks : options.links = false) :
    F.AllKinds fun k => k.name ≠ .link := by
  obtain ⟨n, hsteps⟩ := h.steps
  rw [hlinks] at hsteps
  exact (hsteps.noLink (by simp [topKinds, Kind.name])).2.1

theorem noDash (h : Normalized document options F) : F.AllTexts NoDash := by
  obtain ⟨n, hsteps⟩ := h.steps
  exact (hsteps.noDash (by simp [children])).1

theorem joined (h : Normalized document options F) : NoNeighbouringTexts F.children ∧
    F.Everywhere fun _ below => NoNeighbouringTexts below.children := by
  obtain ⟨n, hsteps⟩ := h.steps
  exact ⟨hsteps.joined.1, hsteps.joined.2.1⟩

end Document.Forest.Normalized

/-- Every document is converted, and its draft is laid out from a forest in normal form. -/
theorem exists_normalized (document : List Html.Node) (options : ConversionOptions) :
    ∃ F, Forest.Normalized document options F ∧
      draftOfHtml document options = layOutline (.node .document F.outlines) {} := by
  obtain ⟨raw, hraw, hspans⟩ := Tree.rawOfHtml_spans document options
  obtain ⟨t, F, hrun, -, hvisit, hF, -⟩ := Tree.normalize_runs hspans (!options.links)
  have htree : Tree.ofHtml document options = .ok t := by
    simp only [Tree.ofHtml, hraw, bind, Except.bind, hrun]
  refine ⟨F, ⟨⟨raw.size, hvisit⟩, hF.separators⟩, ?_⟩
  simp only [draftOfHtml, htree, layTree, hF.outline_eq]

end HtmlMarkdown
