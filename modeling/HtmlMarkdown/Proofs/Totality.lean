import HtmlMarkdown.Markdown
import HtmlMarkdown.Proofs.Balance
import HtmlMarkdown.Proofs.CheckedCounts
import HtmlMarkdown.Proofs.Conversion
import HtmlMarkdown.Proofs.NormalForm
import HtmlMarkdown.Proofs.PositionWalks

/-!
No document makes the conversion fail. Conversion builds a well-formed tree, the passes take the
ordered lists out of it without ever coming to a position that is out of range, what is left can be
laid out with all prefixes in balance, and every margin has its counter when the lines are written.
-/
namespace HtmlMarkdown

open Document Layout

/-- Where no ordered list is left, the tree is laid out and every slot has been given out. -/
theorem Layout.layTree_ok {t : Tree} {F : Forest} (h : t.Spans F)
    (hlists : F.AllKinds fun k => k.name ≠ .orderedList) :
    ∃ draft, layTree t Tree.root = .ok draft ∧ draft.InRange := by
  obtain ⟨draft, hlay, hleads⟩ :=
    layOutline_ok (show Kind.document.name ≠ .orderedList by decide) (layOutlines_ok F hlists) {}
  refine ⟨draft, ?_, hleads.inRange ⟨by simp, by simp⟩⟩
  rw [layTree, h.outline_eq, hlay]

/-- For every document each stage of the conversion succeeds: the tree is built, the passes come
to an end, also if they go through the lists position by position, their outcome is laid out, and
every line is written with a counter at hand for each margin. -/
theorem markdownOfHtml_ok (document : List Html.Node) (options : ConversionOptions) :
    ∃ raw t draft, Tree.rawOfHtml document options = .ok raw ∧
      Tree.normalize (!options.links) raw = .ok () t ∧
      Tree.WalksAll (Tree.passes (!options.links)) raw t ∧
      ((Tree.passesByPositions (!options.links)).forM fun pass => Tree.visit pass Tree.root) raw =
        .ok () t ∧
      layTree t Tree.root = .ok draft ∧ draft.finish? = some draft.finish ∧
      markdownOfHtml document options = .ok draft.finished := by
  obtain ⟨raw, hraw, hspans⟩ := Tree.rawOfHtml_spans document options
  obtain ⟨t, F, hrun, hwalk, hvisit, hF, -⟩ := Tree.normalize_runs hspans (!options.links)
  have hlists := hvisit.noOrderedList (by simp [Forest.topKinds, Kind.name])
  obtain ⟨draft, hlay, hin⟩ := layTree_ok hF hlists.2.1
  have htree : Tree.ofHtml document options = .ok t := by
    simp only [Tree.ofHtml, hraw, bind, Except.bind, hrun]
  have hpositions := Tree.normalize_eq_passesByPositions hspans (!options.links)
  refine ⟨raw, t, draft, hraw, hrun, hwalk, hpositions.trans hrun, hlay, ?_, ?_⟩
  · exact Draft.finish?_eq fun block hb => hin.blocks _ (List.mem_map_of_mem hb)
  · simp only [markdownOfHtml, draftOfHtml, htree, hlay]
    rfl

end HtmlMarkdown
