import HtmlMarkdown.Proofs.Lockstep
import HtmlMarkdown.Proofs.Quotation
import HtmlMarkdown.Proofs.Reading
import HtmlMarkdown.Proofs.TopBlocks

/-!
A document with a block quote around it and the same document without. What is laid out is the
same in both cases, but the quote is an open prefix from the start on, whereas without it the
first text may open an empty prefix that is never closed. So the two drafts are alike but for what
stands outermost in front of their lines.
-/
namespace HtmlMarkdown

open Document Layout

namespace Document.Forest

/-- The passes do the same in the quote as they do without it. -/
theorem Normalized.outlines_quoted {document : List Html.Node} {links : Bool} {F below : Forest}
    (hplain : Normalized document ⟨false, links⟩ F)
    (hquoted : Normalized document ⟨true, links⟩ (.node 1 (.blockquote true) below .nil)) :
    below.outlines = F.outlines := by
  obtain ⟨n, hsteps⟩ := hquoted.steps
  obtain ⟨m, hsteps'⟩ := hplain.steps
  have hmem : ∀ Step ∈ Forest.steps n !links, Step ∈ Forest.steps n !links := fun _ h => h
  have honly : (ofDocument true document).OnlyBlocks := ⟨rfl, trivial⟩
  have hquote := hsteps.below_onlyBlocks hmem honly (by decide)
  have hdocument : VisitedAll (Forest.steps n !links)
      (.node Tree.root .document (ofNodes false 2 document) .nil)
      (.node Tree.root .document below .nil) :=
    hquote.change_node hmem (by decide) (by decide)
  have hraw : (ofNodes false 2 document).outlines = (ofNodes false 1 document).outlines := by
    rw [outlines_ofNodes, outlines_ofNodes]
  have hstart : (Forest.node Tree.root .document (ofNodes false 2 document) .nil).outlines =
      (Forest.node Tree.root .document (ofNodes false 1 document) .nil).outlines := by
    simp only [outlines, hraw]
  have hbreaks : (Forest.node Tree.root .document below .nil).AllKinds (· ≠ .lineBreak) :=
    ⟨by simp, hquoted.noLineBreak.2.1, trivial⟩
  have hend := hdocument.outlines_eq hstart hsteps' hbreaks
  simp only [outlines, List.cons.injEq, Outline.node.injEq, true_and, and_true] at hend
  exact hend

end Document.Forest

namespace Layout

/-- The block that a quote around everything opens. -/
def quoteBlock : Block := { margins := [⟨quoteMark, 0⟩], options := { acceptsTrailers := true } }

/-- Both documents are being laid out. As long as there is no text, the second draft has the block
of the quote in front. A text that comes first is written into that block, and without the quote
into one under the empty prefix. -/
def Draft.Encloses (depth : Nat) (d d' : Draft) : Prop :=
  (d.Grafted [] [⟨quoteMark, 0⟩] [quoteBlock] 1 depth d' ∧
    (d.blocks = [] → d.margins = [] ∧ d.opened = 0)) ∨
  (d.Grafted [implicitMargin] [⟨quoteMark, 0⟩] [] 0 depth d' ∧ d.blocks ≠ [])

namespace Draft.Encloses

variable {depth : Nat} {d d' e : Draft}

theorem start : Encloses 0 {} (({} : Draft).openPrefix quoteMark { acceptsTrailers := true }) := by
  refine Or.inl ⟨⟨⟨[], rfl, rfl, rfl⟩, ⟨[], rfl, .nil⟩, rfl, rfl, rfl⟩, ?_⟩
  exact fun _ => ⟨rfl, rfl⟩

/-- The first text of all. -/
theorem append_first (h : d.Grafted [] [⟨quoteMark, 0⟩] [quoteBlock] 1 depth d')
    (hblocks : d.blocks = []) (hmargins : d.margins = []) (hopened : d.opened = 0) (s : String) :
    (d.append s).Grafted [implicitMargin] [⟨quoteMark, 0⟩] [] 0 depth (d'.append s) := by
  obtain ⟨own, rfl, hown, hmargins'⟩ := h.margins
  obtain ⟨bs, hblocks', hmoved⟩ := h.blocks
  obtain rfl : own = [] := by simpa [hmargins] using hown.symm
  obtain rfl : bs = [] := by simpa [hblocks] using hmoved
  have hd : d.append s = { d with
      margins := [implicitMargin]
      opened := 1
      blocks := [{ margins := [implicitMargin], contents := some ("" ++ s) }] } := by
    simp [Draft.append, Draft.openPrefix, hblocks, hmargins, hopened, onLast, Block.append,
      implicitMargin]
  have hd' : d'.append s = { d' with
      blocks := [{ quoteBlock with contents := some ("" ++ s) }] } := by
    simp [Draft.append, hblocks', onLast, Block.append, quoteBlock]
  rw [hd, hd']
  refine ⟨⟨[], rfl, rfl, hmargins'⟩, ⟨_, rfl, .cons ?_ .nil⟩, ?_, h.hrefs, h.trailers⟩
  · exact ⟨⟨[], rfl, rfl⟩, rfl, rfl, rfl, rfl⟩
  · simp [h.opened, hopened]

end Draft.Encloses

theorem encloses_lockstep : Lockstep Draft.Encloses where
  append {depth d d'} s h := by
    rcases h with ⟨hplain, hfresh⟩ | ⟨himplicit, hne⟩
    · by_cases hblocks : d.blocks = []
      · obtain ⟨hmargins, hopened⟩ := hfresh hblocks
        have hfirst := Draft.Encloses.append_first hplain hblocks hmargins hopened s
        exact Or.inr ⟨hfirst, (Draft.leads_append d s).2⟩
      · refine Or.inl ⟨hplain.append hblocks s, fun hnil => ?_⟩
        exact absurd hnil (Draft.leads_append d s).2
    · exact Or.inr ⟨himplicit.append hne s, (Draft.leads_append d s).2⟩
  openPrefix {depth d d'} p options h := by
    have hne := Draft.blocks_openPrefix_ne d p options
    rcases h with ⟨hplain, -⟩ | ⟨himplicit, -⟩
    · exact Or.inl ⟨hplain.openPrefix p options, fun hnil => absurd hnil hne⟩
    · exact Or.inr ⟨himplicit.openPrefix p options, hne⟩
  closing {depth p d d' e} h hclose := by
    have hne : e.blocks ≠ [] := by
      obtain ⟨left, slot, -, rfl⟩ := Draft.eq_of_closing hclose
      simp
    rcases h with ⟨hplain, -⟩ | ⟨himplicit, -⟩
    · obtain ⟨e', hclose', he⟩ := hplain.closing hclose
      exact ⟨e', hclose', Or.inl ⟨he, fun hnil => absurd hnil hne⟩⟩
    · obtain ⟨e', hclose', he⟩ := himplicit.closing hclose
      exact ⟨e', hclose', Or.inr ⟨he, hne⟩⟩
  reference {depth d d'} href h := by
    rcases h with ⟨hplain, hfresh⟩ | ⟨himplicit, hne⟩
    · obtain ⟨hnumber, hplain'⟩ := hplain.reference href
      refine ⟨hnumber, Or.inl ⟨hplain', ?_⟩⟩
      rw [Draft.reference]
      split <;> exact hfresh
    · obtain ⟨hnumber, himplicit'⟩ := himplicit.reference href
      refine ⟨hnumber, Or.inr ⟨himplicit', ?_⟩⟩
      rw [blocks_reference]
      exact hne

/-- The prefixes of the second list are the mark of a quote and those of the first, where `lead` is
left out. -/
def QuotedMargins (lead ms ms' : List Margin) : Prop :=
  ∃ own, ms = lead ++ own ∧
    ms'.map Margin.linePrefix = quoteMark :: own.map Margin.linePrefix

theorem Shifted.quoted {lead ms ms' : List Margin} {n : Nat}
    (h : Shifted lead [⟨quoteMark, 0⟩] n ms ms') : QuotedMargins lead ms ms' := by
  obtain ⟨own, hms, hms'⟩ := h
  refine ⟨own, hms, ?_⟩
  rw [hms', List.map_append, List.map_map]
  rfl

/-- The blocks that have been given text. -/
def Draft.written (draft : Draft) : List Block := draft.blocks.filter (·.contents.isSome)

namespace Draft

/-- Where the quote is closed, what has been written in both drafts is the same but for it. -/
theorem Encloses.quoted {d d' : Draft} (h : d.Encloses 0 d') :
    (d.margins = [] ∨ d.margins = [implicitMargin]) ∧ d'.margins = [⟨quoteMark, 0⟩] ∧
      List.Forall₂ (Block.Alike (QuotedMargins d.margins)) d.written d'.written ∧
      d'.trailers = d.trailers := by
  have hwritten : ∀ {lead : List Margin} {n : Nat} {bs bs' : List Block},
      List.Forall₂ (Block.Alike (Shifted lead [⟨quoteMark, 0⟩] n)) bs bs' →
      List.Forall₂ (Block.Alike (QuotedMargins lead)) (bs.filter (·.contents.isSome))
        (bs'.filter (·.contents.isSome)) := by
    intro lead n bs bs' hmoved
    have himp : ∀ b b' : Block, b.Alike (Shifted lead [⟨quoteMark, 0⟩] n) b' →
        b.Alike (QuotedMargins lead) b' := fun _ _ h => h.imp Shifted.quoted
    refine List.Forall₂.imp himp (List.rel_filter ?_ hmoved)
    intro b b' hb
    simp only [hb.contents]
  rcases h with ⟨hplain, -⟩ | ⟨himplicit, -⟩
  · obtain ⟨own, hlen, hmargins, hmargins'⟩ := hplain.margins
    obtain ⟨bs, hblocks, hmoved⟩ := hplain.blocks
    obtain rfl := List.length_eq_zero_iff.1 hlen
    refine ⟨Or.inl hmargins, hmargins', ?_, hplain.trailers⟩
    rw [hmargins, written, written, hblocks, List.filter_append]
    exact hwritten hmoved
  · obtain ⟨own, hlen, hmargins, hmargins'⟩ := himplicit.margins
    obtain ⟨bs, hblocks, hmoved⟩ := himplicit.blocks
    obtain rfl := List.length_eq_zero_iff.1 hlen
    refine ⟨Or.inr hmargins, hmargins', ?_, himplicit.trailers⟩
    rw [hmargins, written, written, hblocks]
    exact hwritten hmoved

end Draft
end Layout

/-- Quoting changes only the outermost prefix. The blocks with text are the same with and without
the quote, one by one and in order, but for the mark of the quote in front of their prefixes, and
so are the reference lines. What the draft without the quote still has open at its end is nothing
or the empty prefix that its first text has opened, which the other draft does not have. -/
theorem draftOfHtml_quote (document : List Html.Node) (links : Bool) :
    ∃ plain quoted, draftOfHtml document ⟨false, links⟩ = .ok plain ∧
      draftOfHtml document ⟨true, links⟩ = .ok quoted ∧
      (plain.margins = [] ∨ plain.margins = [implicitMargin]) ∧
      List.Forall₂ (Block.Alike (QuotedMargins plain.margins)) plain.written quoted.written ∧
      quoted.trailers = plain.trailers := by
  obtain ⟨F, hF, hplain⟩ := exists_normalized document ⟨false, links⟩
  obtain ⟨G, hG, hquoted⟩ := exists_normalized document ⟨true, links⟩
  obtain ⟨below, rfl⟩ := hG.quoted
  obtain ⟨plain, hrun, -⟩ := layOutlines_ok F hF.noOrderedList {}
  obtain ⟨d', hrun', hd'⟩ :=
    encloses_lockstep.layOutlines hF.noLineBreak Draft.Encloses.start hrun
  obtain ⟨hlead, hmargins, hwritten, htrailers⟩ := hd'.quoted
  let quoted : Draft := { d' with margins := [], blocks := d'.blocks ++ [{ margins := [] }] }
  have hclose : closing quoteMark d' = .ok quoted := Draft.closing_eq hmargins
  have hquote : layOutline (.node (.blockquote true) below.outlines) {} = .ok quoted := by
    have hblock : blockOf? (.blockquote true) = some (quoteMark, { acceptsTrailers := true }) := rfl
    rw [layOutline_block below.outlines {} hblock, hF.outlines_quoted hG, hrun']
    exact hclose
  refine ⟨plain, quoted, hplain.trans hrun, hquoted.trans ?_, hlead, ?_, htrailers⟩
  · rw [Forest.outlines, Forest.outlines, layOutline_document, layOutlines, hquote]
    rfl
  · have hsame : quoted.written = d'.written := by simp [quoted, Draft.written]
    rw [hsame]
    exact hwritten

end HtmlMarkdown
