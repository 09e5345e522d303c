import HtmlMarkdown.Proofs.PageParts
import HtmlMarkdown.Proofs.SpacedPage
import HtmlMarkdown.Proofs.TopBlocks

/-!
Documents behind each other. If both consist of block-level elements and hold no links, the second
comes into normal form, is laid out and is written as if the first were not there. Only the line
between the two is new.
-/
namespace HtmlMarkdown

open Document Layout

namespace Html

/-- An element that becomes a block of its own. -/
def Node.StandsAlone : Node → Prop
  | .element _ tag _ _ => tag.map Char.toUpper ∈ blockTags ++ ["DL", "DT"]
  | _ => False

/-- The nodes are elements that become blocks of their own, and no `a` element among them or in
them leads anywhere. -/
structure BlocksWithoutLinks (document : List Node) : Prop where
  standAlone : ∀ x ∈ document, x.StandsAlone
  noTarget : ∀ href ∈ targets document, href = ""

end Html

namespace Document.Forest

open Html

variable {document document' : List Html.Node} {options : ConversionOptions} {links : Bool}
  {F G H : Forest} {Steps : List (Kind → Forest → Forest → Prop)}

/-! Conversion. -/

theorem exists_of_standsAlone {x : Html.Node} (hx : x.StandsAlone) :
    ∃ k pre children, k.opensBlock ∧
      ∀ n, ofNode false n x = node n k (ofNodes pre (n + 1) children) nil := by
  cases x with
  | element space tag attributes children =>
    rcases List.mem_append.1 hx with hblock | hterm
    · exact exists_of_isBlock (a := .element space tag attributes children) hblock
    · have hkind : meaning? tag attributes = some .paragraph := by
        unfold meaning?
        simp only [List.mem_cons, List.not_mem_nil, or_false] at hterm
        rcases hterm with hterm | hterm
        · rw [hterm]
          rfl
        · rw [hterm]
          rfl
      exact ⟨.paragraph, _, children, rfl, fun n => by rw [ofNode, elementKind?_eq_meaning?, hkind]⟩
  | text | comment | doctype | instruction | document => exact hx.elim

theorem onlyBlocks_ofNodes (h : ∀ x ∈ document, x.StandsAlone) (n : NodeId) :
    (ofNodes false n document).OnlyBlocks := by
  induction document generalizing n with
  | nil => trivial
  | cons first rest ih =>
    rw [List.forall_mem_cons] at h
    obtain ⟨k, pre, children, hk, hnode⟩ := exists_of_standsAlone h.1
    have hfirst : (ofNode false n first).OnlyBlocks := by
      rw [hnode]
      exact ⟨hk, trivial⟩
    rw [ofNodes]
    exact hfirst.append (ih h.2 _)

theorem exists_ofNodes_append (pre : Bool) (n : NodeId) (xs ys : List Html.Node) :
    ∃ m, ofNodes pre n (xs ++ ys) = ofNodes pre n xs ++ ofNodes pre m ys := by
  induction xs generalizing n with
  | nil => exact ⟨n, rfl⟩
  | cons first rest ih =>
    obtain ⟨m, hrest⟩ := ih (n + (ofNode pre n first).ids.length)
    refine ⟨m, ?_⟩
    rw [List.cons_append, ofNodes, ofNodes, hrest, append_assoc]

/-- No node becomes a link without a target. -/
theorem ofNodes_noEmptyTarget (pre : Bool) (n : NodeId) (xs : List Html.Node) :
    (ofNodes pre n xs).AllKinds (· ≠ .link "") := by
  refine allKinds_ofNodes (fun {tag attributes k} hkind => ?_) pre n xs
  rintro rfl
  exact ((elementKind?_eq_link_iff tag attributes "").1 hkind).2.2 rfl

/-! Normal form. -/

theorem OnlyBlocks.visitedAll (h : F.OnlyBlocks) (hvisit : VisitedAll Steps F G) :
    G.OnlyBlocks := by
  induction hvisit with
  | nil => exact h
  | cons hfirst _ ih => exact ih (h.visited hfirst)

/-- The passes work on each of the blocks by itself. -/
theorem Normalized.steps_onlyBlocks (h : Normalized document ⟨false, links⟩ F)
    (hdocument : ∀ x ∈ document, x.StandsAlone) :
    ∃ n, VisitedAll (Forest.steps n !links) (ofNodes false 1 document) F := by
  obtain ⟨n, hsteps⟩ := h.steps
  refine ⟨n, hsteps.below_onlyBlocks (fun _ hmem => hmem) ?_ (by decide)⟩
  exact onlyBlocks_ofNodes hdocument 1

theorem Normalized.onlyBlocks (h : Normalized document ⟨false, links⟩ F)
    (hdocument : ∀ x ∈ document, x.StandsAlone) : F.OnlyBlocks := by
  obtain ⟨n, hsteps⟩ := h.steps_onlyBlocks hdocument
  exact (onlyBlocks_ofNodes hdocument 1).visitedAll hsteps

/-- Two documents behind each other become what each of them becomes alone. -/
theorem Normalized.outlines_append (hF : Normalized document ⟨false, links⟩ F)
    (hG : Normalized document' ⟨false, links⟩ G)
    (hH : Normalized (document ++ document') ⟨false, links⟩ H)
    (hdocument : ∀ x ∈ document, x.StandsAlone) (hdocument' : ∀ x ∈ document', x.StandsAlone) :
    H.outlines = F.outlines ++ G.outlines := by
  have hall : ∀ x ∈ document ++ document', x.StandsAlone :=
    List.forall_mem_append.2 ⟨hdocument, hdocument'⟩
  obtain ⟨n, hsteps⟩ := hH.steps_onlyBlocks hall
  obtain ⟨m, hraw⟩ := exists_ofNodes_append false 1 document document'
  rw [hraw] at hsteps
  obtain ⟨F', G', rfl, hF', hG'⟩ := hsteps.exists_append_forest
  obtain ⟨i, hstepsF⟩ := hF.steps_onlyBlocks hdocument
  obtain ⟨j, hstepsG⟩ := hG.steps_onlyBlocks hdocument'
  have hsame : (ofNodes false 1 document').outlines = (ofNodes false m document').outlines := by
    rw [outlines_ofNodes, outlines_ofNodes]
  rw [outlines_append, ← hstepsF.outlines_eq rfl hF' hF.noLineBreak,
    ← hstepsG.outlines_eq hsame hG' hG.noLineBreak]

theorem Normalized.noTarget (h : Normalized document ⟨false, links⟩ F)
    (hdocument : ∀ href ∈ targets document, href = "") :
    F.AllKinds fun k => ∀ href, k ≠ .link href := by
  obtain ⟨n, hrewrites⟩ := h.rewrites
  have hempty : F.AllKinds (· ≠ .link "") :=
    hrewrites.allKinds (by simp) (by simp) (ofNodes_noEmptyTarget false 1 document)
  refine (h.linksTo.and hempty).mono ?_
  rintro k - ⟨hlinks, hne⟩ href rfl
  have hmem := hlinks href rfl
  split at hmem
  · rw [hdocument href hmem] at hne
    exact hne rfl
  · cases hmem

end Document.Forest

namespace Layout

variable {lead outer : List Margin} {front : List Block} {n depth : Nat} {d d' e : Draft}
  {F : Forest}

/-! Layout. -/

theorem layOutlines_append (os os' : List Outline) (d : Draft) :
    layOutlines (os ++ os') d = (layOutlines os d).bind (layOutlines os') := by
  induction os generalizing d with
  | nil => rfl
  | cons first rest ih =>
    rw [List.cons_append, layOutlines, layOutlines]
    change (layOutline first d).bind (layOutlines (rest ++ os')) =
      ((layOutline first d).bind (layOutlines rest)).bind (layOutlines os')
    cases layOutline first d with
    | error fault => rfl
    | ok d₁ => exact ih d₁

/-- Block-level nodes are laid out in the same way behind other blocks, also if they are the first
to be laid out in the one draft. -/
theorem Draft.Grafted.layOutlines (hF : F.OnlyBlocks) (hbreaks : F.AllKinds (· ≠ .lineBreak))
    (h : d.Grafted lead outer front n depth d') (hrun : layOutlines F.outlines d = .ok e) :
    ∃ e', Layout.layOutlines F.outlines d' = .ok e' ∧ e.Grafted lead outer front n depth e' := by
  unfold Forest.AllKinds at hbreaks
  induction F generalizing d d' e with
  | nil =>
    cases hrun
    exact ⟨d', rfl, h⟩
  | text => exact hF.elim
  | node id k below rest _ ih =>
    obtain ⟨⟨p, options⟩, hk⟩ := Option.isSome_iff_exists.1 hF.1
    rw [Forest.outlines, Layout.layOutlines, layOutline_block _ _ hk] at hrun
    obtain ⟨d₂, hfirst, hrest⟩ := exists_of_bind_eq_ok hrun
    obtain ⟨d₁, hinner, hclose⟩ := exists_of_bind_eq_ok hfirst
    have hopen := h.openPrefix p options
    have hne := Draft.blocks_openPrefix_ne d p options
    obtain ⟨d₁', hinner', hd₁, -⟩ := (grafted_lockstep lead outer front n).layOutlines
      hbreaks.2.1 ⟨hopen, hne⟩ hinner
    obtain ⟨d₂', hclose', hd₂⟩ := hd₁.closing hclose
    obtain ⟨e', hrest', he⟩ := ih hF.2 hbreaks.2.2 hd₂ hrest
    refine ⟨e', ?_, he⟩
    rw [Forest.outlines, Layout.layOutlines, layOutline_block _ _ hk, hinner']
    change (Layout.closing p d₁').bind (Layout.layOutlines rest.outlines) = .ok e'
    rw [hclose']
    exact hrest'

/-- Without links there are no references. -/
theorem keepsReferences_respectsSteps : RespectsSteps (fun k => ∀ href, k ≠ .link href)
    fun d d' => d'.hrefs = d.hrefs ∧ d'.trailers = d.trailers where
  refl _ := ⟨rfl, rfl⟩
  trans h h' := ⟨h'.1.trans h.1, h'.2.trans h.2⟩
  append d s := by
    rw [Draft.append]
    split
    · exact ⟨rfl, rfl⟩
    · exact ⟨rfl, rfl⟩
  markHardBreak _ _ := ⟨rfl, rfl⟩
  reference d href h := absurd rfl (h href)
  block _ _ h hclose := by
    obtain ⟨left, slot, -, rfl⟩ := Draft.eq_of_closing hclose
    exact h
  paragraph := by simp

/-- The draft of a document of blocks without links. -/
structure Draft.Detached (d : Draft) : Prop where
  orderly : d.Orderly
  margins : d.margins = []
  hrefs : d.hrefs = []
  trailers : d.trailers = []

namespace Draft.Detached

theorem slot_lt (h : d.Detached) : ∀ b ∈ d.blocks, ∀ m ∈ b.margins, m.slot < d.opened := by
  intro b hb m hm
  exact h.orderly.slot_lt m (Draft.mem_allMargins_of_mem hb hm)

/-- The blocks are the whole text. -/
theorem finish_eq (h : d.Detached) : d.finish = d.body.1 := by
  rw [finish, h.trailers]
  rfl

/-- A page without text is one that shows no block. -/
theorem finished_eq_empty_iff (h : d.Detached) : d.finished = "" ↔ d.shown = [] := by
  rw [← d.body_eq_nil_iff, ← h.finish_eq, finished, ← String.toList_eq_nil_iff,
    String.toList_ofList]

theorem newline_notMem_blankLine (h : d.Detached) {b : Block} (hb : b ∈ d.blocks) :
    '\n' ∉ b.blankLine := by
  intro hmem
  have hsub : b.blankLine.Sublist (b.margins.flatMap (·.linePrefix.later.toList)) :=
    (Text.dropEndWhile_sublist _ _).trans (List.dropWhile_sublist _)
  obtain ⟨m, hm, hlater⟩ := List.mem_flatMap.1 (hsub.subset hmem)
  exact ((h.orderly.tidy b hb).margins m hm).oneLine.2 hlater

/-- Behind such a draft another is laid out as if it were alone. -/
theorem grafted (h : d.Detached) : Grafted [] [] d.blocks d.opened 0 {} d := by
  refine ⟨⟨[], rfl, rfl, h.margins⟩, ⟨[], (List.append_nil _).symm, .nil⟩, ?_, h.hrefs, h.trailers⟩
  exact (Nat.zero_add d.opened).symm

end Draft.Detached
end Layout

/-- A document of blocks without links has such a draft. -/
theorem exists_detached {document : List Html.Node}
    (h : Html.BlocksWithoutLinks document) (links : Bool) :
    ∃ F draft, Forest.Normalized document ⟨false, links⟩ F ∧
      draftOfHtml document ⟨false, links⟩ = .ok draft ∧
      layOutlines F.outlines {} = .ok draft ∧ draft.Detached := by
  obtain ⟨F, hF, hdraft⟩ := exists_normalized document ⟨false, links⟩
  obtain ⟨draft, hrun, -⟩ := layOutlines_ok F hF.noOrderedList {}
  have hlay : layOutline (.node .document F.outlines) {} = .ok draft := hrun
  have hstart : Draft.Grafted [] [] [] 0 0 {} {} :=
    ⟨⟨[], rfl, rfl, rfl⟩, ⟨[], rfl, .nil⟩, rfl, rfl, rfl⟩
  obtain ⟨_, -, hend⟩ :=
    hstart.layOutlines (hF.onlyBlocks h.standAlone) hF.noLineBreak hrun
  obtain ⟨own, hlen, hmargins, -⟩ := hend.margins
  obtain rfl := List.length_eq_zero_iff.1 hlen
  obtain ⟨hhrefs, htrailers⟩ :=
    keepsReferences_respectsSteps.layOutlines (hF.noTarget h.noTarget) hrun
  exact ⟨F, draft, hF, hdraft.trans hlay, hrun, hF.draft_orderly hlay, hmargins, hhrefs, htrailers⟩

/-- Two lists of blocks behind each other are laid out into one draft that holds both. -/
theorem exists_grafted {B C : List Html.Node} (hB : Html.BlocksWithoutLinks B)
    (hC : Html.BlocksWithoutLinks C) (links : Bool) :
    ∃ b c d, b.Detached ∧ c.Detached ∧ draftOfHtml B ⟨false, links⟩ = .ok b ∧
      draftOfHtml C ⟨false, links⟩ = .ok c ∧ draftOfHtml (B ++ C) ⟨false, links⟩ = .ok d ∧
      c.Grafted [] [] b.blocks b.opened 0 d := by
  obtain ⟨F, b, hF, hdraftB, hrunB, hb⟩ := exists_detached hB links
  obtain ⟨G, c, hG, hdraftC, hrunC, hc⟩ := exists_detached hC links
  obtain ⟨H, hH, hdraft⟩ := exists_normalized (B ++ C) ⟨false, links⟩
  obtain ⟨d, hrun, hgrafted⟩ :=
    hb.grafted.layOutlines (hG.onlyBlocks hC.standAlone) hG.noLineBreak hrunC
  refine ⟨b, c, d, hb, hc, hdraftB, hdraftC, ?_, hgrafted⟩
  rw [hdraft, layOutline_document, hF.outlines_append hG hH hB.standAlone hC.standAlone,
    layOutlines_append, hrunB]
  exact hrun

/-- The Markdown of block-level elements without links is put together from parts. Whatever the
two lists hold, the Markdown of both behind each other is that of the first, a seam, and that of
the second. The seam is empty if one of the two shows nothing, or if the last block that the first
shows and the first block that the second shows are both headings. Otherwise it is one line, which
is read off the last block of the first part alone. -/
theorem markdownOfHtml_append (B C : List Html.Node) (links : Bool)
    (hB : Html.BlocksWithoutLinks B) (hC : Html.BlocksWithoutLinks C) :
    ∃ b c s, draftOfHtml B ⟨false, links⟩ = .ok b ∧ draftOfHtml C ⟨false, links⟩ = .ok c ∧
      markdownOfHtml B ⟨false, links⟩ = .ok b.finished ∧
      markdownOfHtml C ⟨false, links⟩ = .ok c.finished ∧
      markdownOfHtml (B ++ C) ⟨false, links⟩ = .ok (b.finished ++ s ++ c.finished) ∧
      (b.finished = "" ∨ c.finished = "" → s = "") ∧
      (b.finished ≠ "" → c.finished ≠ "" → ∃ last first, b.shown.getLast? = some last ∧
        c.shown.head? = some first ∧ (last.isHeading ∧ first.isHeading → s = "") ∧
        (¬ (last.isHeading ∧ first.isHeading) →
          s = String.ofList (last.blankLine ++ ['\n']) ∧ '\n' ∉ last.blankLine)) := by
  obtain ⟨b, c, d, hb, hc, hdraftB, hdraftC, hdraft, hgrafted⟩ := exists_grafted hB hC links
  have hbreaks : ∀ block ∈ b.blocks, block.options.endsWithHardBreak = false := fun block hmem =>
    (hb.orderly.tidy block hmem).noHardBreak
  have hbody := Draft.body_grafted hb.slot_lt hc.slot_lt hbreaks hgrafted
  have hfinish : d.finish = d.body.1 := by
    rw [Draft.finish, hgrafted.trailers, hc.trailers]
    rfl
  refine ⟨b, c, String.ofList (b.seamTo c), hdraftB, hdraftC, ?_, ?_, ?_, ?_, ?_⟩
  · rw [markdownOfHtml, hdraftB]
    rfl
  · rw [markdownOfHtml, hdraftC]
    rfl
  · rw [markdownOfHtml, hdraft, Except.map, Draft.finished, hfinish, hbody, Draft.finished,
      Draft.finished, hb.finish_eq, hc.finish_eq, String.ofList_append, String.ofList_append]
  · intro hnone
    have hshown := hnone.imp hb.finished_eq_empty_iff.1 hc.finished_eq_empty_iff.1
    rw [Draft.seamTo_eq_nil hshown]
  · intro hsomeB hsomeC
    have hshownB : b.shown ≠ [] := mt hb.finished_eq_empty_iff.2 hsomeB
    have hshownC : c.shown ≠ [] := mt hc.finished_eq_empty_iff.2 hsomeC
    obtain ⟨last, first, hlast, hfirst, hseam⟩ := Draft.exists_seamTo_eq hshownB hshownC
    refine ⟨last, first, hlast, hfirst, ?_, ?_⟩
    · rintro ⟨hheading, hheading'⟩
      rw [hseam, seam, hheading, hheading']
      rfl
    · intro hheadings
      have hneither : (first.isHeading && last.isHeading) ≠ true := by
        rw [ne_eq, Bool.and_eq_true, and_comm]
        exact hheadings
      refine ⟨?_, hb.newline_notMem_blankLine (Draft.mem_blocks_of_last hlast)⟩
      rw [hseam, seam, if_neg hneither]

/-- Behind a block quote the seam still has its mark. -/
theorem markdownOfHtml_append_quoteText :
    Html.BlocksWithoutLinks [.blockQuote [.text "a"]] ∧ Html.BlocksWithoutLinks [.paragraph "b"] ∧
      ∃ s, markdownOfHtml ([.blockQuote [.text "a"]] ++ [.paragraph "b"]) ⟨false, true⟩ =
        .ok ("> a\n" ++ s ++ "b\n") ∧ s = ">\n" := by
  have hquote : Html.BlocksWithoutLinks [.blockQuote [.text "a"]] := by
    have hupper : "blockquote".map Char.toUpper = "BLOCKQUOTE" := by decide +kernel
    refine ⟨?_, ?_⟩
    · rw [List.forall_mem_singleton, Html.Node.blockQuote, Html.Node.StandsAlone, hupper]
      decide
    · simp [Html.targets, Html.Node.targets, Html.Node.blockQuote, hupper]
  have htext : Html.BlocksWithoutLinks [.paragraph "b"] := by
    have hupper : "p".map Char.toUpper = "P" := by decide +kernel
    refine ⟨?_, ?_⟩
    · rw [List.forall_mem_singleton, Html.Node.paragraph, Html.Node.StandsAlone, hupper]
      decide
    · simp [Html.targets, Html.Node.targets, Html.Node.paragraph, hupper]
  obtain ⟨b, c, s, -, -, hmarkdownB, hmarkdownC, happend, -, -⟩ :=
    markdownOfHtml_append [.blockQuote [.text "a"]] [.paragraph "b"] true hquote htext
  obtain ⟨hB, hC, hboth⟩ :
      markdownOfHtml [.blockQuote [.text "a"]] ⟨false, true⟩ = .ok "> a\n" ∧
      markdownOfHtml [.paragraph "b"] ⟨false, true⟩ = .ok "b\n" ∧
      markdownOfHtml ([.blockQuote [.text "a"]] ++ [.paragraph "b"]) ⟨false, true⟩ =
        .ok "> a\n>\nb\n" := by
    simp only [markdownOfHtml, draftOfHtml, Tree.ofHtml, Tree.normalize_eq_countedPasses]
    decide +kernel
  have hfinished : b.finished = "> a\n" := Except.ok.inj (hmarkdownB.symm.trans hB)
  have hfinished' : c.finished = "b\n" := Except.ok.inj (hmarkdownC.symm.trans hC)
  rw [hfinished, hfinished'] at happend
  have htexts : "> a\n" ++ s ++ "b\n" = "> a\n" ++ ">\n" ++ "b\n" :=
    Except.ok.inj (happend.symm.trans hboth)
  refine ⟨hquote, htext, s, happend, ?_⟩
  rw [← String.toList_inj] at htexts ⊢
  simp only [String.toList_append, List.append_assoc] at htexts
  exact List.append_cancel_right (List.append_cancel_left htexts)

end HtmlMarkdown
