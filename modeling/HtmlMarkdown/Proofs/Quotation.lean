import HtmlMarkdown.Proofs.LayoutRuns
import HtmlMarkdown.Proofs.Links
import HtmlMarkdown.Proofs.PositionWalks
import HtmlMarkdown.Proofs.QuotedPage

/-!
A document that is put into one block quote. The quote is opened before anything is laid out and
closed after everything, so all blocks stand under its prefix, and only the target of a reference
can bring a line without it.
-/
namespace HtmlMarkdown

open Document Layout

namespace Document.Forest

/-- The block quote around the whole document stays around it. -/
theorem Normalized.quoted {document : List Html.Node} {links : Bool} {F : Forest}
    (h : Normalized document ⟨true, links⟩ F) :
    ∃ below, F = .node 1 (.blockquote true) below .nil := by
  obtain ⟨n, hrewrites⟩ := h.rewrites
  obtain ⟨below, hF, -⟩ := Rewrites.below (by decide) (by simp) hrewrites
  exact ⟨below, hF⟩

end Document.Forest

namespace Layout

open Draft

theorem onOneLine_of_blockOf? {k : Kind} {p : LinePrefix} {options : BlockOptions}
    (h : blockOf? k = some (p, options)) : p.OnOneLine := by
  have huniform : ∀ s : String, '\n' ∉ s.toList → (LinePrefix.uniform s).OnOneLine := fun _ hs =>
    ⟨hs, hs⟩
  cases k with
  | heading level =>
    obtain ⟨rfl, -⟩ := Prod.mk.inj (Option.some.inj h)
    exact ⟨by simp, by simp⟩
  | listItem =>
    obtain ⟨rfl, -⟩ := Prod.mk.inj (Option.some.inj h)
    exact ⟨by decide, by decide⟩
  | numberedItem number =>
    obtain ⟨rfl, -⟩ := Prod.mk.inj (Option.some.inj h)
    have hnumber := newline_notMem_toString number
    refine ⟨?_, fun h => by simp at h⟩
    rw [itemMarker]
    split <;> simpa [String.toList_append] using hnumber
  | preformatted | paragraph | blockquote =>
    obtain ⟨rfl, -⟩ := Prod.mk.inj (Option.some.inj h)
    exact huniform _ (by decide)
  | document | link | bold | italic | orderedList | code | lineBreak | separator =>
    simp [blockOf?] at h

/-- A draft that is being laid out inside one block quote that accepts the reference lines. -/
structure Draft.Inside (d : Draft) : Prop where
  margins : Quoting d.margins
  blocks : ∀ block ∈ d.blocks, Quoting block.margins
  accepts : ∃ block ∈ d.blocks, block.options.acceptsTrailers
  trailers_eq : d.trailers = d.hrefs.mapIdx fun i href => referenceLine (i + 1) href

namespace Draft.Inside

variable {d d₁ d' : Draft}

theorem openPrefix (h : d.Inside) {p : LinePrefix} (hp : p.OnOneLine) (options : BlockOptions) :
    (d.openPrefix p options).Inside := by
  have hmargins : Quoting (d.margins ++ [⟨p, d.opened⟩]) := h.margins.concat hp
  obtain ⟨block, hblock, haccepts⟩ := h.accepts
  refine ⟨hmargins, ?_, ⟨block, List.mem_append_left _ hblock, haccepts⟩, h.trailers_eq⟩
  simp only [Draft.openPrefix, List.forall_mem_append]
  exact ⟨h.blocks, by simpa using hmargins⟩

theorem onLast (h : d.Inside) {f : Block → Block} (hmargins : ∀ b, (f b).margins = b.margins)
    (haccepts : ∀ b, (f b).options.acceptsTrailers = b.options.acceptsTrailers) :
    Draft.Inside { d with blocks := onLast f d.blocks } := by
  have hmap : (Layout.onLast f d.blocks).map (fun b => (b.margins, b.options.acceptsTrailers)) =
      d.blocks.map fun b => (b.margins, b.options.acceptsTrailers) :=
    map_onLast_of_eq (fun b => by rw [hmargins, haccepts]) d.blocks
  refine ⟨h.margins, fun block hblock => ?_, ?_, h.trailers_eq⟩
  · have hmem := List.mem_map_of_mem (f := fun b => (b.margins, b.options.acceptsTrailers)) hblock
    rw [hmap] at hmem
    obtain ⟨earlier, hearlier, hsame⟩ := List.mem_map.1 hmem
    have hsame' : earlier.margins = block.margins := congrArg Prod.fst hsame
    exact hsame' ▸ h.blocks earlier hearlier
  · obtain ⟨block, hblock, htrailers⟩ := h.accepts
    have hmem := List.mem_map_of_mem (f := fun b => (b.margins, b.options.acceptsTrailers)) hblock
    rw [← hmap] at hmem
    obtain ⟨later, hlater, hsame⟩ := List.mem_map.1 hmem
    exact ⟨later, hlater, (congrArg Prod.snd hsame).trans htrailers⟩

theorem append (h : d.Inside) (s : String) :
    (d.append s).Inside ∧ (d.append s).margins = d.margins := by
  obtain ⟨block, hblock, -⟩ := h.accepts
  have hne : d.blocks.isEmpty = false := by simpa using List.ne_nil_of_mem hblock
  rw [Draft.append, hne]
  exact ⟨h.onLast (fun _ => rfl) fun _ => rfl, rfl⟩

theorem reference (h : d.Inside) (href : String) : (d.reference href).2.Inside ∧
    (d.reference href).2.margins = d.margins ∧
      ∀ target ∈ (d.reference href).2.hrefs, target ∈ d.hrefs ∨ target = href := by
  rw [Draft.reference]
  split
  · exact ⟨h, rfl, fun _ => Or.inl⟩
  · refine ⟨⟨h.margins, h.blocks, h.accepts, ?_⟩, rfl, ?_⟩
    · simp [addTrailer, h.trailers_eq]
    · simp [addTrailer]

/-- Inside the quote the prefix that was opened around something is closed again. -/
theorem closing {p : LinePrefix} {slot : Nat} (h : d₁.Inside) (hd : Quoting d.margins)
    (hmargins : d₁.margins = d.margins ++ [⟨p, slot⟩]) (hclose : Layout.closing p d₁ = .ok d') :
    d'.Inside ∧ d'.margins = d.margins ∧ d'.hrefs = d₁.hrefs := by
  rw [closing_eq hmargins, Except.ok.injEq] at hclose
  subst hclose
  obtain ⟨block, hblock, haccepts⟩ := h.accepts
  refine ⟨⟨hd, ?_, ⟨block, List.mem_append_left _ hblock, haccepts⟩, h.trailers_eq⟩, rfl, rfl⟩
  rw [List.forall_mem_append]
  exact ⟨h.blocks, by simpa using hd⟩

end Draft.Inside

/-- What is laid out inside the quote stays inside it, and only its targets get numbers. -/
def StaysInside (targets : List String) (d d' : Draft) : Prop :=
  d.Inside → d'.Inside ∧ d'.margins = d.margins ∧ ∀ href ∈ d'.hrefs, href ∈ d.hrefs ∨ href ∈ targets

theorem staysInside_respectsSteps (targets : List String) :
    RespectsSteps (fun k => ∀ href, k = .link href → href ∈ targets) (StaysInside targets) where
  refl _ hd := ⟨hd, rfl, fun _ => Or.inl⟩
  trans {d d₁ d'} h h' hd := by
    obtain ⟨hd₁, hmargins, hhrefs⟩ := h hd
    obtain ⟨hd', hmargins', hhrefs'⟩ := h' hd₁
    exact ⟨hd', hmargins'.trans hmargins, fun href hmem =>
      (hhrefs' href hmem).elim (hhrefs href) Or.inr⟩
  append d s hd := by
    obtain ⟨hd', hmargins⟩ := hd.append s
    exact ⟨hd', hmargins, by rw [hrefs_append]; exact fun _ => Or.inl⟩
  markHardBreak _ d hd := ⟨hd.onLast (fun _ => rfl) fun _ => rfl, rfl, fun _ => Or.inl⟩
  reference d href htarget hd := by
    obtain ⟨hd', hmargins, hhrefs⟩ := hd.reference href
    refine ⟨hd', hmargins, fun target hmem => (hhrefs target hmem).imp_right ?_⟩
    rintro rfl
    exact htarget target rfl
  block {k p options d d₁ d'} _ hblock h hclose hd := by
    obtain ⟨hd₁, hmargins, hhrefs⟩ := h (hd.openPrefix (onOneLine_of_blockOf? hblock) options)
    obtain ⟨hd', hmargins', hsame⟩ := hd₁.closing hd.margins hmargins hclose
    exact ⟨hd', hmargins', by rw [hsame]; exact hhrefs⟩
  paragraph := by simp

/-- A draft right after the quote has been opened. -/
theorem inside_openPrefix :
    (({} : Draft).openPrefix quoteMark { acceptsTrailers := true }).Inside := by
  have hmark : quoteMark.OnOneLine := by decide
  have hmargins : Quoting [⟨quoteMark, 0⟩] := ⟨⟨_, rfl, rfl⟩, by simpa using hmark⟩
  exact ⟨hmargins, by simpa [openPrefix] using hmargins, ⟨_, List.mem_singleton_self _, rfl⟩, rfl⟩

/-- One block quote with something in it is laid out, and its draft is quoted. -/
theorem layOutline_quoted {below : Forest} {targets : List String}
    (hlists : below.AllKinds fun k => k.name ≠ .orderedList) (hlinks : below.LinksTo targets) :
    ∃ draft, layOutline (.node .document [.node (.blockquote true) below.outlines]) {} =
      .ok draft ∧ draft.Quoted ∧ draft.hrefs ⊆ targets := by
  let d : Draft := ({} : Draft).openPrefix quoteMark { acceptsTrailers := true }
  obtain ⟨d₁, hrun, -⟩ := layOutlines_ok below hlists d
  obtain ⟨hd₁, hmargins, hhrefs⟩ :=
    (staysInside_respectsSteps targets).layOutlines hlinks hrun inside_openPrefix
  -- the block behind the quote is never given any text
  let d' : Draft := { d₁ with margins := [], blocks := d₁.blocks ++ [{ margins := [] }] }
  have hclose : closing quoteMark d₁ = .ok d' := closing_eq hmargins
  refine ⟨d', ?_, ⟨?_, ?_, ?_, hd₁.trailers_eq⟩, fun href hmem => ?_⟩
  · have hblock : blockOf? (.blockquote true) = some (quoteMark, { acceptsTrailers := true }) := rfl
    have hquote : layOutline (.node (.blockquote true) below.outlines) {} = .ok d' := by
      rw [layOutline_block below.outlines {} hblock, hrun]
      exact hclose
    rw [layOutline_document, layOutlines, hquote]
    rfl
  · simp only [d', List.forall_mem_append]
    refine ⟨fun block hmem _ => hd₁.blocks block hmem, ?_⟩
    simp [Block.Quoted]
  · obtain ⟨block, hmem, haccepts⟩ := hd₁.accepts
    exact ⟨block, List.mem_append_left _ hmem, haccepts⟩
  · simp only [d', List.forall_mem_append]
    exact ⟨fun block hmem _ => hd₁.blocks block hmem, by simp⟩
  · exact (hhrefs href hmem).resolve_left (by simp [d, openPrefix])

end Layout

/-- The Markdown of a quoted document is quoted on every line exactly if no reference leads to a
target with a line, after its first, that is not itself quoted. The references lead to targets of
links of the document, if links are kept. -/
theorem markdownOfHtml_quoted_iff (document : List Html.Node) (links : Bool) :
    ∃ draft, draftOfHtml document ⟨true, links⟩ = .ok draft ∧
      markdownOfHtml document ⟨true, links⟩ = .ok draft.finished ∧
      (∀ line ∈ Text.endedLines draft.bodyText.toList, Text.IsQuoted line) ∧
      ((∀ line ∈ Text.endedLines draft.finished.toList, Text.IsQuoted line) ↔
        ∀ href ∈ draft.hrefs, ∀ line ∈ (Text.lines href.toList).tail, Text.IsQuoted line) ∧
      draft.hrefs ⊆ if links then Html.targets document else [] := by
  obtain ⟨F, hF, hdraft⟩ := exists_normalized document ⟨true, links⟩
  have hlists := hF.noOrderedList
  have hlinks := hF.linksTo
  obtain ⟨below, rfl⟩ := hF.quoted
  obtain ⟨draft, hlay, hquoted, hhrefs⟩ := layOutline_quoted hlists.2.1 hlinks.2.1
  have hok : draftOfHtml document ⟨true, links⟩ = .ok draft := hdraft.trans hlay
  refine ⟨draft, hok, ?_, ?_, ?_, hhrefs⟩
  · rw [markdownOfHtml, hok]
    rfl
  · rw [Draft.bodyText, String.toList_ofList]
    exact hquoted.body.isQuoted_of_mem
  · rw [Draft.finished, String.toList_ofList]
    exact hquoted.forall_endedLines_finish_iff

/-- A target with a newline is written as it is, and what follows the newline is not quoted. -/
theorem markdownOfHtml_quoted_newlineInTarget :
    ∃ markdown line, markdownOfHtml [.element .html "a" [⟨"href", "a\nb", .plain⟩] [.text "x"]]
        ⟨true, true⟩ = .ok markdown ∧ markdown = "> [x][1]\n>\n> [1]: a\nb\n" ∧
      line ∈ Text.endedLines markdown.toList ∧ ¬ Text.IsQuoted line := by
  have hmem : ['b'] ∈ Text.endedLines "> [x][1]\n>\n> [1]: a\nb\n".toList := by decide
  refine ⟨"> [x][1]\n>\n> [1]: a\nb\n", ['b'], ?_, rfl, hmem, by simp [Text.IsQuoted]⟩
  rw [markdownOfHtml, draftOfHtml, Tree.ofHtml, Tree.normalize_eq_countedPasses]
  decide +kernel

end HtmlMarkdown
