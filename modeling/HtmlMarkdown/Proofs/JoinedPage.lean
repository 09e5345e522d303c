import HtmlMarkdown.Proofs.Margins
import HtmlMarkdown.Proofs.Quotation
import HtmlMarkdown.Proofs.Reading
import HtmlMarkdown.Proofs.References
import HtmlMarkdown.Proofs.Rows

/-!
The seam between the blocks and the reference lines. The blocks end in one line that shows
something, so one blank line behind them is always needed and always enough.
-/
namespace HtmlMarkdown

open Document Layout

namespace Layout

open Text

/-! The last line of the blocks. -/

theorem joinBlocks_lastBlock (earlier : Option Block) (blocks : List Block)
    (counts : LineCounts) :
    (joinBlocks earlier blocks counts).1 = [] ∨ ∃ front, ∃ block ∈ blocks, ∃ later,
      (block.render later).1 ≠ [] ∧
      (joinBlocks earlier blocks counts).1 = front ++ ((block.render later).1 ++ block.ending) := by
  induction blocks generalizing earlier counts with
  | nil => exact Or.inl rfl
  | cons block rest ih =>
    simp only [joinBlocks]
    split
    · refine (ih earlier _).imp_right ?_
      rintro ⟨front, b, hb, h⟩
      exact ⟨front, b, List.mem_cons_of_mem _ hb, h⟩
    · rename_i hshown
      right
      let separator := separatorLine earlier block (block.render counts).2
      rcases ih (some block) separator.2 with hmore | ⟨front, b, hb, later, hne, hmore⟩
      · refine ⟨separator.1, block, List.mem_cons_self .., counts, by simpa using hshown, ?_⟩
        simp only [separator] at hmore ⊢
        rw [hmore, List.append_nil, List.append_assoc]
      · refine ⟨separator.1 ++ (block.render counts).1 ++ block.ending ++ front, b,
          List.mem_cons_of_mem _ hb, later, hne, ?_⟩
        simp only [separator] at hmore ⊢
        rw [hmore]
        simp only [List.append_assoc]

/-- The last line of a block is not empty and begins with the margins. -/
theorem Block.render_lastLine {block : Block}
    (honeLine : ∀ m ∈ block.margins, m.linePrefix.OnOneLine) {counts : LineCounts}
    (hshown : (block.render counts).1 ≠ []) :
    block.contents ≠ none ∧ ∃ front later row,
      (block.render counts).1 ++ block.ending =
        front ++ ((renderMargins block.margins later).1 ++ row) ++ ['\n'] ∧
      '\n' ∉ (renderMargins block.margins later).1 ++ row ∧
      (renderMargins block.margins later).1 ++ row ≠ [] := by
  obtain ⟨contents, hcontents⟩ : ∃ contents, block.contents = some contents := by
    rw [← Option.ne_none_iff_exists']
    intro hnone
    simp [Block.render, hnone] at hshown
  obtain ⟨front, row, later, hwrap, hrow, hfront⟩ :=
    wrap_lastLine contents.toList block.margins block.options counts
  have hmargins := newline_notMem_renderMargins honeLine later
  have hrender : (block.render counts).1 =
      front ++ ((renderMargins block.margins later).1 ++ row) := by
    rw [Block.render, hcontents]
    exact hwrap
  have hne : (renderMargins block.margins later).1 ++ row ≠ [] := by
    intro hnil
    rw [hrender, hnil, List.append_nil] at hshown
    exact hfront hshown (List.append_eq_nil_iff.1 hnil).2
  refine ⟨by simp [hcontents], front, later, row ++ block.ending.dropLast, ?_, ?_, ?_⟩
  · rw [hrender, Block.ending]
    split <;> simp
  · rw [Block.ending]
    split <;> simp [hmargins, hrow]
  · rw [← List.append_assoc]
    exact List.append_ne_nil_of_left_ne_nil hne _

namespace Draft

/-- What the blocks are joined to ends in a line behind the margins of some block that has been
given text. -/
theorem body_lastLine {d : Draft} (honeLine : ∀ m ∈ d.allMargins, m.linePrefix.OnOneLine) :
    d.body.1 = [] ∨ ∃ front line, d.body.1 = front ++ line ++ ['\n'] ∧ '\n' ∉ line ∧ line ≠ [] ∧
      ∃ block ∈ d.blocks, block.contents ≠ none ∧
        ∃ counts, (renderMargins block.margins counts).1 <+: line := by
  refine (joinBlocks_lastBlock none d.blocks _).imp_right ?_
  rintro ⟨front, block, hblock, counts, hshown, hbody⟩
  have hmargins : ∀ m ∈ block.margins, m.linePrefix.OnOneLine := fun m hm =>
    honeLine m (mem_allMargins_of_mem hblock hm)
  obtain ⟨hcontents, before, later, row, hlast, hnewline, hne⟩ :=
    Block.render_lastLine hmargins hshown
  refine ⟨front ++ before, _, ?_, hnewline, hne, block, hblock, hcontents, later,
    List.prefix_append ..⟩
  rw [body, hbody, hlast]
  simp only [List.append_assoc]

/-! Padding. -/

/-- Blank lines put behind a text one after the other, until it ends in one, are just this many. -/
structure StopsAfter (text blank : List Char) (rounds : Nat) : Prop where
  done : ('\n' :: blank ++ ['\n']) <:+ text ++ (List.replicate rounds (blank ++ ['\n'])).flatten
  not_done : ∀ fewer < rounds,
    ¬ ('\n' :: blank ++ ['\n']) <:+ text ++ (List.replicate fewer (blank ++ ['\n'])).flatten

theorem stopsAfter_paddingNeeded (text blank : List Char) :
    StopsAfter text blank (paddingNeeded text blank) := by
  unfold paddingNeeded
  simp only [List.isSuffixOf_iff_suffix]
  by_cases hnone : ('\n' :: blank ++ ['\n']) <:+ text
  · rw [if_pos hnone]
    exact ⟨by simpa using hnone, fun fewer h => absurd h (Nat.not_lt_zero fewer)⟩
  · rw [if_neg hnone]
    by_cases hone : ('\n' :: blank ++ ['\n']) <:+ text ++ blank ++ ['\n']
    · rw [if_pos hone]
      refine ⟨by simpa using hone, fun fewer h => ?_⟩
      obtain rfl : fewer = 0 := by omega
      simpa using hnone
    · rw [if_neg hone]
      refine ⟨⟨text ++ blank, by simp⟩, fun fewer h => ?_⟩
      obtain rfl | rfl : fewer = 0 ∨ fewer = 1 := by omega
      · simpa using hnone
      · simpa using hone

/-- Behind a line that is longer than a blank one, one blank line is needed. -/
theorem paddingNeeded_eq_one {front line blank : List Char} (hline : '\n' ∉ line)
    (hlength : blank.length < line.length) :
    paddingNeeded (front ++ line ++ ['\n']) blank = 1 := by
  have hnone : ¬ ('\n' :: blank ++ ['\n']) <:+ front ++ line ++ ['\n'] := by
    rintro ⟨rest, hrest⟩
    have hsame : rest ++ '\n' :: blank = front ++ line := by
      rw [← List.append_assoc] at hrest
      exact List.append_cancel_right hrest
    rcases List.append_eq_append_iff.1 hsame with ⟨more, -, hblank⟩ | ⟨more, -, hmore⟩
    · -- the newline does not stand in the line, so the line would fit into the blank one
      have hlong := congrArg List.length hblank
      cases more with
      | nil =>
        rw [List.nil_append] at hblank
        exact hline (hblank ▸ List.mem_cons_self ..)
      | cons c more =>
        simp only [List.length_cons, List.length_append] at hlong
        omega
    · exact hline (hmore ▸ by simp)
  have hone : ('\n' :: blank ++ ['\n']) <:+ front ++ line ++ ['\n'] ++ blank ++ ['\n'] :=
    ⟨front ++ line, by simp⟩
  simp only [paddingNeeded, List.isSuffixOf_iff_suffix]
  rw [if_neg hnone, if_pos hone]

end Draft

/-! The prefix of the reference lines. -/

theorem acceptsTrailers_of_blockOf? {k : Kind} {p : LinePrefix} {options : BlockOptions}
    (h : blockOf? k = some (p, options)) (hk : k ≠ .blockquote true) :
    options.acceptsTrailers = false := by
  cases k with
  | blockquote acceptsTrailers =>
    obtain ⟨-, rfl⟩ := Prod.mk.inj (Option.some.inj h)
    cases acceptsTrailers with
    | false => rfl
    | true => exact absurd rfl hk
  | heading | listItem | numberedItem | preformatted | paragraph =>
    obtain ⟨-, rfl⟩ := Prod.mk.inj (Option.some.inj h)
    rfl
  | document | link | bold | italic | orderedList | code | lineBreak | separator =>
    cases h

/-- Only the quote around the whole document accepts reference lines. -/
theorem optionInvariant_accepting (P : List Margin → Prop) :
    OptionInvariant (· ≠ .blockquote true) fun options ms =>
      options.acceptsTrailers = true → P ms where
  usual _ h := by cases h
  opens _ hk hblock h := by
    rw [acceptsTrailers_of_blockOf? hblock hk] at h
    cases h
  hardBreak _ h := h

variable {d : Draft}

/-- Where some block accepts reference lines, and all that do stand under the same margins, these
are in front of the reference lines. -/
theorem Draft.trailerPrefix_eq {margins : List Margin}
    (h : ∀ b ∈ d.blocks, b.options.acceptsTrailers = true → b.margins = margins)
    (hsome : ∃ b ∈ d.blocks, b.options.acceptsTrailers = true) (counts : LineCounts) :
    d.trailerPrefix counts = (renderMargins margins counts).1 := by
  unfold trailerPrefix
  cases hfind : d.blocks.reverse.find? (·.options.acceptsTrailers) with
  | none =>
    obtain ⟨b, hb, haccepts⟩ := hsome
    exact absurd haccepts (List.find?_eq_none.1 hfind b (List.mem_reverse.2 hb))
  | some b =>
    have hb : b ∈ d.blocks := List.mem_reverse.1 (List.mem_of_find?_eq_some hfind)
    have haccepts := List.find?_some (p := fun b : Block => b.options.acceptsTrailers) hfind
    simp only [h b hb haccepts]

theorem Draft.trailerPrefix_eq_nil
    (h : ∀ b ∈ d.blocks, b.options.acceptsTrailers ≠ true) (counts : LineCounts) :
    d.trailerPrefix counts = [] := by
  have hfind : d.blocks.reverse.find? (·.options.acceptsTrailers) = none :=
    List.find?_eq_none.2 fun b hb => h b (List.mem_reverse.1 hb)
  rw [trailerPrefix, hfind]

theorem renderMargins_quoteMark (slot : Nat) (counts : LineCounts) :
    (renderMargins [⟨quoteMark, slot⟩] counts).1 = ['>', ' '] := by
  simp only [renderMargins, quoteMark, LinePrefix.uniform, ite_self]
  rfl

/-- Every line in the quote begins with its whole prefix. -/
theorem Quoting.starts_with_mark {margins : List Margin} (h : Quoting margins)
    (counts : LineCounts) : ['>', ' '] <+: (renderMargins margins counts).1 := by
  obtain ⟨margin, hmargin, hquote⟩ := h.outermost
  cases margins with
  | nil => simp at hmargin
  | cons outer inner =>
    obtain rfl : outer = margin := by simpa using hmargin
    simp only [renderMargins, hquote, quoteMark, LinePrefix.uniform, ite_self]
    exact List.prefix_append ..

/-- What is laid out in one quote is laid out between opening and closing its prefix. -/
theorem exists_of_layOutline_quote {contents : List Outline} {draft : Draft}
    (h : layOutline (.node .document [.node (.blockquote true) contents]) {} = .ok draft) :
    ∃ inner, layOutlines contents (({} : Draft).openPrefix quoteMark { acceptsTrailers := true }) =
      .ok inner ∧ closing quoteMark inner = .ok draft := by
  have hblock : blockOf? (.blockquote true) = some (quoteMark, { acceptsTrailers := true }) := rfl
  rw [layOutline_document, layOutlines, layOutline_block contents {} hblock] at h
  obtain ⟨d, hquote, hrest⟩ := exists_of_bind_eq_ok h
  cases hrest
  exact exists_of_bind_eq_ok hquote

end Layout

namespace Document.Forest

theorem ofNodes_noAcceptingQuote (n : NodeId) (document : List Html.Node) :
    (ofNodes false n document).AllKinds (· ≠ .blockquote true) :=
  allKinds_ofNodes elementKind?_ne_acceptingQuote false n document

variable {document : List Html.Node} {options : ConversionOptions} {F : Forest}

theorem Normalized.noAcceptingQuote (h : Normalized document options F)
    (hquote : options.quote = false) : F.AllKinds (· ≠ .blockquote true) := by
  obtain ⟨n, hrewrites⟩ := h.rewrites
  rw [hquote, ofDocument, if_neg Bool.false_ne_true] at hrewrites
  exact hrewrites.allKinds (by simp) (by simp) (ofNodes_noAcceptingQuote 1 document)

theorem Normalized.exists_quote (h : Normalized document options F)
    (hquote : options.quote = true) : ∃ below, F = .node 1 (.blockquote true) below .nil ∧
      below.AllKinds (· ≠ .blockquote true) := by
  obtain ⟨n, hrewrites⟩ := h.rewrites
  rw [hquote, ofDocument, if_pos rfl] at hrewrites
  obtain ⟨below, hF, hbelow⟩ := hrewrites.below (by decide) (by simp)
  exact ⟨below, hF, hbelow.allKinds (by simp) (by simp) (ofNodes_noAcceptingQuote 2 document)⟩

end Document.Forest

/-- The draft of a document. Its margins stay on one line, the reference lines stand in the quote
around the document, if there is one, and there are none unless some block has been given text. -/
structure Layout.Draft.OfDocument (d : Draft) (quote : Bool) : Prop where
  oneLine : ∀ m ∈ d.allMargins, m.linePrefix.OnOneLine
  trailerPrefix_eq : ∀ counts, d.trailerPrefix counts = (if quote then "> " else "").toList
  quoted : quote = true → ∀ b ∈ d.blocks, b.contents ≠ none → Quoting b.margins
  body_ne_nil : d.trailers ≠ [] → d.body.1 ≠ []

section Normalized

variable {document : List Html.Node} {options : ConversionOptions} {F : Forest} {draft : Draft}

theorem Document.Forest.Normalized.draft_quoted (hF : Normalized document options F)
    (hquote : options.quote = true) (h : layOutline (.node .document F.outlines) {} = .ok draft) :
    draft.Quoted := by
  obtain ⟨below, rfl, -⟩ := hF.exists_quote hquote
  have hlists : below.AllKinds fun k => k.name ≠ .orderedList := hF.noOrderedList.2.1
  obtain ⟨quoted, hlay, hquoted, -⟩ := layOutline_quoted hlists hF.linksTo.2.1
  obtain rfl : quoted = draft := Except.ok.inj (hlay.symm.trans h)
  exact hquoted

theorem Document.Forest.Normalized.trailerPrefix_eq (hF : Normalized document options F)
    (h : layOutline (.node .document F.outlines) {} = .ok draft) (counts : LineCounts) :
    draft.trailerPrefix counts = (if options.quote then "> " else "").toList := by
  cases hquote : options.quote with
  | false =>
    have hrun := (optionInvariant_accepting fun _ => False).respectsSteps (by simp)
    exact Draft.trailerPrefix_eq_nil (hrun.layOutlines (hF.noAcceptingQuote hquote) h (by simp)) _
  | true =>
    have hsome := (hF.draft_quoted hquote h).accepts
    obtain ⟨below, rfl, hbelow⟩ := hF.exists_quote hquote
    obtain ⟨inner, hinner, hclose⟩ := exists_of_layOutline_quote h
    obtain ⟨outer, slot, -, rfl⟩ := Draft.eq_of_closing hclose
    have hrun := (optionInvariant_accepting (· = [⟨quoteMark, 0⟩])).respectsSteps (by simp)
    have haccepting := hrun.layOutlines hbelow hinner (by simp [Draft.openPrefix])
    rw [Draft.trailerPrefix_eq _ hsome counts, renderMargins_quoteMark 0 counts]
    · rfl
    · rw [List.forall_mem_append]
      exact ⟨haccepting, by simp⟩

end Normalized

theorem exists_draft_ofDocument (document : List Html.Node) (options : ConversionOptions) :
    ∃ draft, draftOfHtml document options = .ok draft ∧ draft.OfDocument options.quote := by
  obtain ⟨F, hF, hdraft⟩ := exists_normalized document options
  have hlistless : (Outline.node .document F.outlines).Listless :=
    ⟨by simp [Kind.name], fun _ => Forest.allListless hF.noOrderedList⟩
  obtain ⟨draft, hlay, hhrefs, htrailers, htext⟩ := layOutline_references hlistless
  refine ⟨draft, hdraft.trans hlay, ?_, ?_, ?_, ?_⟩
  · have hall := (marginInvariant_linePrefix @onOneLine_of_blockOf?).respectsSteps
    exact hall.layOutlines (Forest.everywhere_of_forall (fun _ _ => trivial) F) hlay
      (by simp [Draft.allMargins])
  · exact hF.trailerPrefix_eq hlay
  · exact fun hquote => (hF.draft_quoted hquote hlay).blocks
  · intro hne hnil
    have hreferences : (Outline.node .document F.outlines).references ≠ [] := by
      intro hnone
      rw [hnone, List.eraseDups_nil] at hhrefs
      exact hne (by rw [htrailers, hhrefs]; rfl)
    have hbracket := bracket_mem_written (fun href => draft.hrefs.idxOf href + 1) _ hreferences
    have hsub := visible_sublist_joinBlocks none draft.blocks (LineCounts.start draft.opened)
    rw [htext, show (joinBlocks none draft.blocks _).1 = [] from hnil, List.sublist_nil] at hsub
    have hvisible : '[' ∈ Text.visible (Outline.written
        (fun href => draft.hrefs.idxOf href + 1) (.node .document F.outlines)).toList :=
      List.mem_filter.2 ⟨hbracket, by decide⟩
    rw [hsub] at hvisible
    cases hvisible

namespace Layout.Draft

/-- The reference lines, with the line of padding in front of them. -/
def referencePart (draft : Draft) (quote : Bool) : List Char :=
  if draft.trailers = [] then []
  else (if quote then ">\n" else "\n").toList ++ draft.trailers.flatMap fun line =>
    (if quote then "> " else "").toList ++ line.toList ++ ['\n']

variable {draft : Draft} {quote : Bool}

/-- Where there are reference lines, the blocks need one line of padding in front of them. -/
theorem OfDocument.paddingNeeded_eq_one (h : draft.OfDocument quote) (hsome : draft.trailers ≠ []) :
    paddingNeeded draft.body.1 (if quote then ">" else "").toList = 1 := by
  obtain ⟨front, line, hbody, hnewline, hline, block, hblock, hcontents, counts, hprefix⟩ :=
    (body_lastLine h.oneLine).resolve_left (h.body_ne_nil hsome)
  -- a line in the quote is longer than its mark
  have hlength : (if quote then ">" else "").toList.length < line.length := by
    cases hquote : quote with
    | false => exact List.length_pos_iff.2 hline
    | true =>
      have hmark := (h.quoted hquote block hblock hcontents).starts_with_mark counts
      exact (hmark.trans hprefix).length_le
  rw [hbody]
  exact Draft.paddingNeeded_eq_one hnewline hlength

/-- A blank line under the prefix of the reference lines. -/
theorem OfDocument.trimEnd_trailerPrefix (h : draft.OfDocument quote) :
    Text.trimEnd (draft.trailerPrefix draft.body.2) = (if quote then ">" else "").toList := by
  rw [h.trailerPrefix_eq]
  cases quote <;> rfl

/-- The text is the blocks and the reference lines. -/
theorem OfDocument.finish_eq (h : draft.OfDocument quote) :
    draft.finish = draft.body.1 ++ draft.referencePart quote := by
  rw [referencePart]
  by_cases hnone : draft.trailers = []
  · rw [if_pos hnone, finish, hnone, List.append_nil]
    rfl
  · have hpadding : padding draft.body.1 (Text.trimEnd (draft.trailerPrefix draft.body.2)) =
        (if quote then ">\n" else "\n").toList := by
      rw [h.trimEnd_trailerPrefix, padding, h.paddingNeeded_eq_one hnone]
      cases quote <;> rfl
    simp only [finish]
    rw [if_neg hnone, if_neg (by simpa using hnone), hpadding, h.trailerPrefix_eq,
      List.append_assoc]

end Layout.Draft

/-- The blocks end in one newline, and the reference lines follow behind one blank line. For every
document, what its blocks are joined to is empty or ends in just one newline. Where there are no
reference lines, that is all. Where there are, the blocks show something, they need and get one
line of padding, since they do not end in a blank line before and do so with it, and each reference
line has the prefix of the quote around the document, if there is one, and a newline. -/
theorem markdownOfHtml_seam (document : List Html.Node) (options : ConversionOptions) :
    ∃ draft, draftOfHtml document options = .ok draft ∧
      markdownOfHtml document options = .ok draft.finished ∧
      (draft.bodyText = "" ∨ ∃ s c, draft.bodyText.toList = s ++ [c, '\n'] ∧ c ≠ '\n') ∧
      (draft.trailers = [] → draft.finished = draft.bodyText) ∧
      (draft.trailers ≠ [] → draft.bodyText ≠ "" ∧
        Draft.paddingNeeded draft.bodyText.toList (if options.quote then ">" else "").toList = 1 ∧
        Draft.StopsAfter draft.bodyText.toList
          (Text.trimEnd (draft.trailerPrefix draft.body.2)) 1 ∧
        draft.finished = draft.bodyText ++ (if options.quote then ">\n" else "\n")
          ++ String.join (draft.trailers.map fun line =>
            (if options.quote then "> " else "") ++ line ++ "\n")) := by
  obtain ⟨draft, hok, hdraft⟩ := exists_draft_ofDocument document options
  have hlast := Draft.body_lastLine hdraft.oneLine
  refine ⟨draft, hok, by rw [markdownOfHtml, hok]; rfl, ?_, fun hnone => ?_, fun hsome => ?_⟩
  · rw [Draft.bodyText, String.toList_ofList]
    rcases hlast with hnil | ⟨front, line, hbody, hnewline, hne, -⟩
    · exact Or.inl (by rw [hnil])
    · obtain ⟨init, c, rfl⟩ := List.eq_nil_or_concat line |>.resolve_left hne
      rw [List.concat_eq_append] at hbody hnewline
      refine Or.inr ⟨front ++ init, c, by rw [hbody]; simp, ?_⟩
      rintro rfl
      simp at hnewline
  · rw [Draft.finished, Draft.finish, hnone]
    rfl
  · have hne : draft.body.1 ≠ [] := hdraft.body_ne_nil hsome
    have hone := hdraft.paddingNeeded_eq_one hsome
    refine ⟨fun hempty => hne ?_, ?_, ?_, ?_⟩
    · rw [← String.toList_ofList (l := draft.body.1)]
      exact String.toList_eq_nil_iff.2 hempty
    · rw [Draft.bodyText, String.toList_ofList, hone]
    · rw [Draft.bodyText, String.toList_ofList, hdraft.trimEnd_trailerPrefix, ← hone]
      exact Draft.stopsAfter_paddingNeeded _ _
    · rw [← String.toList_inj, Draft.finished, String.toList_ofList, hdraft.finish_eq,
        Draft.referencePart, if_neg hsome]
      simp [Draft.bodyText, String.toList_append, List.flatMap_map]

end HtmlMarkdown
