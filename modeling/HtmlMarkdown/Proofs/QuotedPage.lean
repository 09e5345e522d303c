import HtmlMarkdown.Layout.Page
import HtmlMarkdown.Proofs.Pieces
import HtmlMarkdown.Proofs.QuotedLines

/-!
The page of a draft whose blocks all stand in one block quote. Lines begin in four places: with a
block, where a line is broken, between blocks, and in front of the references. The margins are
written in all of them. A target is written as it is, so its own lines have no margin.
-/
namespace HtmlMarkdown.Layout

open Text

/-- The texts of the prefix stay on one line. -/
def LinePrefix.OnOneLine (p : LinePrefix) : Prop :=
  '\n' ∉ p.first.toList ∧ '\n' ∉ p.later.toList
deriving Decidable

/-- The prefix of a block quote. -/
def quoteMark : LinePrefix := .uniform "> "

/-- The outermost prefix is that of a block quote, and none of the prefixes breaks the line. -/
structure Quoting (margins : List Margin) : Prop where
  outermost : ∃ margin ∈ margins.head?, margin.linePrefix = quoteMark
  oneLine : ∀ margin ∈ margins, margin.linePrefix.OnOneLine

theorem newline_notMem_renderMargins {margins : List Margin}
    (h : ∀ margin ∈ margins, margin.linePrefix.OnOneLine) (counts : LineCounts) :
    '\n' ∉ (renderMargins margins counts).1 := by
  induction margins generalizing counts with
  | nil => simp [renderMargins]
  | cons margin inner ih =>
    rw [List.forall_mem_cons] at h
    have hinner := ih h.2 (counts.modify margin.slot (· + 1))
    simp only [renderMargins, List.mem_append, not_or]
    refine ⟨?_, hinner⟩
    split
    · exact h.1.1
    · exact h.1.2

namespace Quoting

variable {margins : List Margin}

/-- One more prefix inside the quote. -/
theorem concat (h : Quoting margins) {margin : Margin}
    (hmargin : margin.linePrefix.OnOneLine) : Quoting (margins ++ [margin]) := by
  obtain ⟨outer, houter, hquote⟩ := h.outermost
  refine ⟨⟨outer, ?_, hquote⟩, ?_⟩
  · rw [Option.mem_def] at houter ⊢
    simp [List.head?_append, houter]
  · rw [List.forall_mem_append]
    exact ⟨h.oneLine, by simpa using hmargin⟩

theorem exists_eq (h : Quoting margins) (counts : LineCounts) :
    ∃ start, (renderMargins margins counts).1 = '>' :: start ∧ '\n' ∉ start := by
  have hnotin := newline_notMem_renderMargins h.oneLine counts
  obtain ⟨margin, hmargin, hquote⟩ := h.outermost
  cases margins with
  | nil => simp at hmargin
  | cons outer inner =>
    obtain rfl : outer = margin := by simpa using hmargin
    obtain ⟨start, hstart⟩ : ∃ start, (renderMargins (outer :: inner) counts).1 = '>' :: start := by
      simp [renderMargins, hquote, quoteMark, LinePrefix.uniform]
    rw [hstart, List.mem_cons, not_or] at hnotin
    exact ⟨start, hstart, hnotin.2⟩

/-- Margins in front of a text that continues the quote. -/
theorem margins_append (h : Quoting margins) (counts : LineCounts) {s : List Char}
    (hs : ContinuesQuote s) :
    ((renderMargins margins counts).1 ++ s).head? = some '>' ∧
      ContinuesQuote ((renderMargins margins counts).1 ++ s) := by
  obtain ⟨start, hstart, hnotin⟩ := h.exists_eq counts
  rw [hstart, List.cons_append, continuesQuote_cons_of_ne (by decide)]
  exact ⟨rfl, (continuesQuote_of_notMem hnotin).append hs⟩

/-- Margins whose white space is cut off still begin with the mark. -/
theorem trimEnd_quoted (h : Quoting margins) (counts : LineCounts) :
    QuotedLines (trimEnd (renderMargins margins counts).1 ++ ['\n']) := by
  obtain ⟨start, hstart, hnotin⟩ := h.exists_eq counts
  have hmark : trimEnd ('>' :: start) = '>' :: trimEnd start :=
    dropEndWhile_cons_of_not (by decide) start
  have hsub : (trimEnd start).Sublist start := dropEndWhile_sublist isBlank start
  rw [hstart, hmark]
  refine .single rfl ((continuesQuote_cons_of_ne (by decide)).2 ?_)
  exact continuesQuote_of_notMem fun hmem => hnotin (hsub.subset hmem)

/-! Blocks. -/

/-- Wherever a line is broken or a newline is kept, the margins follow. -/
theorem continuesQuote_layPieces (h : Quoting margins) (maxWidth : Nat) {ps : List Piece}
    (hgap : ∀ p ∈ ps, '\n' ∉ p.gap) (hword : ∀ p ∈ ps, p.isNewline = false → '\n' ∉ p.text)
    (col : Nat) (fresh : Bool) (counts : LineCounts) :
    ContinuesQuote (layPieces margins maxWidth ps col fresh counts).1 := by
  have hbreak : ∀ (counts : LineCounts) {s : List Char}, ContinuesQuote s →
      ContinuesQuote ('\n' :: ((renderMargins margins counts).1 ++ s)) := fun counts _ hs =>
    continuesQuote_newline_cons.2 (h.margins_append counts hs)
  induction ps generalizing col fresh counts with
  | nil => exact continuesQuote_of_notMem (by simp [layPieces])
  | cons p rest ih =>
    rw [List.forall_mem_cons] at hgap hword
    have hmore := ih hgap.2 hword.2
    simp only [layPieces]
    split
    · rename_i hnewline
      -- the newline of the piece is followed by margins, with or without white space in front of it
      have hp : p.word = ['\n'] := by simpa [Piece.isNewline] using hnewline
      have hshown : ∃ gap, '\n' ∉ gap ∧ (if fresh then p.word else p.text) = gap ++ ['\n'] := by
        cases fresh with
        | true => exact ⟨[], by simp, by simp [hp]⟩
        | false => exact ⟨p.gap, hgap.1, by simp [Piece.text, hp]⟩
      obtain ⟨gap, hnotin, hshown⟩ := hshown
      rw [hshown, List.append_assoc, List.append_assoc, List.singleton_append]
      exact (continuesQuote_of_notMem hnotin).append (hbreak counts (hmore _ _ _))
    · rename_i hnewline
      have htext : '\n' ∉ p.text := hword.1 (by simpa using hnewline)
      have hnotin : '\n' ∉ p.word := fun hmem => htext (List.mem_append_right _ hmem)
      split
      · rw [List.cons_append, List.cons_append, List.append_assoc]
        exact hbreak counts ((continuesQuote_of_notMem hnotin).append (hmore _ _ _))
      · have hshown : '\n' ∉ (if fresh then p.word else p.text) := by
          split
          · exact hnotin
          · exact htext
        exact (continuesQuote_of_notMem hshown).append (hmore _ _ _)

theorem wrap_quoted (h : Quoting margins) (text : List Char) (options : BlockOptions)
    (counts : LineCounts) :
    (wrap text margins options counts).1.head? = some '>' ∧
      ContinuesQuote (wrap text margins options counts).1 := by
  have hcut := cut_pieces (flatten options.preserveNewlines text)
  exact h.margins_append counts (h.continuesQuote_layPieces options.maxWidth
    hcut.newline_notMem_gap hcut.newline_notMem _ true _)

/-- The line between two blocks is the margins without the white space around them. -/
theorem separatorLine_quoted {earlier : Block} (h : Quoting earlier.margins) (later : Block)
    (counts : LineCounts) : QuotedLines (separatorLine (some earlier) later counts).1 := by
  simp only [separatorLine]
  split
  · exact .nil
  · have htrim : trim (renderMargins earlier.margins counts).1 =
        trimEnd (renderMargins earlier.margins counts).1 := by
      obtain ⟨start, hstart, -⟩ := h.exists_eq counts
      rw [hstart]
      rfl
    rw [htrim]
    exact h.trimEnd_quoted counts

end Quoting

/-- A block that shows anything stands in the quote. -/
def Block.Quoted (block : Block) : Prop := block.contents ≠ none → Quoting block.margins

/-- Behind the text of a block there is white space at most, and the newline that ends it. -/
theorem Block.Quoted.shown_ending {block : Block} (h : block.Quoted) {counts : LineCounts}
    (hshown : (block.render counts).1 ≠ []) :
    Quoting block.margins ∧ QuotedLines ((block.render counts).1 ++ block.ending) := by
  obtain ⟨contents, hcontents⟩ : ∃ contents, block.contents = some contents := by
    rw [← Option.ne_none_iff_exists']
    intro hnone
    simp [Block.render, hnone] at hshown
  have hquoting : Quoting block.margins := h (by simp [hcontents])
  obtain ⟨hhead, hcontinues⟩ := hquoting.wrap_quoted contents.toList block.options counts
  have hwrap : (block.render counts).1 = (wrap contents.toList block.margins block.options
      counts).1 := by
    rw [Block.render, hcontents]
  rw [← hwrap] at hhead hcontinues
  refine ⟨hquoting, ?_⟩
  unfold Block.ending
  split
  · have hspaces : ContinuesQuote [' ', ' '] := continuesQuote_of_notMem (by decide)
    have hunit := QuotedLines.single (s := (block.render counts).1 ++ [' ', ' '])
      (by rw [List.head?_append, hhead]; rfl) (hcontinues.append hspaces)
    rwa [List.append_assoc] at hunit
  · exact .single hhead hcontinues

theorem joinBlocks_quoted {earlier : Option Block} {blocks : List Block}
    (hearlier : ∀ block ∈ earlier, Quoting block.margins) (hblocks : ∀ block ∈ blocks, block.Quoted)
    (counts : LineCounts) : QuotedLines (joinBlocks earlier blocks counts).1 := by
  induction blocks generalizing earlier counts with
  | nil => exact .nil
  | cons block rest ih =>
    rw [List.forall_mem_cons] at hblocks
    simp only [joinBlocks]
    split
    · exact ih hearlier hblocks.2 _
    · rename_i hshown
      obtain ⟨hquoting, hunit⟩ := hblocks.1.shown_ending (by simpa using hshown)
      have hseparator : QuotedLines
          (separatorLine earlier block (block.render counts).2).1 := by
        cases earlier with
        | none => exact .nil
        | some earlier => exact (hearlier earlier rfl).separatorLine_quoted block _
      have hblock : ∀ earlier ∈ some block, Quoting earlier.margins := by simpa using hquoting
      have hrest := ih hblock hblocks.2 (separatorLine earlier block (block.render counts).2).2
      rw [List.append_assoc _ _ block.ending]
      exact (hseparator.append hunit).append hrest

/-! References. -/

theorem newline_notMem_toString (n : Nat) : '\n' ∉ (toString n).toList := by
  intro hmem
  have hdigit : '\n'.isDigit := by
    refine Nat.isDigit_of_mem_toDigits (b := 10) (n := n) (by decide) (by decide) ?_
    simpa using hmem
  simp at hdigit

/-- Only the target of a reference may bring newlines. -/
theorem continuesQuote_referenceLine_iff (number : Nat) (href : String) :
    ContinuesQuote (Draft.referenceLine number href).toList ↔ ContinuesQuote href.toList := by
  have hnumber := newline_notMem_toString number
  rw [Draft.referenceLine, String.toList_append]
  refine continuesQuote_append_iff (continuesQuote_of_notMem ?_)
  simpa [String.toList_append] using hnumber

/-- The reference lines are quoted exactly if none of them brings a line that is not. -/
theorem Quoting.forall_endedLines_references_iff {margins : List Margin} (h : Quoting margins)
    (counts : LineCounts) (trailers : List String) :
    (∀ line ∈ endedLines (trailers.flatMap fun trailer =>
        (renderMargins margins counts).1 ++ trailer.toList ++ ['\n']), IsQuoted line) ↔
      ∀ trailer ∈ trailers, ContinuesQuote trailer.toList := by
  obtain ⟨start, hstart, hnotin⟩ := h.exists_eq counts
  rw [hstart]
  induction trailers with
  | nil => simp [endedLines, lines, splitAt]
  | cons trailer rest ih =>
    have hfirst : (∀ line ∈ lines ('>' :: start ++ trailer.toList), IsQuoted line) ↔
        ContinuesQuote trailer.toList := by
      rw [forall_lines_isQuoted_iff, List.cons_append, continuesQuote_cons_of_ne (by decide),
        continuesQuote_append_iff (continuesQuote_of_notMem hnotin)]
      simp
    rw [List.flatMap_cons, List.append_assoc, List.singleton_append, endedLines_append_newline,
      List.forall_mem_append, List.forall_mem_cons, ih, hfirst]

namespace Draft

/-- A draft laid out in one block quote that accepts the reference lines. -/
structure Quoted (d : Draft) : Prop where
  blocks : ∀ block ∈ d.blocks, block.Quoted
  accepts : ∃ block ∈ d.blocks, block.options.acceptsTrailers
  accepting : ∀ block ∈ d.blocks, block.options.acceptsTrailers → Quoting block.margins
  trailers_eq : d.trailers = d.hrefs.mapIdx fun i href => referenceLine (i + 1) href

variable {d : Draft}

theorem Quoted.body (h : d.Quoted) : QuotedLines d.body.1 :=
  joinBlocks_quoted (by simp) h.blocks _

/-- The reference lines stand under margins of the quote. -/
theorem Quoted.trailerPrefix_eq (h : d.Quoted) (counts : LineCounts) :
    ∃ margins, Quoting margins ∧ d.trailerPrefix counts = (renderMargins margins counts).1 := by
  unfold trailerPrefix
  cases hfind : d.blocks.reverse.find? (·.options.acceptsTrailers) with
  | none =>
    obtain ⟨block, hblock, haccepts⟩ := h.accepts
    rw [List.find?_eq_none] at hfind
    exact absurd haccepts (hfind block (List.mem_reverse.2 hblock))
  | some block =>
    have hblock : block ∈ d.blocks := List.mem_reverse.1 (List.mem_of_find?_eq_some hfind)
    have haccepts := List.find?_some (p := fun block : Block => block.options.acceptsTrailers) hfind
    exact ⟨block.margins, h.accepting block hblock haccepts, rfl⟩

/-- Every line of the page is quoted exactly if every line that a target brings is. -/
theorem Quoted.forall_endedLines_finish_iff (h : d.Quoted) :
    (∀ line ∈ endedLines d.finish, IsQuoted line) ↔
      ∀ href ∈ d.hrefs, ContinuesQuote href.toList := by
  have htrailers : (∀ trailer ∈ d.trailers, ContinuesQuote trailer.toList) ↔
      ∀ href ∈ d.hrefs, ContinuesQuote href.toList := by
    rw [h.trailers_eq]
    refine ⟨fun hall href hmem => ?_, fun hall trailer hmem => ?_⟩
    · obtain ⟨i, hi, rfl⟩ := List.mem_iff_getElem.1 hmem
      exact (continuesQuote_referenceLine_iff (i + 1) _).1
        (hall _ (List.mem_mapIdx.2 ⟨i, hi, rfl⟩))
    · obtain ⟨i, hi, rfl⟩ := List.mem_mapIdx.1 hmem
      exact (continuesQuote_referenceLine_iff (i + 1) _).2 (hall _ (List.getElem_mem hi))
  rw [← htrailers]
  simp only [finish]
  split
  · rename_i hempty
    rw [List.isEmpty_iff.1 hempty]
    exact iff_of_true h.body.isQuoted_of_mem (by simp)
  · obtain ⟨margins, hquoting, hprefix⟩ := h.trailerPrefix_eq d.body.2
    have hpadding : QuotedLines (padding d.body.1 (trimEnd (d.trailerPrefix d.body.2))) := by
      refine .flatten fun part hpart => ?_
      rw [List.eq_of_mem_replicate hpart, hprefix]
      exact hquoting.trimEnd_quoted d.body.2
    rw [(h.body.append hpadding).forall_endedLines_append_iff, hprefix]
    exact hquoting.forall_endedLines_references_iff d.body.2 d.trailers

end Draft
end HtmlMarkdown.Layout
