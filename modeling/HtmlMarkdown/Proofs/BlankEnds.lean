import HtmlMarkdown.Proofs.AlikeCounts
import HtmlMarkdown.Proofs.Quotation
import HtmlMarkdown.Proofs.VisibleText

/-!
Lines that end in a space. Prefixes end in a space, so a line that shows nothing else does, too.
Other lines only do where the text is preformatted, and separating lines are trimmed. So how many
lines end in a space does not depend on whether a prefix shows its first text or its later one.
-/
namespace HtmlMarkdown

namespace Text

/-- The number of lines that end in a space. -/
def blankEnds (s : List Char) : Nat := (lines s).countP (·.getLast? = some ' ')

variable {s u : List Char}

theorem blankEnds_append_newline (s u : List Char) :
    blankEnds (s ++ '\n' :: u) = blankEnds s + blankEnds u := by
  rw [blankEnds, lines_append_newline, List.countP_append, blankEnds, blankEnds]

theorem blankEnds_eq (h : '\n' ∉ s) : blankEnds s = if s.getLast? = some ' ' then 1 else 0 := by
  rw [blankEnds, lines_eq_singleton h]
  split <;> simp_all

theorem blankEnds_congr (hs : '\n' ∉ s) (hu : '\n' ∉ u)
    (h : s.getLast? = some ' ' ↔ u.getLast? = some ' ') : blankEnds s = blankEnds u := by
  rw [blankEnds_eq hs, blankEnds_eq hu]
  simp only [h]

/-- The last character is there and is not white. -/
def EndsSolid (s : List Char) : Prop := ∃ c, s.getLast? = some c ∧ isBlank c = false

theorem EndsSolid.append (hu : EndsSolid u) (s : List Char) : EndsSolid (s ++ u) := by
  obtain ⟨c, hc, hblank⟩ := hu
  exact ⟨c, by simp [hc], hblank⟩

theorem EndsSolid.ne_nil (h : EndsSolid s) : s ≠ [] := by
  rintro rfl
  obtain ⟨c, hc, -⟩ := h
  cases hc

theorem EndsSolid.blankEnds_eq_zero (h : EndsSolid s) (hline : '\n' ∉ s) : blankEnds s = 0 := by
  obtain ⟨c, hc, hblank⟩ := h
  rw [blankEnds_eq hline, if_neg]
  rw [hc]
  rintro ⟨⟩
  cases hblank

end Text

namespace Layout

open Document Text

/-! Prefixes. -/

/-- Nothing, or something that ends in a space. -/
def EndsBlank (s : List Char) : Prop := s = [] ∨ s.getLast? = some ' '

theorem EndsBlank.append {s u : List Char} (hs : EndsBlank s) (hu : EndsBlank u) :
    EndsBlank (s ++ u) := by
  rcases hu with rfl | hu
  · rwa [List.append_nil]
  · exact Or.inr (by simp [hu])

theorem EndsBlank.getLast?_eq_iff {s : List Char} (h : EndsBlank s) :
    s.getLast? = some ' ' ↔ s ≠ [] := by
  refine ⟨fun hlast hnil => by simp [hnil] at hlast, h.resolve_left⟩

/-- A prefix on one line that shows nothing or something that ends in a space. -/
structure LinePrefix.Tidy (p : LinePrefix) : Prop where
  oneLine : p.OnOneLine
  first : EndsBlank p.first.toList
  later : EndsBlank p.later.toList
  first_ne : p.later ≠ "" → p.first ≠ ""

theorem tidy_of_blockOf? {k : Kind} {p : LinePrefix} {options : BlockOptions}
    (h : blockOf? k = some (p, options)) : p.Tidy := by
  have hline := onOneLine_of_blockOf? h
  cases k with
  | heading level =>
    obtain ⟨rfl, -⟩ := Prod.mk.inj (Option.some.inj h)
    exact ⟨hline, Or.inr (by simp), Or.inl rfl, by simp⟩
  | numberedItem number =>
    obtain ⟨rfl, -⟩ := Prod.mk.inj (Option.some.inj h)
    exact ⟨hline, Or.inr (by simp [itemMarker]), Or.inr (by simp), by simp [itemMarker]⟩
  | listItem | preformatted | blockquote =>
    obtain ⟨rfl, -⟩ := Prod.mk.inj (Option.some.inj h)
    exact ⟨hline, Or.inr (by decide), Or.inr (by decide), by decide⟩
  | paragraph =>
    obtain ⟨rfl, -⟩ := Prod.mk.inj (Option.some.inj h)
    exact ⟨hline, Or.inl rfl, Or.inl rfl, by decide⟩
  | document | link | bold | italic | orderedList | code | lineBreak | separator => cases h

variable {all margins : List Margin} {c c' : LineCounts}

theorem renderMargins_endsBlank (h : ∀ m ∈ margins, m.linePrefix.Tidy) (c : LineCounts) :
    EndsBlank (renderMargins margins c).1 := by
  induction margins generalizing c with
  | nil => exact Or.inl rfl
  | cons m rest ih =>
    rw [List.forall_mem_cons] at h
    refine EndsBlank.append ?_ (ih h.2 _)
    split
    · exact h.1.first
    · exact h.1.later

/-! Rows. -/

theorem Cut.endsSolid_word {text : List Char} {ps : List Piece} (h : Cut text ps)
    (hline : '\n' ∉ text) (hend : ∀ c, text.getLast? = some c → isBlank c = false) :
    ∀ p ∈ ps, p.isNewline = false ∧ EndsSolid p.word := by
  induction h with
  | nil => simp
  | @blank text hne hgap =>
    obtain ⟨c, hc⟩ := List.getLast?_isSome.2 hne |> Option.isSome_iff_exists.1
    have hblank := isBlank_of_isGap (hgap c (List.mem_of_getLast? hc))
    simp [hend c hc] at hblank
  | newline => simp at hline
  | @word gap word rest ps hgap hne hword hstop _ ih =>
    simp only [List.mem_append, not_or] at hline
    rw [List.forall_mem_cons]
    refine ⟨⟨?_, ?_⟩, ih hline.2.2 fun c hc => hend c (by simp [hc])⟩
    · have hnewline : word ≠ ['\n'] := by
        rintro rfl
        simp at hline
      simpa [Piece.isNewline] using hnewline
    · obtain ⟨c, hc⟩ := List.getLast?_isSome.2 hne |> Option.isSome_iff_exists.1
      exact ⟨c, hc, hword c (List.mem_of_getLast? hc)⟩

/-- Rows of words: each of them ends in a word. -/
theorem Rows.endsSolid {maxWidth : Nat} {fresh : Bool} {ps : List Piece} {row : List Char}
    {rest : List (List Char)} (h : Rows maxWidth fresh ps row rest)
    (hps : ∀ p ∈ ps, p.isNewline = false ∧ EndsSolid p.word) :
    (row = [] ∨ EndsSolid row) ∧ (∀ r ∈ rest, EndsSolid r) ∧
      (fresh = true → ps ≠ [] → EndsSolid row) := by
  -- a word and what is left of its row
  have hbehind : ∀ {s row : List Char}, EndsSolid s → row = [] ∨ EndsSolid row →
      EndsSolid (s ++ row) := by
    rintro s row hs (rfl | hrow)
    · rwa [List.append_nil]
    · exact hrow.append s
  induction h with
  | nil => simp
  | newline hp =>
    rw [List.forall_mem_cons] at hps
    simp [hp] at hps
  | @word fresh p ps row rest hp _ ih =>
    rw [List.forall_mem_cons] at hps
    obtain ⟨hrow, hrest, -⟩ := ih hps.2
    have hfirst : EndsSolid (if fresh then p.word else p.text) := by
      split
      · exact hps.1.2
      · exact hps.1.2.append p.gap
    exact ⟨Or.inr (hbehind hfirst hrow), hrest, fun _ _ => hbehind hfirst hrow⟩
  | @broken p ps row rest hp hwidth _ ih =>
    rw [List.forall_mem_cons] at hps
    obtain ⟨hrow, hrest, -⟩ := ih hps.2
    refine ⟨Or.inl rfl, ?_, by simp⟩
    rw [List.forall_mem_cons]
    exact ⟨hbehind hps.1.2 hrow, hrest⟩

/-- Where no line is broken, the rows are those of the text. -/
theorem Rows.unique {fresh : Bool} {ps : List Piece} {row row' : List Char}
    {rest rest' : List (List Char)} (h : Rows 0 fresh ps row rest)
    (h' : Rows 0 fresh ps row' rest') : row = row' ∧ rest = rest' := by
  induction ps generalizing fresh row row' rest rest' with
  | nil =>
    cases h
    cases h'
    exact ⟨rfl, rfl⟩
  | cons p ps ih =>
    cases h with
    | newline hp h =>
      cases h' with
      | newline _ h' =>
        obtain ⟨rfl, rfl⟩ := ih h h'
        exact ⟨rfl, rfl⟩
      | word hp' => simp [hp] at hp'
      | broken hp' => simp [hp] at hp'
    | word hp h =>
      cases h' with
      | newline hp' => simp [hp] at hp'
      | word _ h' =>
        obtain ⟨rfl, rfl⟩ := ih h h'
        exact ⟨rfl, rfl⟩
      | broken _ hwidth => exact absurd hwidth (Nat.lt_irrefl 0)
    | broken _ hwidth => exact absurd hwidth (Nat.lt_irrefl 0)

/-! Blocks. -/

/-- A line behind margins ends in a space if its row does, or if nothing but the margins is
written. -/
theorem getLast?_margins_append (htidy : ∀ m ∈ margins, m.linePrefix.Tidy) (row : List Char)
    (c : LineCounts) : ((renderMargins margins c).1 ++ row).getLast? = some ' ' ↔
      row.getLast? = some ' ' ∨ (row = [] ∧ (renderMargins margins c).1 ≠ []) := by
  cases row with
  | nil => simp [(renderMargins_endsBlank htidy c).getLast?_eq_iff]
  | cons first rest => simp

theorem newline_notMem_margins (htidy : ∀ m ∈ margins, m.linePrefix.Tidy) (c : LineCounts) :
    '\n' ∉ (renderMargins margins c).1 :=
  newline_notMem_renderMargins (fun m hm => (htidy m hm).oneLine) c

/-- Rows that end in words do not end in a space. -/
theorem blankEnds_rowsUnder_eq_zero (htidy : ∀ m ∈ margins, m.linePrefix.Tidy)
    {rows : List (List Char)} (hrows : ∀ r ∈ rows, EndsSolid r) (hline : ∀ r ∈ rows, '\n' ∉ r)
    {s : List Char} (hs : EndsSolid s) (hs' : '\n' ∉ s) (c : LineCounts) :
    blankEnds (s ++ (rowsUnder margins rows c).1) = 0 := by
  induction rows generalizing s c with
  | nil => simpa [rowsUnder] using hs.blankEnds_eq_zero hs'
  | cons row rest ih =>
    rw [List.forall_mem_cons] at hrows hline
    have hfirst : '\n' ∉ (renderMargins margins c).1 ++ row := by
      simp [newline_notMem_margins htidy c, hline.1]
    have hrest := ih hrows.2 hline.2 (hrows.1.append _) hfirst (renderMargins margins c).2
    simp only [rowsUnder, List.cons_append]
    rw [blankEnds_append_newline, hs.blankEnds_eq_zero hs', hrest]

/-- The same rows behind the same margins end alike. -/
theorem blankEnds_rowsUnder_eq (htidy : ∀ m ∈ margins, m.linePrefix.Tidy) (hsub : margins ⊆ all)
    {rows : List (List Char)} (hline : ∀ r ∈ rows, '\n' ∉ r) {s s' : List Char}
    (hs : '\n' ∉ s) (hs' : '\n' ∉ s') (hend : s.getLast? = some ' ' ↔ s'.getLast? = some ' ')
    (h : AlikeUnder EmptyAlike all c c') :
    blankEnds (s ++ (rowsUnder margins rows c).1) =
      blankEnds (s' ++ (rowsUnder margins rows c').1) := by
  induction rows generalizing s s' c c' with
  | nil => simpa [rowsUnder] using blankEnds_congr hs hs' hend
  | cons row rest ih =>
    rw [List.forall_mem_cons] at hline
    have hfirst : '\n' ∉ (renderMargins margins c).1 ++ row := by
      simp [newline_notMem_margins htidy c, hline.1]
    have hfirst' : '\n' ∉ (renderMargins margins c').1 ++ row := by
      simp [newline_notMem_margins htidy c', hline.1]
    have hnil : _ = [] ↔ _ = [] := h.text looksAlike_emptyAlike hsub
    have hends : ((renderMargins margins c).1 ++ row).getLast? = some ' ' ↔
        ((renderMargins margins c').1 ++ row).getLast? = some ' ' := by
      rw [getLast?_margins_append htidy, getLast?_margins_append htidy, Ne, Ne, hnil]
    have hrest := ih hline.2 hfirst hfirst' hends (h.renderMargins margins)
    simp only [rowsUnder, List.cons_append]
    rw [blankEnds_append_newline, blankEnds_append_newline, blankEnds_congr hs hs' hend, hrest]

theorem rowsUnder_eq_nil_iff (rows : List (List Char)) (c : LineCounts) :
    (rowsUnder margins rows c).1 = [] ↔ rows = [] := by
  cases rows <;> simp [rowsUnder]

/-- How many lines of a text end in a space, and whether there are any, is not up to the counts. -/
theorem wrap_blankEnds (htidy : ∀ m ∈ margins, m.linePrefix.Tidy) (hsub : margins ⊆ all)
    (text : List Char) {options : BlockOptions}
    (hwidth : options.preserveNewlines = true → options.maxWidth = 0)
    (h : AlikeUnder EmptyAlike all c c') :
    EmptyAlike (wrap text margins options c).1 (wrap text margins options c').1 ∧
      blankEnds (wrap text margins options c).1 = blankEnds (wrap text margins options c').1 := by
  obtain ⟨row, rest, hrows, hwrap⟩ := wrap_rows text margins options c
  obtain ⟨row', rest', hrows', hwrap'⟩ := wrap_rows text margins options c'
  have hcut := cut_pieces (flatten options.preserveNewlines text)
  have hline := hrows.newline_notMem hcut.newline_notMem_gap hcut.newline_notMem
  have hline' := hrows'.newline_notMem hcut.newline_notMem_gap hcut.newline_notMem
  have hstart := newline_notMem_margins htidy c
  have hstart' := newline_notMem_margins htidy c'
  have hnil : _ = [] ↔ _ = [] := h.text looksAlike_emptyAlike hsub
  rw [hwrap, hwrap', EmptyAlike]
  rw [List.forall_mem_cons] at hline hline'
  cases hpreserve : options.preserveNewlines with
  | true =>
    rw [hwidth hpreserve] at hrows hrows'
    obtain ⟨rfl, rfl⟩ := hrows.unique hrows'
    refine ⟨by simp [hnil, rowsUnder_eq_nil_iff], ?_⟩
    refine blankEnds_rowsUnder_eq htidy hsub hline.2 (by simp [hstart, hline.1])
      (by simp [hstart', hline.1]) ?_ (h.renderMargins margins)
    rw [getLast?_margins_append htidy, getLast?_margins_append htidy, Ne, Ne, hnil]
  | false =>
    rw [hpreserve] at hcut hrows hrows'
    have hps := hcut.endsSolid_word (newline_notMem_flatten text) fun _ =>
      not_of_getLast?_dropEndWhile
    obtain ⟨-, hrest, hrow⟩ := hrows.endsSolid hps
    obtain ⟨-, hrest', hrow'⟩ := hrows'.endsSolid hps
    by_cases hpieces : pieces (flatten false text) = []
    · rw [hpieces] at hrows hrows'
      cases hrows
      cases hrows'
      simp only [rowsUnder, List.append_nil]
      refine ⟨hnil, blankEnds_congr hstart hstart' ?_⟩
      rw [(renderMargins_endsBlank htidy c).getLast?_eq_iff,
        (renderMargins_endsBlank htidy c').getLast?_eq_iff, Ne, Ne, hnil]
    · have hsolid := (hrow rfl hpieces).append (renderMargins margins c).1
      have hsolid' := (hrow' rfl hpieces).append (renderMargins margins c').1
      rw [blankEnds_rowsUnder_eq_zero htidy hrest hline.2 hsolid (by simp [hstart, hline.1]),
        blankEnds_rowsUnder_eq_zero htidy hrest' hline'.2 hsolid' (by simp [hstart', hline'.1])]
      simp [(hrow rfl hpieces).ne_nil, (hrow' rfl hpieces).ne_nil]

/-! Pages. -/

/-- A block whose margins are tidy. It does not end with a hard break, and lines are not broken
where newlines are kept. -/
structure Block.Tidy (block : Block) : Prop where
  margins : ∀ m ∈ block.margins, m.linePrefix.Tidy
  noHardBreak : block.options.endsWithHardBreak = false
  width : block.options.preserveNewlines = true → block.options.maxWidth = 0

variable {b : Block}

theorem Block.Tidy.render (hb : b.Tidy) (hsub : b.margins ⊆ all)
    (h : AlikeUnder EmptyAlike all c c') : EmptyAlike (b.render c).1 (b.render c').1 ∧
      blankEnds (b.render c).1 = blankEnds (b.render c').1 := by
  unfold Block.render
  split
  · exact ⟨Iff.rfl, rfl⟩
  · exact wrap_blankEnds hb.margins hsub _ hb.width h

/-- A separating line does not end in a space. -/
theorem blankEnds_separatorLine {earlier : Option Block} (h : ∀ b ∈ earlier, b.Tidy) (later : Block)
    (c : LineCounts) (s : List Char) :
    blankEnds ((separatorLine earlier later c).1 ++ s) = blankEnds s := by
  cases earlier with
  | none => rfl
  | some b =>
    simp only [separatorLine]
    split
    · rfl
    · let start := (renderMargins b.margins c).1
      have hline : '\n' ∉ trim start := fun hmem =>
        newline_notMem_margins (h b rfl).margins c
          ((List.dropWhile_sublist _).subset ((dropEndWhile_sublist _ _).subset hmem))
      have hend : (trim start).getLast? ≠ some ' ' := fun hlast => by
        have hnot : isBlank ' ' = false := not_of_getLast?_dropEndWhile hlast
        cases hnot
      rw [List.append_assoc, List.cons_append, List.nil_append, blankEnds_append_newline,
        blankEnds_eq hline, if_neg hend, Nat.zero_add]

/-- Whatever stands in front, and where lines have been written, as many lines end in a space. -/
theorem blankEnds_joinBlocks {earlier earlier' : Option Block} {blocks : List Block}
    (hblocks : ∀ b ∈ blocks, b.Tidy ∧ b.margins ⊆ all ∧ Counted b.margins c)
    (he : ∀ b ∈ earlier, b.Tidy ∧ Written b.margins c)
    (he' : ∀ b ∈ earlier', b.Tidy ∧ Written b.margins c') (h : AlikeUnder EmptyAlike all c c') :
    blankEnds (joinBlocks earlier blocks c).1 = blankEnds (joinBlocks earlier' blocks c').1 := by
  induction blocks generalizing earlier earlier' c c' with
  | nil => rfl
  | cons b rest ih =>
    rw [List.forall_mem_cons] at hblocks
    obtain ⟨⟨htidy, hsub, hcounted⟩, hrest⟩ := hblocks
    have hcounted' : Counted b.margins c' := hcounted.of_length_eq h.length_eq.symm
    obtain ⟨hnil, hends⟩ := htidy.render hsub h
    have hnext := b.render_alikeUnder hcounted h
    have hlater : ∀ {c₁ : LineCounts}, c₁.length = c.length →
        ∀ b ∈ rest, b.Tidy ∧ b.margins ⊆ all ∧ Counted b.margins c₁ := fun hc₁ b hb =>
      ⟨(hrest b hb).1, (hrest b hb).2.1, (hrest b hb).2.2.of_length_eq hc₁⟩
    have hlength := Block.length_render b c
    have he₁ : ∀ b' ∈ earlier, b'.Tidy ∧ Written b'.margins (b.render c).2 := fun b' hb' =>
      ⟨(he b' hb').1, (he b' hb').2.render hcounted⟩
    have he₁' : ∀ b' ∈ earlier', b'.Tidy ∧ Written b'.margins (b.render c').2 := fun b' hb' =>
      ⟨(he' b' hb').1, (he' b' hb').2.render hcounted'⟩
    by_cases hshown : (b.render c).1 = []
    · rw [joinBlocks_cons_of_nil hshown, joinBlocks_cons_of_nil (hnil.1 hshown)]
      exact ih (hlater hlength) he₁ he₁' hnext
    · have hcontents : b.contents ≠ none := fun hnone => hshown (by rw [Block.render, hnone])
      have hzeros := separatorLine_sameZeros (fun b' hb' => (he₁ b' hb').2) b
      have hzeros' := separatorLine_sameZeros (fun b' hb' => (he₁' b' hb').2) b
      have hwritten := (b.written_render hcounted hcontents).of_sameZeros hzeros
      have hwritten' := (b.written_render hcounted' hcontents).of_sameZeros hzeros'
      have hsome : ∀ {c₁ : LineCounts}, Written b.margins c₁ →
          ∀ b' ∈ some b, b'.Tidy ∧ Written b'.margins c₁ := fun hc₁ b' hb' => by
        obtain rfl : b = b' := by simpa using hb'
        exact ⟨htidy, hc₁⟩
      have hmore := ih (hlater (hzeros.length_eq.symm.trans hlength)) (hsome hwritten)
        (hsome hwritten') (hzeros.alikeUnder.symm.trans (hnext.trans hzeros'.alikeUnder))
      rw [joinBlocks_cons_of_ne hshown, joinBlocks_cons_of_ne (mt hnil.2 hshown), Block.ending,
        if_neg (by simp [htidy.noHardBreak])]
      simp only [List.append_assoc, List.cons_append, List.nil_append]
      rw [blankEnds_separatorLine fun b' hb' => (he b' hb').1,
        blankEnds_separatorLine fun b' hb' => (he' b' hb').1, blankEnds_append_newline,
        blankEnds_append_newline, hends, hmore]

end Layout
end HtmlMarkdown
