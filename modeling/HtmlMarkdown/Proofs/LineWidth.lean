import HtmlMarkdown.Proofs.ClusterWidth
import HtmlMarkdown.Proofs.GreedyRows

/-!
The width of wrapped lines. The columns of the words on a line are counted word by word, with the
white space in front of each, and the line as a whole is never wider than that. So a line that has
taken more than one word is within the width that it was broken at.
-/
namespace HtmlMarkdown.Layout

open Text

variable {text : List Char} {p : Piece} {ps row : List Piece} {rows : List (List Piece)}

theorem columns_flatMap_le (ps : List Piece) :
    columns (ps.flatMap Piece.text) ≤ totalColumns ps := by
  induction ps with
  | nil => exact Nat.le_refl _
  | cons p ps ih =>
    have happend := columns_append_le p.text (ps.flatMap Piece.text)
    rw [List.flatMap_cons, totalColumns]
    omega

/-- The words of a row are not wider than they have been counted. -/
theorem columns_rowText_le (hgap : ∀ p ∈ row, ∀ c ∈ p.gap, isBlank c) :
    columns (rowText row) ≤ totalColumns row := by
  cases row with
  | nil => exact Nat.le_refl _
  | cons p ps =>
    have hfirst : columns p.word ≤ columns p.text :=
      columns_le_append (hgap p (List.mem_cons_self ..)) p.word
    have hrest := columns_flatMap_le ps
    have happend := columns_append_le p.word (ps.flatMap Piece.text)
    rw [rowText, totalColumns]
    omega

/-- Words that have been put on one line fit on it, if there are several. -/
theorem Fits.columns_le {maxWidth : Nat} {start : List Char} (h : Fits maxWidth start row)
    (hwidth : 0 < maxWidth) (hgap : ∀ p ∈ row, ∀ c ∈ p.gap, isBlank c) (hmany : 1 < row.length) :
    columns (start ++ rowText row) ≤ maxWidth := by
  rcases List.eq_nil_or_concat row with rfl | ⟨before, last, rfl⟩
  · simp at hmany
  · rw [List.concat_eq_append] at h hgap hmany ⊢
    have hbefore : before ≠ [] := by
      rintro rfl
      simp at hmany
    have hlast := h before last [] rfl hbefore
    have hrow := columns_rowText_le hgap
    have happend := columns_append_le start (rowText (before ++ [last]))
    rw [totalColumns_concat] at hrow
    simp only [Overflows, not_and, Nat.not_lt] at hlast
    have hfits := hlast hwidth
    omega

theorem mem_flatMap_of_mem_rowText {c : Char} (hc : c ∈ rowText row) :
    c ∈ row.flatMap Piece.text := by
  cases row with
  | nil => exact hc
  | cons p ps =>
    rw [rowText, List.mem_append] at hc
    rw [List.flatMap_cons, List.mem_append, Piece.text, List.mem_append]
    exact hc.imp_left Or.inr

/-- A row of words of a text on one line is on one line. -/
theorem Words.newline_notMem_rowText (h : Words text rows.flatten) (hline : '\n' ∉ text)
    (hrow : row ∈ rows) : '\n' ∉ rowText row := by
  intro hmem
  obtain ⟨p, hp, hpmem⟩ := List.mem_flatMap.1 (mem_flatMap_of_mem_rowText hmem)
  refine hline ?_
  rw [← h.text_eq]
  exact List.mem_flatMap.2 ⟨p, List.mem_flatten.2 ⟨row, hrow, hp⟩, hpmem⟩

/-- Where lines of a text that flows are broken, each line is within the width, unless it is what
the line starts with and at most one word. -/
theorem wrap_width (text : List Char) (margins : List Margin) (options : BlockOptions)
    (counts : LineCounts) (hflow : options.preserveNewlines = false)
    (hwidth : 0 < options.maxWidth) (hmargins : ∀ m ∈ margins, m.linePrefix.OnOneLine) :
    ∃ words, Words (flatten false text) words ∧
      ∀ n line, (lines (wrap text margins options counts).1)[n]? = some line →
        columns line ≤ options.maxWidth ∨
          ∃ word, (word = [] ∨ word ∈ words.map Piece.word) ∧
            line = lineStart margins counts n ++ word := by
  have hwords := words_pieces text
  refine ⟨pieces (flatten false text), hwords, fun n line hline => ?_⟩
  by_cases hne : pieces (flatten false text) = []
  · have hwrap : (wrap text margins options counts).1 = lineStart margins counts 0 := by
      simp only [wrap, hflow, hne, layPieces, List.append_nil]
      rfl
    rw [hwrap, lines_eq_singleton (newline_notMem_lineStart hmargins 0)] at hline
    obtain ⟨rfl, rfl⟩ : n = 0 ∧ lineStart margins counts 0 = line := by
      cases n <;> simp_all
    exact Or.inr ⟨[], Or.inl rfl, by rw [List.append_nil]⟩
  · obtain ⟨rows, hflat, hgreedy, hwrap⟩ := exists_greedy_rows text margins hflow counts hne
    rw [← hflat] at hwords hne ⊢
    have honeLine : ∀ row ∈ rows.map rowText, '\n' ∉ row := by
      intro row hrow
      obtain ⟨words, hmem, rfl⟩ := List.mem_map.1 hrow
      exact hwords.newline_notMem_rowText (newline_notMem_flatten text) hmem
    have hrows : rows.map rowText ≠ [] := by
      rintro hnil
      simp [List.map_eq_nil_iff.1 hnil] at hne
    rw [hwrap, lines_linesUnder hmargins hrows honeLine, List.getElem?_mapIdx,
      List.getElem?_map, Option.map_map, Option.map_eq_some_iff] at hline
    obtain ⟨row, hrow, rfl⟩ := hline
    have hmem : row ∈ rows := List.mem_of_getElem? hrow
    have hsub : ∀ p ∈ row, p ∈ rows.flatten := fun p hp => List.mem_flatten.2 ⟨row, hmem, hp⟩
    by_cases hmany : 1 < row.length
    · refine Or.inl ((hgreedy.fits n row hrow).columns_le hwidth ?_ hmany)
      exact fun p hp => hwords.gap p (hsub p hp)
    · -- a row has a word, and this one has no second
      obtain ⟨p, hp⟩ : ∃ p, row = [p] := by
        have hpos := List.length_pos_iff.2 (hgreedy.ne_nil row hmem)
        exact List.length_eq_one_iff.1 (by omega)
      subst hp
      refine Or.inr ⟨p.word, Or.inr (List.mem_map.2 ⟨p, hsub p (by simp), rfl⟩), ?_⟩
      simp [rowText]

/-- The space in front of the second word is one column with the mark that it carries. -/
theorem wrap_width_combiningMarks :
    ({ maxWidth := 9 } : BlockOptions).preserveNewlines = false ∧ 0 < 9 ∧
    (∀ m ∈ [bullet], m.linePrefix.OnOneLine) ∧
    ∃ words, Words (flatten false "cafe\u0301 \u0301a longest\nof all".toList) words ∧
      ∀ n line, (lines (wrap "cafe\u0301 \u0301a longest\nof all".toList [bullet]
          { maxWidth := 9 } [0]).1)[n]? = some line →
        columns line ≤ 9 ∨ ∃ word, (word = [] ∨ word ∈ words.map Piece.word) ∧
          line = lineStart [bullet] [0] n ++ word :=
  have hmargins : ∀ m ∈ [bullet], m.linePrefix.OnOneLine := by
    simp [bullet, LinePrefix.OnOneLine]
  ⟨rfl, by decide, hmargins, wrap_width "cafe\u0301 \u0301a longest\nof all".toList [bullet]
    { maxWidth := 9 } [0] rfl (by decide) hmargins⟩

-- on the second line the mark joins the last space of the margin
example : wrap "cafe\u0301 \u0301a longest\nof all".toList [bullet] { maxWidth := 9 } [0] =
    ("  - cafe\u0301\n    \u0301a\n    longest\n    of\n    all".toList, [5]) := by decide +kernel

end HtmlMarkdown.Layout
