import HtmlMarkdown.Proofs.MarginLines
import HtmlMarkdown.Proofs.VisibleText

/-!
Text whose newlines are kept. If no line is broken either, the rows are the lines of the text, with
one exception: the white space that the text begins with is not written, just as in front of the
first word of a text that flows.
-/
namespace HtmlMarkdown.Layout

open Text

variable {text : List Char} {ps : List Piece} {row : List Char} {rest : List (List Char)}

/-- A text of white space on a line. -/
def IsBlankLine (first : List Char) (rest : List (List Char)) : Prop :=
  rest = [] ∧ ∀ c ∈ first, isBlank c

instance (first : List Char) (rest : List (List Char)) : Decidable (IsBlankLine first rest) :=
  inferInstanceAs (Decidable (_ ∧ _))

/-- What is written of a text's first line, given the lines after it. White space at the end of a
text is a word, so nothing stands in front of it. -/
def shownFirst (first : List Char) (rest : List (List Char)) : List Char :=
  if IsBlankLine first rest then first else first.dropWhile isBlank

theorem isNewline_of_notMem {gap word : List Char} (h : '\n' ∉ word) :
    (⟨gap, word⟩ : Piece).isNewline = false := by
  rw [Piece.isNewline, beq_eq_false_iff_ne]
  rintro rfl
  exact h (List.mem_singleton_self _)

theorem shownFirst_gap {gap : List Char} (hgap : ∀ c ∈ gap, isGap c) (hrest : rest ≠ []) :
    shownFirst gap rest = [] := by
  have hblank : ∀ c ∈ gap, isBlank c := fun c hc => isBlank_of_isGap (hgap c hc)
  rw [shownFirst, if_neg fun h => hrest h.1, List.dropWhile_eq_nil_iff.2 hblank]

theorem shownFirst_gap_append {gap word : List Char} (hgap : ∀ c ∈ gap, isGap c)
    (hne : word ≠ []) (hword : ∀ c ∈ word, isBlank c = false) (row : List Char)
    (rest : List (List Char)) : shownFirst (gap ++ (word ++ row)) rest = word ++ row := by
  have hblank : ∀ c ∈ gap, isBlank c := fun c hc => isBlank_of_isGap (hgap c hc)
  have hnot : ¬ IsBlankLine (gap ++ (word ++ row)) rest := by
    intro h
    obtain ⟨c, hc⟩ := List.exists_mem_of_ne_nil word hne
    have hc' := h.2 c (by simp [hc])
    rw [hword c hc] at hc'
    cases hc'
  rw [shownFirst, if_neg hnot, dropWhile_gap_append hblank hne hword]

/-- All of the first line is shown if there is no white space in front of it, or nothing else. -/
theorem shownFirst_eq_self_iff (first : List Char) (rest : List (List Char)) :
    shownFirst first rest = first ↔
      IsBlankLine first rest ∨ ∀ c ∈ first.head?, isBlank c = false := by
  unfold shownFirst
  split
  · simp [*]
  · cases first with
    | nil => simp
    | cons c row =>
      have hshort := (List.dropWhile_sublist (l := row) isBlank).length_le
      cases hc : isBlank c with
      | false => simp [hc]
      | true =>
        have hne : row.dropWhile isBlank ≠ c :: row := by
          intro heq
          rw [heq, List.length_cons] at hshort
          omega
        simp [*]

/-- Behind the first piece the rows are the lines of the text. -/
theorem Rows.lines_eq (hcut : Cut text ps) (h : Rows 0 false ps row rest) :
    lines text = row :: rest := by
  induction hcut generalizing row rest with
  | nil =>
    cases h
    rfl
  | @blank text hne hgap =>
    have hline := newline_notMem_of_isGap hgap
    cases h with
    | newline hp => simp [isNewline_of_notMem hline] at hp
    | word hp h =>
      cases h
      simpa [Piece.text] using lines_eq_singleton hline
    | broken _ hwidth => exact absurd hwidth (Nat.lt_irrefl 0)
  | @newline gap later ps hgap _ ih =>
    cases h with
    | newline _ h =>
      rw [lines_append_newline, lines_eq_singleton (newline_notMem_of_isGap hgap), ih h]
      rfl
    | word hp => simp [Piece.isNewline] at hp
    | broken hp => simp [Piece.isNewline] at hp
  | @word gap word later ps hgap hne hword _ _ ih =>
    have hline := newline_notMem_of_isGap hgap
    have hline' := newline_notMem_of_solid hword
    cases h with
    | newline hp => simp [isNewline_of_notMem hline'] at hp
    | word _ h =>
      rw [lines_append_of_notMem hline (lines_append_of_notMem hline' (ih h))]
      simp [Piece.text]
    | broken _ hwidth => exact absurd hwidth (Nat.lt_irrefl 0)

/-- The rows of a text are its lines, except for what is not shown of the first one. -/
theorem Rows.exists_lines_eq (hcut : Cut text ps) (h : Rows 0 true ps row rest) :
    ∃ first, lines text = first :: rest ∧ row = shownFirst first rest := by
  cases hcut with
  | nil =>
    cases h
    exact ⟨[], rfl, by simp [shownFirst]⟩
  | blank hne hgap =>
    have hline := newline_notMem_of_isGap hgap
    cases h with
    | newline hp => simp [isNewline_of_notMem hline] at hp
    | word hp h =>
      cases h
      have hblank : IsBlankLine text [] := ⟨rfl, fun c hc => isBlank_of_isGap (hgap c hc)⟩
      exact ⟨text, lines_eq_singleton hline, by simp [shownFirst, hblank]⟩
  | @newline gap later ps hgap hcut =>
    cases h with
    | newline _ h =>
      have hlines := Rows.lines_eq hcut h
      refine ⟨gap, ?_, (shownFirst_gap hgap (List.cons_ne_nil _ _)).symm⟩
      rw [lines_append_newline, lines_eq_singleton (newline_notMem_of_isGap hgap), hlines]
      rfl
    | word hp => simp [Piece.isNewline] at hp
  | @word gap word later ps hgap hne hword _ hcut =>
    have hline := newline_notMem_of_isGap hgap
    have hline' := newline_notMem_of_solid hword
    cases h with
    | newline hp => simp [isNewline_of_notMem hline'] at hp
    | @word _ _ _ row _ _ h =>
      have hlines := Rows.lines_eq hcut h
      refine ⟨gap ++ (word ++ row), ?_, (shownFirst_gap_append hgap hne hword row rest).symm⟩
      exact lines_append_of_notMem hline (lines_append_of_notMem hline' hlines)

/-- Where newlines are kept and no line is broken, a text is written line by line. All its lines
are written as they are, if the first of them does not begin with white space or is white space and
the only one; else only that white space is missing. -/
theorem wrap_keptLines (text : List Char) (margins : List Margin) (options : BlockOptions)
    (counts : LineCounts) (hkeep : options.preserveNewlines = true)
    (hwidth : options.maxWidth = 0) :
    ∃ first rest, lines (stripTrailingNewlines text) = first :: rest ∧
      wrap text margins options counts = (linesUnder margins counts (shownFirst first rest :: rest),
        countsAfter margins counts (rest.length + 1)) ∧
      ((wrap text margins options counts).1 = linesUnder margins counts (first :: rest) ↔
        IsBlankLine first rest ∨ ∀ c ∈ first.head?, isBlank c = false) := by
  obtain ⟨row, rest, hrows, hwrap⟩ := @wrap_linesUnder margins counts text options
  rw [hkeep, hwidth] at hrows
  have hcut := cut_pieces (flatten true text)
  obtain ⟨first, hlines, rfl⟩ := hrows.exists_lines_eq hcut
  refine ⟨first, rest, hlines, hwrap, ?_⟩
  rw [hwrap, ← shownFirst_eq_self_iff]
  refine ⟨linesUnder_cons_inj, fun heq => ?_⟩
  rw [heq]

/-- How the text of a preformatted block is laid out. -/
def literal : BlockOptions := { maxWidth := 0, preserveNewlines := true }

/-- The margin of a preformatted block that is the first to be opened. -/
def indentation : Margin := ⟨.uniform "    ", 0⟩

theorem wrap_keptLines_branch : literal.preserveNewlines = true ∧ literal.maxWidth = 0 ∧
    ∃ first rest, lines (stripTrailingNewlines "if a:\n\n  b()  \nc()\n\n".toList) = first :: rest ∧
      wrap "if a:\n\n  b()  \nc()\n\n".toList [indentation] literal [0] =
        (linesUnder [indentation] [0] (shownFirst first rest :: rest),
          countsAfter [indentation] [0] (rest.length + 1)) ∧
      ((wrap "if a:\n\n  b()  \nc()\n\n".toList [indentation] literal [0]).1 =
          linesUnder [indentation] [0] (first :: rest) ↔
        IsBlankLine first rest ∨ ∀ c ∈ first.head?, isBlank c = false) :=
  ⟨rfl, rfl, wrap_keptLines "if a:\n\n  b()  \nc()\n\n".toList [indentation] literal [0] rfl rfl⟩

/-- The white space in front of the first line is lost, and that of the second line is not. -/
theorem wrap_keptLines_indentedFirst :
    lines (stripTrailingNewlines "  a\n  b".toList) = ["  a".toList, "  b".toList] ∧
      (wrap "  a\n  b".toList [indentation] literal [0]).1 = "    a\n      b".toList ∧
      linesUnder [indentation] [0] ["  a".toList, "  b".toList] = "      a\n      b".toList ∧
      "    a\n      b".toList ≠ "      a\n      b".toList :=
  ⟨by decide, by decide +kernel, by decide, by decide⟩

end HtmlMarkdown.Layout
