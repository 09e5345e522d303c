import HtmlMarkdown.Proofs.QuotedPage
import HtmlMarkdown.Proofs.Rows

/-!
Lines under margins. The rows of a block are written on lines of their own, and what each line
starts with is what the margins show next when all lines before it have been counted. If neither
the rows nor the margins hold a newline, these are the lines of the text.
-/
namespace HtmlMarkdown.Layout

variable {margins : List Margin} {counts : LineCounts}

/-- The counts after the next `n` lines under the margins. -/
def countsAfter (margins : List Margin) (counts : LineCounts) : Nat → LineCounts
  | 0 => counts
  | n + 1 => countsAfter margins (renderMargins margins counts).2 n

/-- What the next line under the margins starts with when `n` lines have come before it. -/
def lineStart (margins : List Margin) (counts : LineCounts) (n : Nat) : List Char :=
  (renderMargins margins (countsAfter margins counts n)).1

/-- Rows on lines of their own, each behind what its line starts with. -/
def linesUnder (margins : List Margin) (counts : LineCounts) (rows : List (List Char)) :
    List Char :=
  ['\n'].intercalate (rows.mapIdx fun n row => lineStart margins counts n ++ row)

theorem linesUnder_cons (row : List Char) (rest : List (List Char)) :
    linesUnder margins counts (row :: rest) = (renderMargins margins counts).1 ++ row
      ++ (rowsUnder margins rest (renderMargins margins counts).2).1 := by
  induction rest generalizing row counts with
  | nil => simp [linesUnder, lineStart, countsAfter, rowsUnder]
  | cons next more ih =>
    have hlater := @ih (renderMargins margins counts).2 next
    simp only [linesUnder, List.mapIdx_cons] at hlater ⊢
    rw [List.intercalate_cons_cons]
    simp only [rowsUnder, List.cons_append, List.append_assoc, List.nil_append] at hlater ⊢
    rw [← hlater]
    rfl

theorem counts_rowsUnder (rows : List (List Char)) :
    (rowsUnder margins rows counts).2 = countsAfter margins counts rows.length := by
  induction rows generalizing counts with
  | nil => rfl
  | cons row rest ih => exact ih

/-- A wrapped text is its rows under the margins. -/
theorem wrap_linesUnder (text : List Char) (options : BlockOptions) :
    ∃ row rest,
      Rows options.maxWidth true (pieces (flatten options.preserveNewlines text)) row rest ∧
      wrap text margins options counts = (linesUnder margins counts (row :: rest),
        countsAfter margins counts (rest.length + 1)) := by
  obtain ⟨row, rest, hrows, hwrap⟩ := wrap_rows text margins options counts
  refine ⟨row, rest, hrows, ?_⟩
  rw [hwrap, linesUnder_cons, counts_rowsUnder]
  rfl

theorem newline_notMem_lineStart (h : ∀ m ∈ margins, m.linePrefix.OnOneLine) (n : Nat) :
    '\n' ∉ lineStart margins counts n :=
  newline_notMem_renderMargins h _

/-- Under prefixes on one line, rows on one line are the lines of what is written. -/
theorem lines_linesUnder (h : ∀ m ∈ margins, m.linePrefix.OnOneLine) {rows : List (List Char)}
    (hne : rows ≠ []) (hrows : ∀ row ∈ rows, '\n' ∉ row) :
    Text.lines (linesUnder margins counts rows) =
      rows.mapIdx fun n row => lineStart margins counts n ++ row := by
  apply Text.lines_intercalate
  · simpa using hne
  · intro part hpart
    obtain ⟨n, hn, rfl⟩ := List.mem_mapIdx.1 hpart
    rw [List.mem_append, not_or]
    exact ⟨newline_notMem_lineStart h n, hrows _ (List.getElem_mem hn)⟩

/-- Only the first row stands in the first line. -/
theorem linesUnder_cons_inj {row row' : List Char} {rest : List (List Char)}
    (h : linesUnder margins counts (row :: rest) = linesUnder margins counts (row' :: rest)) :
    row = row' := by
  rw [linesUnder_cons, linesUnder_cons] at h
  exact List.append_cancel_left (List.append_cancel_right h)

end HtmlMarkdown.Layout
