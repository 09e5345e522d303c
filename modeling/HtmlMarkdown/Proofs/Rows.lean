import HtmlMarkdown.Proofs.Pieces

/-!
The rows of a block. Its words and the white space between them fall into rows, each of which is
written on a line of its own behind the margins. A newline that is kept ends a row; where lines are
broken, a row may also end in front of a word.
-/
namespace HtmlMarkdown.Layout

variable {margins : List Margin} {maxWidth : Nat} {fresh : Bool} {ps : List Piece}
  {row : List Char} {rest : List (List Char)}

/-- How pieces fall into rows: what is added to the row that has been begun, and the rows after
it. The white space in front of the first word of a row is not written. -/
inductive Rows (maxWidth : Nat) : (fresh : Bool) → List Piece → List Char → List (List Char) → Prop
  | nil (fresh : Bool) : Rows maxWidth fresh [] [] []
  | newline {fresh : Bool} {p : Piece} {ps : List Piece} {row : List Char}
      {rest : List (List Char)} (hp : p.isNewline = true) (h : Rows maxWidth false ps row rest) :
      Rows maxWidth fresh (p :: ps) (if fresh then [] else p.gap) (row :: rest)
  | word {fresh : Bool} {p : Piece} {ps : List Piece} {row : List Char}
      {rest : List (List Char)} (hp : p.isNewline = false) (h : Rows maxWidth false ps row rest) :
      Rows maxWidth fresh (p :: ps) ((if fresh then p.word else p.text) ++ row) rest
  | broken {p : Piece} {ps : List Piece} {row : List Char} {rest : List (List Char)}
      (hp : p.isNewline = false) (hwidth : 0 < maxWidth) (h : Rows maxWidth false ps row rest) :
      Rows maxWidth false (p :: ps) [] ((p.word ++ row) :: rest)

/-- Rows on lines of their own behind the margins, each with the newline that ends the line before
it. -/
def rowsUnder (margins : List Margin) : List (List Char) → LineCounts → List Char × LineCounts
  | [], counts => ([], counts)
  | row :: rest, counts =>
    let (start, counts) := renderMargins margins counts
    let (more, counts) := rowsUnder margins rest counts
    ('\n' :: start ++ row ++ more, counts)

theorem layPieces_rows (margins : List Margin) (maxWidth : Nat) (ps : List Piece) (col : Nat)
    (fresh : Bool) (counts : LineCounts) :
    ∃ row rest, Rows maxWidth fresh ps row rest ∧ layPieces margins maxWidth ps col fresh counts =
      (row ++ (rowsUnder margins rest counts).1, (rowsUnder margins rest counts).2) := by
  induction ps generalizing col fresh counts with
  | nil => exact ⟨[], [], .nil fresh, rfl⟩
  | cons p rest ih =>
    simp only [layPieces]
    split
    · rename_i hp
      obtain ⟨row, more, hrows, hlaid⟩ := ih _ false (renderMargins margins counts).2
      refine ⟨_, _, .newline hp hrows, ?_⟩
      rw [hlaid]
      have hword : p.word = ['\n'] := by simpa [Piece.isNewline] using hp
      cases fresh <;> simp [rowsUnder, Piece.text, hword]
    · rename_i hp
      have hp' : p.isNewline = false := by simpa using hp
      split
      · rename_i hbreak
        simp only [Bool.and_eq_true, Bool.not_eq_true', decide_eq_true_eq] at hbreak
        obtain ⟨row, more, hrows, hlaid⟩ := ih _ false (renderMargins margins counts).2
        obtain rfl : fresh = false := hbreak.1.1
        refine ⟨_, _, .broken hp' hbreak.1.2 hrows, ?_⟩
        rw [hlaid]
        simp [rowsUnder]
      · obtain ⟨row, more, hrows, hlaid⟩ := ih _ false counts
        refine ⟨_, _, .word hp' hrows, ?_⟩
        rw [hlaid]
        simp

/-- A wrapped text is its rows behind the margins. -/
theorem wrap_rows (text : List Char) (margins : List Margin) (options : BlockOptions)
    (counts : LineCounts) :
    ∃ row rest,
      Rows options.maxWidth true (pieces (flatten options.preserveNewlines text)) row rest ∧
      wrap text margins options counts =
        ((renderMargins margins counts).1 ++ row
            ++ (rowsUnder margins rest (renderMargins margins counts).2).1,
          (rowsUnder margins rest (renderMargins margins counts).2).2) := by
  obtain ⟨row, rest, hrows, hlaid⟩ := layPieces_rows margins options.maxWidth
    (pieces (flatten options.preserveNewlines text))
    (Text.columns (renderMargins margins counts).1) true (renderMargins margins counts).2
  refine ⟨row, rest, hrows, ?_⟩
  simp only [wrap, hlaid, List.append_assoc]

theorem rowsUnder_concat (rows : List (List Char)) (row : List Char) (counts : LineCounts) :
    (rowsUnder margins (rows ++ [row]) counts).1 = (rowsUnder margins rows counts).1
      ++ '\n' :: ((renderMargins margins (rowsUnder margins rows counts).2).1 ++ row) := by
  induction rows generalizing counts with
  | nil => simp [rowsUnder]
  | cons first rows ih => simp [rowsUnder, ih]

namespace Rows

/-- A row stays on its line. -/
theorem newline_notMem (h : Rows maxWidth fresh ps row rest) (hgap : ∀ p ∈ ps, '\n' ∉ p.gap)
    (htext : ∀ p ∈ ps, p.isNewline = false → '\n' ∉ p.text) :
    ∀ r ∈ row :: rest, '\n' ∉ r := by
  have hword : ∀ p : Piece, '\n' ∉ p.text → '\n' ∉ p.word := fun p hp hmem =>
    hp (List.mem_append_right p.gap hmem)
  induction h with
  | nil => simp
  | @newline fresh p ps row rest hp _ ih =>
    rw [List.forall_mem_cons] at hgap htext ⊢
    refine ⟨?_, ih hgap.2 htext.2⟩
    split
    · simp
    · exact hgap.1
  | @word fresh p ps row rest hp _ ih =>
    rw [List.forall_mem_cons] at hgap htext ⊢
    have hinner := ih hgap.2 htext.2
    rw [List.forall_mem_cons] at hinner
    refine ⟨?_, hinner.2⟩
    have hp' := htext.1 hp
    rw [List.mem_append, not_or]
    refine ⟨?_, hinner.1⟩
    split
    · exact hword p hp'
    · exact hp'
  | @broken p ps row rest hp _ _ ih =>
    rw [List.forall_mem_cons] at hgap htext
    have hinner := ih hgap.2 htext.2
    rw [List.forall_mem_cons] at hinner
    rw [List.forall_mem_cons, List.forall_mem_cons, List.mem_append, not_or]
    exact ⟨by simp, ⟨hword p (htext.1 hp), hinner.1⟩, hinner.2⟩

/-- The last row is not empty, if no newline ends the text. -/
theorem last_ne_nil (h : Rows maxWidth fresh ps row rest) (hword : ∀ p ∈ ps, p.word ≠ [])
    (hlast : ∀ p ∈ ps.getLast?, p.isNewline = false) :
    (rest = [] → ps ≠ [] → row ≠ []) ∧ ∀ r ∈ rest.getLast?, r ≠ [] := by
  have hlater : ∀ (p : Piece) (ps : List Piece), (∀ q ∈ (p :: ps).getLast?, q.isNewline = false) →
      ∀ q ∈ ps.getLast?, q.isNewline = false := by
    intro p ps hall q hq
    refine hall q ?_
    rw [List.getLast?_cons, Option.mem_def.1 hq]
    rfl
  induction h with
  | nil => simp
  | @newline fresh p ps row rest hp _ ih =>
    rw [List.forall_mem_cons] at hword
    obtain ⟨hrow, hrest⟩ := ih hword.2 (hlater p ps hlast)
    refine ⟨by simp, fun r hr => ?_⟩
    cases rest with
    | nil =>
      have hps : ps ≠ [] := by
        rintro rfl
        simp [hp] at hlast
      obtain rfl : row = r := by simpa using hr
      exact hrow rfl hps
    | cons next more => exact hrest r (by simpa [List.getLast?_cons] using hr)
  | @word fresh p ps row rest hp _ ih =>
    rw [List.forall_mem_cons] at hword
    obtain ⟨-, hrest⟩ := ih hword.2 (hlater p ps hlast)
    refine ⟨fun _ _ => ?_, hrest⟩
    split <;> simp [Piece.text, hword.1]
  | @broken p ps row rest hp _ _ ih =>
    rw [List.forall_mem_cons] at hword
    obtain ⟨-, hrest⟩ := ih hword.2 (hlater p ps hlast)
    refine ⟨by simp, fun r hr => ?_⟩
    cases rest with
    | nil =>
      obtain rfl : p.word ++ row = r := by simpa using hr
      simp [hword.1]
    | cons next more => exact hrest r (by simpa [List.getLast?_cons] using hr)

end Rows

/-- The last line of a wrapped text: some row behind the margins. It holds no newline, and it is
empty only if nothing at all is written. -/
theorem wrap_lastLine (text : List Char) (margins : List Margin) (options : BlockOptions)
    (counts : LineCounts) :
    ∃ front row later, (wrap text margins options counts).1 =
        front ++ ((renderMargins margins later).1 ++ row) ∧
      '\n' ∉ row ∧ (front ≠ [] → row ≠ []) := by
  obtain ⟨row, rest, hrows, hwrap⟩ := wrap_rows text margins options counts
  have hcut := cut_pieces (flatten options.preserveNewlines text)
  have hnewline := hrows.newline_notMem hcut.newline_notMem_gap hcut.newline_notMem
  have hlast := hrows.last_ne_nil hcut.word_ne_nil (hcut.isNewline_getLast? (getLast?_flatten _ _))
  rcases List.eq_nil_or_concat rest with rfl | ⟨rows, last, rfl⟩
  · exact ⟨[], row, counts, by simp [hwrap, rowsUnder], hnewline row (by simp), by simp⟩
  · let first := renderMargins margins counts
    let front := first.1 ++ row ++ (rowsUnder margins rows first.2).1 ++ ['\n']
    refine ⟨front, last, (rowsUnder margins rows first.2).2, ?_, hnewline last (by simp),
      fun _ => hlast.2 last (by simp)⟩
    rw [hwrap, List.concat_eq_append, rowsUnder_concat]
    simp [front, first]

end HtmlMarkdown.Layout
