import HtmlMarkdown.Proofs.MarginLines
import HtmlMarkdown.Proofs.VisibleText

/-!
Greedy line breaking. A text that flows falls into words, and the words into rows. A row takes
every word that fits behind those it already has, so a text, the starts of its lines and a width
leave no choice. Wrapping writes just these rows.
-/
namespace HtmlMarkdown.Layout

open Text

/-! Words. -/

/-- The text as words, each with the white space in front of it. No word can be made longer, and
no white space follows the last one. -/
structure Words (text : List Char) (ps : List Piece) : Prop where
  text_eq : ps.flatMap Piece.text = text
  gap : ∀ p ∈ ps, ∀ c ∈ p.gap, isBlank c
  word : ∀ p ∈ ps, p.word ≠ [] ∧ ∀ c ∈ p.word, isBlank c = false
  gap_ne_nil : ∀ p ∈ ps.tail, p.gap ≠ []

/-- Where no newline is kept and no white space ends the text, its pieces are its words. -/
theorem Cut.words {text : List Char} {ps : List Piece} (h : Cut text ps) (hline : '\n' ∉ text)
    (hend : ∀ c, text.getLast? = some c → isBlank c = false) : Words text ps := by
  induction h with
  | nil => exact ⟨rfl, by simp, by simp, by simp⟩
  | @blank text hne hgap =>
    have hlast := List.getLast?_eq_some_getLast hne
    have hblank := isBlank_of_isGap (hgap _ (List.getLast_mem hne))
    rw [hend _ hlast] at hblank
    cases hblank
  | newline => simp at hline
  | @word gap word rest ps hgap hne hword hstop hrest ih =>
    simp only [List.mem_append, not_or] at hline
    have hwords := ih hline.2.2 fun c hc => hend c (by simp [hc])
    refine ⟨?_, ?_, ?_, ?_⟩
    · rw [List.flatMap_cons, hwords.text_eq, Piece.text, List.append_assoc]
    · rw [List.forall_mem_cons]
      exact ⟨fun c hc => isBlank_of_isGap (hgap c hc), hwords.gap⟩
    · rw [List.forall_mem_cons]
      exact ⟨⟨hne, hword⟩, hwords.word⟩
    · -- what stops the word is white, so the next word has white space in front of it
      cases ps with
      | nil => simp
      | cons next more =>
        rw [List.tail_cons, List.forall_mem_cons]
        refine ⟨fun hnil => ?_, hwords.gap_ne_nil⟩
        obtain ⟨hnext, hsolid⟩ := hwords.word next (List.mem_cons_self ..)
        obtain ⟨c, front, hfront⟩ := List.exists_cons_of_ne_nil hnext
        have htext : rest = c :: (front ++ more.flatMap Piece.text) := by
          rw [← hwords.text_eq, List.flatMap_cons, Piece.text, hnil, hfront]
          rfl
        have hblank := hstop c (by simp [htext])
        rw [hsolid c (by simp [hfront])] at hblank
        cases hblank

theorem words_pieces (text : List Char) :
    Words (flatten false text) (pieces (flatten false text)) :=
  (cut_pieces _).words (newline_notMem_flatten text) fun _ => not_of_getLast?_dropEndWhile

namespace Words

variable {text : List Char} {p : Piece} {ps : List Piece}

theorem tail (h : Words text (p :: ps)) : Words (ps.flatMap Piece.text) ps := by
  have hgap := h.gap
  have hword := h.word
  rw [List.forall_mem_cons] at hgap hword
  exact ⟨rfl, hgap.2, hword.2, fun q hq => h.gap_ne_nil q (List.mem_of_mem_tail hq)⟩

/-- The first word begins behind all white space and goes on until there is some again. -/
theorem span_eq (h : Words text (p :: ps)) : p.gap = text.takeWhile isBlank ∧
    p.word = (text.dropWhile isBlank).takeWhile (!isBlank ·) := by
  have hgap := h.gap p (List.mem_cons_self ..)
  obtain ⟨hne, hword⟩ := h.word p (List.mem_cons_self ..)
  obtain ⟨c, front, hfront⟩ := List.exists_cons_of_ne_nil hne
  have hc : isBlank c = false := hword c (by simp [hfront])
  have htext : text = p.gap ++ (p.word ++ ps.flatMap Piece.text) := by
    rw [← h.text_eq, List.flatMap_cons, Piece.text, List.append_assoc]
  have hdrop : text.dropWhile isBlank = p.word ++ ps.flatMap Piece.text := by
    rw [htext, dropWhile_gap_append hgap hne hword]
  have htake : text.takeWhile isBlank = p.gap := by
    rw [htext, List.takeWhile_append_of_pos hgap, hfront, List.cons_append,
      List.takeWhile_cons_of_neg (by simp [hc]), List.append_nil]
  refine ⟨htake.symm, ?_⟩
  rw [hdrop, List.takeWhile_append_of_pos fun c hc => by simp [hword c hc]]
  -- the word ends with the text, or in front of the white space of the next one
  cases ps with
  | nil => simp
  | cons next more =>
    have hnext := h.gap_ne_nil next (by simp)
    obtain ⟨b, behind, hbehind⟩ := List.exists_cons_of_ne_nil hnext
    have hb : isBlank b = true := h.gap next (by simp) b (by simp [hbehind])
    rw [List.flatMap_cons, Piece.text, hbehind, List.cons_append, List.cons_append,
      List.takeWhile_cons_of_neg (by simp [hb]), List.append_nil]

/-- A text has only one list of words. -/
theorem unique {qs : List Piece} (h : Words text ps) (h' : Words text qs) : ps = qs := by
  induction ps generalizing text qs with
  | nil =>
    cases qs with
    | nil => rfl
    | cons q qs =>
      obtain ⟨hne, -⟩ := h'.word q (List.mem_cons_self ..)
      have htext := h'.text_eq.trans h.text_eq.symm
      simp [Piece.text, hne] at htext
  | cons p ps ih =>
    cases qs with
    | nil =>
      obtain ⟨hne, -⟩ := h.word p (List.mem_cons_self ..)
      have htext := h.text_eq.trans h'.text_eq.symm
      simp [Piece.text, hne] at htext
    | cons q qs =>
      obtain ⟨hgap, hword⟩ := h.span_eq
      obtain ⟨hgap', hword'⟩ := h'.span_eq
      have hpq : p = q := by
        cases p
        cases q
        simp_all
      subst hpq
      have htext := h.text_eq.trans h'.text_eq.symm
      rw [List.flatMap_cons, List.flatMap_cons] at htext
      have hrest : qs.flatMap Piece.text = ps.flatMap Piece.text :=
        (List.append_cancel_left htext).symm
      rw [ih h.tail (hrest ▸ h'.tail)]

end Words

/-! Rows. -/

/-- The columns of words with the white space in front of each. -/
def totalColumns : List Piece → Nat
  | [] => 0
  | p :: ps => columns p.text + totalColumns ps

theorem totalColumns_concat (ps : List Piece) (p : Piece) :
    totalColumns (ps ++ [p]) = totalColumns ps + columns p.text := by
  induction ps with
  | nil => simp [totalColumns]
  | cons q ps ih => simp [totalColumns, ih, Nat.add_assoc]

/-- The words of a row as they are written, without the white space in front of the first. -/
def rowText : List Piece → List Char
  | [] => []
  | p :: ps => p.word ++ ps.flatMap Piece.text

/-- The word does not fit on a line that has the words `row` already. The white space in front of
the first of them is not written, but it counts. -/
def Overflows (maxWidth : Nat) (start : List Char) (row : List Piece) (p : Piece) : Prop :=
  0 < maxWidth ∧ maxWidth < columns start + totalColumns row + columns p.text

/-- Every word of the row but the first fits behind those before it. -/
def Fits (maxWidth : Nat) (start : List Char) (row : List Piece) : Prop :=
  ∀ before p after, row = before ++ p :: after → before ≠ [] →
    ¬ Overflows maxWidth start before p

/-- Words in rows, where line `n` starts with `starts n`: a row ends in front of a word exactly if
that word does not fit behind the words of the row. -/
structure Greedy (maxWidth : Nat) (starts : Nat → List Char) (rows : List (List Piece)) :
    Prop where
  ne_nil : ∀ row ∈ rows, row ≠ []
  fits : ∀ n row, rows[n]? = some row → Fits maxWidth (starts n) row
  breaks : ∀ n row p after, rows[n]? = some row → rows[n + 1]? = some (p :: after) →
    Overflows maxWidth (starts n) row p

variable {maxWidth : Nat} {start : List Char} {starts : Nat → List Char} {p : Piece}
  {row : List Piece} {rest : List (List Piece)}

theorem Fits.single (p : Piece) : Fits maxWidth start [p] := by
  intro before q after hrow hbefore
  obtain ⟨first, more, rfl⟩ := List.exists_cons_of_ne_nil hbefore
  simp at hrow

theorem Fits.concat (h : Fits maxWidth start row) (hp : ¬ Overflows maxWidth start row p) :
    Fits maxWidth start (row ++ [p]) := by
  intro before q after hrow hbefore
  rcases List.eq_nil_or_concat after with rfl | ⟨after, last, rfl⟩
  · obtain ⟨rfl, hlast⟩ := List.append_inj' hrow rfl
    obtain rfl := List.singleton_inj.1 hlast
    exact hp
  · rw [List.concat_eq_append, ← List.cons_append, ← List.append_assoc] at hrow
    exact h before q after (List.append_inj' hrow rfl).1 hbefore

namespace Greedy

theorem single (hne : row ≠ []) (hfits : Fits maxWidth (starts 0) row) :
    Greedy maxWidth starts [row] := by
  refine ⟨by simpa using hne, ?_, by simp⟩
  intro n row' hn
  cases n with
  | zero =>
    obtain rfl : row = row' := by simpa using hn
    exact hfits
  | succ n => simp at hn

/-- One more row in front, which ends where the next word does not fit. -/
theorem cons {after : List Piece} (hne : row ≠ []) (hfits : Fits maxWidth (starts 0) row)
    (hbreak : Overflows maxWidth (starts 0) row p)
    (h : Greedy maxWidth (fun n => starts (n + 1)) ((p :: after) :: rest)) :
    Greedy maxWidth starts (row :: (p :: after) :: rest) := by
  refine ⟨?_, ?_, ?_⟩
  · rw [List.forall_mem_cons]
    exact ⟨hne, h.ne_nil⟩
  · intro n row' hn
    cases n with
    | zero =>
      obtain rfl : row = row' := by simpa using hn
      exact hfits
    | succ n => exact h.fits n row' hn
  · intro n row' q after' hn hnext
    cases n with
    | zero =>
      obtain rfl : row = row' := by simpa using hn
      obtain ⟨rfl, -⟩ : p = q ∧ after = after' := by simpa using hnext
      exact hbreak
    | succ n => exact h.breaks n row' q after' hn hnext

theorem tail (h : Greedy maxWidth starts (row :: rest)) :
    Greedy maxWidth (fun n => starts (n + 1)) rest :=
  ⟨fun row' hrow => h.ne_nil row' (List.mem_cons_of_mem _ hrow),
    fun n row' hn => h.fits (n + 1) row' hn,
    fun n row' q after hn hnext => h.breaks (n + 1) row' q after hn hnext⟩

/-- A first row is not the beginning of a longer one: the word after it does not fit. -/
theorem eq_nil_of_append {more : List Piece} {rest' : List (List Piece)}
    (h : Greedy maxWidth starts (row :: rest))
    (h' : Greedy maxWidth starts ((row ++ more) :: rest'))
    (hwords : rest.flatten = more ++ rest'.flatten) : more = [] := by
  cases more with
  | nil => rfl
  | cons q more =>
    cases rest with
    | nil => simp at hwords
    | cons next rest =>
      obtain ⟨p, after, rfl⟩ := List.exists_cons_of_ne_nil (h.ne_nil next (by simp))
      obtain ⟨rfl, -⟩ : p = q ∧ _ := by simpa using hwords
      have hbreak := h.breaks 0 row p after rfl rfl
      have hrow := h.ne_nil row (List.mem_cons_self ..)
      exact absurd hbreak (h'.fits 0 _ rfl row p more rfl hrow)

/-- The words leave no choice. -/
theorem unique {rows rows' : List (List Piece)} (h : Greedy maxWidth starts rows)
    (h' : Greedy maxWidth starts rows') (hwords : rows.flatten = rows'.flatten) : rows = rows' := by
  induction rows generalizing starts rows' with
  | nil =>
    cases rows' with
    | nil => rfl
    | cons row' rest' =>
      have hne := h'.ne_nil row' (List.mem_cons_self ..)
      simp [hne] at hwords
  | cons row rest ih =>
    cases rows' with
    | nil =>
      have hne := h.ne_nil row (List.mem_cons_self ..)
      simp [hne] at hwords
    | cons row' rest' =>
      rw [List.flatten_cons, List.flatten_cons] at hwords
      have hrow : row = row' := by
        rcases List.append_eq_append_iff.1 hwords with ⟨more, rfl, hrest⟩ | ⟨more, rfl, hrest⟩
        · rw [h.eq_nil_of_append h' hrest, List.append_nil]
        · rw [h'.eq_nil_of_append h hrest, List.append_nil]
      subst hrow
      rw [ih h.tail h'.tail (List.append_cancel_left hwords)]

end Greedy

/-- Words are laid out greedily. The line that has been begun has the words `line`, and `counts`
are the line counts in front of it. -/
theorem layPieces_greedy (margins : List Margin) (maxWidth : Nat) (ps line : List Piece)
    (counts : LineCounts) (hps : ∀ p ∈ ps, p.isNewline = false) (hline : line ≠ [])
    (hfits : Fits maxWidth (lineStart margins counts 0) line) :
    ∃ row rest, row ++ rest.flatten = ps ∧
      Greedy maxWidth (lineStart margins counts) ((line ++ row) :: rest) ∧
      layPieces margins maxWidth ps
          (columns (lineStart margins counts 0) + totalColumns line) false
          (renderMargins margins counts).2 =
        (row.flatMap Piece.text
            ++ (rowsUnder margins (rest.map rowText) (renderMargins margins counts).2).1,
          (rowsUnder margins (rest.map rowText) (renderMargins margins counts).2).2) := by
  induction ps generalizing line counts with
  | nil => exact ⟨[], [], rfl, by simpa using Greedy.single hline hfits, rfl⟩
  | cons p ps ih =>
    rw [List.forall_mem_cons] at hps
    simp only [layPieces, hps.1, Bool.false_eq_true, if_false, Bool.not_false, Bool.true_and,
      Bool.and_eq_true, decide_eq_true_eq]
    by_cases hbreak : Overflows maxWidth (lineStart margins counts 0) line p
    · obtain ⟨row, rest, hwords, hgreedy, hlaid⟩ :=
        ih [p] (renderMargins margins counts).2 hps.2 (List.cons_ne_nil p []) (Fits.single p)
      refine ⟨[], (p :: row) :: rest, by simp [hwords], ?_, ?_⟩
      · rw [List.append_nil]
        exact Greedy.cons hline hfits hbreak hgreedy
      · simp only [lineStart, countsAfter, totalColumns, Nat.add_zero] at hlaid
        unfold Overflows at hbreak
        rw [if_pos hbreak, hlaid]
        simp [rowsUnder, rowText]
    · obtain ⟨row, rest, hwords, hgreedy, hlaid⟩ :=
        ih (line ++ [p]) counts hps.2 (by simp) (hfits.concat hbreak)
      refine ⟨p :: row, rest, by simp [hwords], by simpa using hgreedy, ?_⟩
      rw [totalColumns_concat, ← Nat.add_assoc] at hlaid
      unfold Overflows at hbreak
      rw [if_neg hbreak, hlaid]
      simp

/-- The rows of a text that flows, if it has any words. -/
theorem exists_greedy_rows (text : List Char) (margins : List Margin) {options : BlockOptions}
    (hflow : options.preserveNewlines = false) (counts : LineCounts)
    (hne : pieces (flatten false text) ≠ []) :
    ∃ rows, rows.flatten = pieces (flatten false text) ∧
      Greedy options.maxWidth (lineStart margins counts) rows ∧
      wrap text margins options counts =
        (linesUnder margins counts (rows.map rowText), countsAfter margins counts rows.length) := by
  have hwords := words_pieces text
  obtain ⟨p, ps, hpieces⟩ := List.exists_cons_of_ne_nil hne
  rw [hpieces] at hwords ⊢
  have hnewline : ∀ q ∈ p :: ps, q.isNewline = false := by
    intro q hq
    have hword := (hwords.word q hq).2
    by_contra hq'
    have hq'' : q.word = ['\n'] := by simpa [Piece.isNewline] using hq'
    exact absurd (hword '\n' (by simp [hq''])) (by decide)
  rw [List.forall_mem_cons] at hnewline
  obtain ⟨row, rest, hflat, hgreedy, hlaid⟩ := layPieces_greedy margins options.maxWidth ps [p]
    counts hnewline.2 (List.cons_ne_nil p []) (Fits.single p)
  refine ⟨(p :: row) :: rest, by simp [hflat], hgreedy, ?_⟩
  simp only [lineStart, countsAfter, totalColumns, Nat.add_zero] at hlaid
  simp only [wrap, hflow, hpieces, layPieces, hnewline.1, Bool.false_eq_true, if_false,
    Bool.not_true, Bool.false_and, if_true]
  rw [hlaid, List.map_cons, linesUnder_cons, counts_rowsUnder]
  simp [rowText, countsAfter]

/-- A text that flows has only one list of words. Without any, just the margins are written; else
the words are written in the only rows that are greedy, one line for each row. -/
theorem wrap_eq_greedy (text : List Char) (margins : List Margin) (options : BlockOptions)
    (counts : LineCounts) (hflow : options.preserveNewlines = false) :
    ∃ words, Words (flatten false text) words ∧
      (∀ other, Words (flatten false text) other → other = words) ∧
      (words = [] → wrap text margins options counts =
        (lineStart margins counts 0, countsAfter margins counts 1)) ∧
      (words ≠ [] → ∃ rows, rows.flatten = words ∧
        Greedy options.maxWidth (lineStart margins counts) rows ∧
        (∀ other, other.flatten = words → Greedy options.maxWidth (lineStart margins counts) other →
          other = rows) ∧
        wrap text margins options counts = (linesUnder margins counts (rows.map rowText),
          countsAfter margins counts rows.length)) := by
  have hwords := words_pieces text
  refine ⟨pieces (flatten false text), hwords, fun other h => h.unique hwords, ?_, ?_⟩
  · intro hnil
    simp only [wrap, hflow, hnil, layPieces, List.append_nil]
    rfl
  · intro hne
    obtain ⟨rows, hflat, hgreedy, hwrap⟩ := exists_greedy_rows text margins hflow counts hne
    refine ⟨rows, hflat, hgreedy, ?_, hwrap⟩
    intro other hother h
    exact h.unique hgreedy (hother.trans hflat.symm)

/-- The margin of a list item that is the first prefix to be opened. -/
def bullet : Margin := ⟨⟨"  - ", "    "⟩, 0⟩

theorem wrap_eq_greedy_listItem : ({ maxWidth := 15 } : BlockOptions).preserveNewlines = false ∧
    ∃ words, Words (flatten false " one two\nthree  four ".toList) words ∧
      (∀ other, Words (flatten false " one two\nthree  four ".toList) other → other = words) ∧
      (words = [] → wrap " one two\nthree  four ".toList [bullet] { maxWidth := 15 } [0] =
        (lineStart [bullet] [0] 0, countsAfter [bullet] [0] 1)) ∧
      (words ≠ [] → ∃ rows, rows.flatten = words ∧ Greedy 15 (lineStart [bullet] [0]) rows ∧
        (∀ other, other.flatten = words → Greedy 15 (lineStart [bullet] [0]) other →
          other = rows) ∧
        wrap " one two\nthree  four ".toList [bullet] { maxWidth := 15 } [0] =
          (linesUnder [bullet] [0] (rows.map rowText), countsAfter [bullet] [0] rows.length)) :=
  ⟨rfl, wrap_eq_greedy " one two\nthree  four ".toList [bullet] { maxWidth := 15 } [0] rfl⟩

-- the space in front of `three` is not written, but it counts, so there is no room for `four`
example : wrap " one two\nthree  four ".toList [bullet] { maxWidth := 15 } [0] =
    ("  - one two\n    three\n    four".toList, [3]) := by decide +kernel

end HtmlMarkdown.Layout
