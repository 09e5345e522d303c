import HtmlMarkdown.Proofs.Lines
import HtmlMarkdown.Text.Blank

/-!
Lines that begin with the mark of a block quote. A text continues a quote if every line of it but
the first begins with the mark: such texts can be put together, and one that itself begins with
the mark consists of quoted lines only.
-/
namespace HtmlMarkdown.Text

/-- The lines of a text, where a newline at its end ends the last line and starts no other. -/
def endedLines (s : List Char) : List (List Char) :=
  if (lines s).getLast? = some [] then (lines s).dropLast else lines s

/-- The line begins with the mark of a block quote. -/
def IsQuoted (line : List Char) : Prop := line.head? = some '>'

/-- Every line but the first is quoted. -/
def ContinuesQuote (s : List Char) : Prop := ∀ line ∈ (lines s).tail, IsQuoted line

variable {c : Char} {s u : List Char}

theorem endedLines_append_newline (s u : List Char) :
    endedLines (s ++ '\n' :: u) = lines s ++ endedLines u := by
  have hu := lines_ne_nil u
  have hlast : (lines s ++ lines u).getLast? = (lines u).getLast? :=
    List.getLast?_append_of_ne_nil _ hu
  rw [endedLines, lines_append_newline, hlast, List.dropLast_append_of_ne_nil hu, endedLines]
  split <;> rfl

/-- The first line begins as the text does. -/
theorem forall_lines_isQuoted_iff :
    (∀ line ∈ lines s, IsQuoted line) ↔ s.head? = some '>' ∧ ContinuesQuote s := by
  obtain ⟨first, more, hs⟩ := List.exists_cons_of_ne_nil (lines_ne_nil s)
  rw [ContinuesQuote, hs, List.forall_mem_cons, List.tail_cons]
  refine and_congr_left fun _ => ?_
  cases s with
  | nil => simp_all [lines, splitAt, IsQuoted]
  | cons c rest =>
    by_cases hc : c = '\n'
    · subst hc
      rw [lines_newline_cons] at hs
      simp [IsQuoted, ← (List.cons.inj hs).1]
    · obtain ⟨part, more', hrest⟩ := List.exists_cons_of_ne_nil (lines_ne_nil rest)
      rw [lines_cons_of_ne hc hrest] at hs
      simp [IsQuoted, ← (List.cons.inj hs).1]

theorem continuesQuote_newline_cons :
    ContinuesQuote ('\n' :: s) ↔ s.head? = some '>' ∧ ContinuesQuote s := by
  rw [← forall_lines_isQuoted_iff]
  rfl

theorem continuesQuote_cons_of_ne (hc : c ≠ '\n') :
    ContinuesQuote (c :: s) ↔ ContinuesQuote s := by
  obtain ⟨first, more, hs⟩ := List.exists_cons_of_ne_nil (lines_ne_nil s)
  rw [ContinuesQuote, ContinuesQuote, lines_cons_of_ne hc hs, hs, List.tail_cons, List.tail_cons]

theorem continuesQuote_append_iff (hs : ContinuesQuote s) :
    ContinuesQuote (s ++ u) ↔ ContinuesQuote u := by
  induction s with
  | nil => rfl
  | cons c rest ih =>
    by_cases hc : c = '\n'
    · subst hc
      rw [continuesQuote_newline_cons] at hs
      have hhead : (rest ++ u).head? = some '>' := by simp [List.head?_append, hs.1]
      rw [List.cons_append, continuesQuote_newline_cons, ih hs.2, and_iff_right hhead]
    · rw [continuesQuote_cons_of_ne hc] at hs
      rw [List.cons_append, continuesQuote_cons_of_ne hc, ih hs]

theorem ContinuesQuote.append (hs : ContinuesQuote s) (hu : ContinuesQuote u) :
    ContinuesQuote (s ++ u) :=
  (continuesQuote_append_iff hs).2 hu

/-- A text on one line has no line but the first. -/
theorem continuesQuote_of_notMem (h : '\n' ∉ s) : ContinuesQuote s := by
  induction s with
  | nil => simp [ContinuesQuote, lines, splitAt]
  | cons c rest ih =>
    simp only [List.mem_cons, not_or] at h
    exact (continuesQuote_cons_of_ne (Ne.symm h.1)).2 (ih h.2)

/-- A text of quoted lines, each of which ends with a newline. -/
inductive QuotedLines : List Char → Prop
  | nil : QuotedLines []
  | cons {s u : List Char} (hhead : s.head? = some '>') (hs : ContinuesQuote s)
      (hu : QuotedLines u) : QuotedLines (s ++ '\n' :: u)

namespace QuotedLines

theorem single (hhead : s.head? = some '>') (hs : ContinuesQuote s) : QuotedLines (s ++ ['\n']) :=
  .cons hhead hs .nil

theorem append (hs : QuotedLines s) (hu : QuotedLines u) : QuotedLines (s ++ u) := by
  induction hs with
  | nil => exact hu
  | cons hhead hs _ ih =>
    rw [List.append_assoc, List.cons_append]
    exact .cons hhead hs ih

theorem flatten {parts : List (List Char)} (h : ∀ part ∈ parts, QuotedLines part) :
    QuotedLines parts.flatten := by
  induction parts with
  | nil => exact .nil
  | cons part rest ih =>
    rw [List.forall_mem_cons] at h
    exact h.1.append (ih h.2)

/-- What follows decides. -/
theorem forall_endedLines_append_iff (hs : QuotedLines s) :
    (∀ line ∈ endedLines (s ++ u), IsQuoted line) ↔ ∀ line ∈ endedLines u, IsQuoted line := by
  induction hs with
  | nil => rfl
  | @cons s rest hhead hs _ ih =>
    have hlines : ∀ line ∈ lines s, IsQuoted line := forall_lines_isQuoted_iff.2 ⟨hhead, hs⟩
    rw [List.append_assoc, List.cons_append, endedLines_append_newline, List.forall_mem_append, ih]
    exact and_iff_right hlines

theorem isQuoted_of_mem (hs : QuotedLines s) : ∀ line ∈ endedLines s, IsQuoted line := by
  have hnil : ∀ line ∈ endedLines [], IsQuoted line := by simp [endedLines, lines, splitAt]
  rw [← List.append_nil s]
  exact hs.forall_endedLines_append_iff.2 hnil

end QuotedLines
end HtmlMarkdown.Text
