import HtmlMarkdown.Text.Split
import Mathlib.Data.List.Basic

/-!
The lines of a text: what stands between its newlines. A line is also a part of the text that has
a newline or an end of the text on both sides, and which place it has there says which of the lines
it is.
-/
namespace HtmlMarkdown.Text

variable {c : Char} {s u : List Char}

theorem lines_ne_nil (s : List Char) : lines s ≠ [] := splitAt_ne_nil '\n' s

theorem lines_newline_cons (s : List Char) : lines ('\n' :: s) = [] :: lines s := rfl

theorem lines_cons_of_ne (hc : c ≠ '\n') {first : List Char} {more : List (List Char)}
    (h : lines s = first :: more) : lines (c :: s) = (c :: first) :: more := by
  unfold lines at h ⊢
  rw [splitAt, if_neg hc, h]

theorem lines_append_newline (s u : List Char) :
    lines (s ++ '\n' :: u) = lines s ++ lines u := by
  induction s with
  | nil => rfl
  | cons c rest ih =>
    by_cases hc : c = '\n'
    · subst hc
      rw [List.cons_append, lines_newline_cons, lines_newline_cons, ih, List.cons_append]
    · obtain ⟨first, more, hrest⟩ := List.exists_cons_of_ne_nil (lines_ne_nil rest)
      rw [hrest, List.cons_append] at ih
      rw [List.cons_append, lines_cons_of_ne hc ih, lines_cons_of_ne hc hrest, List.cons_append]

theorem lines_eq_singleton (h : '\n' ∉ s) : lines s = [s] := by
  induction s with
  | nil => rfl
  | cons c rest ih =>
    rw [List.mem_cons, not_or] at h
    rw [lines_cons_of_ne (Ne.symm h.1) (ih h.2)]

theorem lines_append_of_notMem {s u row : List Char} {rest : List (List Char)} (h : '\n' ∉ s)
    (hu : lines u = row :: rest) : lines (s ++ u) = (s ++ row) :: rest := by
  induction s with
  | nil => exact hu
  | cons c s ih =>
    rw [List.mem_cons, not_or] at h
    rw [List.cons_append, lines_cons_of_ne (Ne.symm h.1) (ih h.2), List.cons_append]

/-- Parts without newlines are the lines of the text that they are joined to. -/
theorem lines_intercalate {parts : List (List Char)} (hne : parts ≠ [])
    (hparts : ∀ part ∈ parts, '\n' ∉ part) : lines (['\n'].intercalate parts) = parts := by
  induction parts with
  | nil => exact absurd rfl hne
  | cons part rest ih =>
    rw [List.forall_mem_cons] at hparts
    cases rest with
    | nil => rw [List.intercalate_singleton, lines_eq_singleton hparts.1]
    | cons next more =>
      have hlines := ih (List.cons_ne_nil next more) hparts.2
      rw [List.intercalate_cons_cons, List.append_assoc, List.singleton_append,
        lines_append_newline, lines_eq_singleton hparts.1, hlines, List.singleton_append]

/-! The places of lines. -/

/-- Lines, each with the newline that ends it. -/
def ended (parts : List (List Char)) : List Char := parts.flatMap fun part => part ++ ['\n']

/-- A line begins behind `front`, and it ends in front of `back`. -/
structure IsLineAt (s front line back : List Char) : Prop where
  text_eq : s = front ++ line ++ back
  opens : front = [] ∨ ∃ f, front = f ++ ['\n']
  closes : back = [] ∨ ∃ b, back = '\n' :: b

theorem ended_eq {parts : List (List Char)} (hne : parts ≠ []) :
    ended parts = ['\n'].intercalate parts ++ ['\n'] := by
  induction parts with
  | nil => exact absurd rfl hne
  | cons part rest ih =>
    cases rest with
    | nil => simp [ended]
    | cons next more =>
      have hrest := ih (List.cons_ne_nil next more)
      rw [List.intercalate_cons_cons, List.append_assoc, List.append_assoc, ← hrest]
      simp [ended]

theorem ended_lines (s : List Char) : ended (lines s) = s ++ ['\n'] := by
  rw [ended_eq (lines_ne_nil s)]
  exact congrArg (· ++ ['\n']) (intercalate_splitAt '\n' s)

/-- All lines before the one at a place end in front of it. -/
theorem IsLineAt.exists_lines {front line back : List Char} (h : IsLineAt s front line back)
    (hline : '\n' ∉ line) :
    ∃ before after, lines s = before ++ line :: after ∧ front = ended before := by
  have hrest : ∃ after, lines (line ++ back) = line :: after := by
    rcases h.closes with rfl | ⟨b, rfl⟩
    · exact ⟨[], by rw [List.append_nil, lines_eq_singleton hline]⟩
    · refine ⟨lines b, ?_⟩
      rw [lines_append_newline, lines_eq_singleton hline, List.singleton_append]
  obtain ⟨after, hafter⟩ := hrest
  rw [h.text_eq]
  rcases h.opens with rfl | ⟨f, rfl⟩
  · exact ⟨[], after, by rw [List.nil_append, hafter, List.nil_append], rfl⟩
  · refine ⟨lines f, after, ?_, (ended_lines f).symm⟩
    rw [List.append_assoc, List.append_assoc, List.singleton_append, lines_append_newline, hafter]

/-- Every line has its place. -/
theorem isLineAt_of_lines {before after : List (List Char)} {line : List Char}
    (h : lines s = before ++ line :: after) : ∃ back, IsLineAt s (ended before) line back := by
  have hs : ended (before ++ line :: after) = s ++ ['\n'] := h ▸ ended_lines s
  have hopens : ended before = [] ∨ ∃ f, ended before = f ++ ['\n'] := by
    by_cases hbefore : before = []
    · subst hbefore
      exact Or.inl rfl
    · exact Or.inr ⟨_, ended_eq hbefore⟩
  have hsplit : ended (before ++ line :: after) = ended before ++ line ++ '\n' :: ended after := by
    simp [ended]
  rw [hsplit] at hs
  by_cases hafter : after = []
  · subst hafter
    have htext : ended before ++ line = s := List.append_cancel_right hs
    exact ⟨[], by rw [List.append_nil, htext], hopens, Or.inl rfl⟩
  · refine ⟨'\n' :: ['\n'].intercalate after, ?_, hopens, Or.inr ⟨_, rfl⟩⟩
    rw [ended_eq hafter, ← List.cons_append, ← List.append_assoc] at hs
    exact (List.append_cancel_right hs).symm

end HtmlMarkdown.Text
