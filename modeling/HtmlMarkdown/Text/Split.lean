/-!
Splitting a text at every occurrence of a character, and finding a text in another. A split has
one part more than there are occurrences, and joining the parts gives the text back.
-/
namespace HtmlMarkdown.Text

def splitAt (separator : Char) : List Char → List (List Char)
  | [] => [[]]
  | c :: rest =>
    if c = separator then [] :: splitAt separator rest
    else match splitAt separator rest with
      | [] => [[c]]
      | part :: more => (c :: part) :: more

/-- The lines of a text, which newlines separate. -/
def lines (s : List Char) : List (List Char) := splitAt '\n' s

/-- True if the first text is a contiguous part of the second. -/
def occursIn (part : List Char) : List Char → Bool
  | [] => part.isEmpty
  | c :: rest => part.isPrefixOf (c :: rest) || occursIn part rest

theorem splitAt_ne_nil (separator : Char) (s : List Char) : splitAt separator s ≠ [] := by
  cases s with
  | nil => simp [splitAt]
  | cons c rest =>
    simp only [splitAt]
    split
    · simp
    · split <;> simp

theorem intercalate_splitAt (separator : Char) (s : List Char) :
    [separator].intercalate (splitAt separator s) = s := by
  induction s with
  | nil => rfl
  | cons c rest ih =>
    simp only [splitAt]
    split
    · rename_i h
      obtain ⟨part, more, hm⟩ := List.exists_cons_of_ne_nil (splitAt_ne_nil separator rest)
      rw [hm] at ih ⊢
      simp only [List.intercalate, List.intersperse, List.flatten_cons] at ih ⊢
      rw [h, ← ih]
      rfl
    · obtain ⟨part, more, hm⟩ := List.exists_cons_of_ne_nil (splitAt_ne_nil separator rest)
      rw [hm] at ih ⊢
      cases more with
      | nil => simpa [List.intercalate] using ih
      | cons next more => simpa [List.intercalate] using ih

theorem occursIn_iff (part s : List Char) : occursIn part s = true ↔ part <:+: s := by
  induction s with
  | nil => simp [occursIn]
  | cons c rest ih => simp [occursIn, ih, List.infix_cons_iff]

end HtmlMarkdown.Text
