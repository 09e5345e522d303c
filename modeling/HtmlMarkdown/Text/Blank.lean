/-!
White space in the sense of the Unicode White_Space property, and the text operations that
cut it off. The no-break space and the ideographic space are white; the zero-width space and
the byte order mark are not.
-/
namespace HtmlMarkdown.Text

/-- The twenty-five code points of White_Space. -/
def isBlank (c : Char) : Bool :=
  let n := c.toNat
  (9 ≤ n && n ≤ 13) || n = 0x20 || n = 0x85 || n = 0xA0 || n = 0x1680 ||
    (0x2000 ≤ n && n ≤ 0x200A) || n = 0x2028 || n = 0x2029 || n = 0x202F || n = 0x205F ||
    n = 0x3000

/-- Drops the longest run of members of `p` that ends the text. -/
def dropEndWhile (p : Char → Bool) (s : List Char) : List Char :=
  (s.reverse.dropWhile p).reverse

def trimEnd (s : List Char) : List Char := dropEndWhile isBlank s

def trim (s : List Char) : List Char := trimEnd (s.dropWhile isBlank)

/-- Removes every newline from the end of the text. -/
def stripTrailingNewlines (s : List Char) : List Char := dropEndWhile (· == '\n') s

/-- What is dropped from the end consists of members of `p`. -/
theorem dropEndWhile_append (p : Char → Bool) (s : List Char) :
    dropEndWhile p s ++ (s.reverse.takeWhile p).reverse = s := by
  rw [dropEndWhile, ← List.reverse_append, List.takeWhile_append_dropWhile, List.reverse_reverse]

theorem dropEndWhile_sublist (p : Char → Bool) (s : List Char) :
    (dropEndWhile p s).Sublist s := by
  have h := (List.dropWhile_sublist (l := s.reverse) p).reverse
  rwa [List.reverse_reverse] at h

/-- What is left does not end in a member of `p`. -/
theorem not_of_getLast?_dropEndWhile {p : Char → Bool} {s : List Char} {c : Char}
    (h : (dropEndWhile p s).getLast? = some c) : p c = false := by
  have hhead := List.head?_dropWhile_not p s.reverse
  rw [dropEndWhile, List.getLast?_reverse] at h
  rw [h] at hhead
  simpa using hhead

theorem dropEndWhile_cons_of_not {p : Char → Bool} {c : Char} (hc : p c = false) (s : List Char) :
    dropEndWhile p (c :: s) = c :: dropEndWhile p s := by
  simp only [dropEndWhile, List.reverse_cons, List.dropWhile_append]
  split
  · rename_i h
    simp [hc, List.isEmpty_iff.1 h]
  · simp

end HtmlMarkdown.Text
