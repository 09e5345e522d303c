import HtmlMarkdown.Layout.Wrap
import Mathlib.Data.List.TakeWhile

/-!
The pieces of a text. Joined, they are the text again; what stands in front of a word is white,
and a newline is a piece of its own.
-/
namespace HtmlMarkdown.Layout

/-- How a text falls into pieces: white space at its end, a newline or a word, each of the latter
with the white space in front of it. A word goes on until there is white space. -/
inductive Cut : List Char → List Piece → Prop
  | nil : Cut [] []
  | blank {text : List Char} (hne : text ≠ []) (h : ∀ c ∈ text, isGap c) : Cut text [⟨[], text⟩]
  | newline {gap rest : List Char} {ps : List Piece} (hgap : ∀ c ∈ gap, isGap c)
      (h : Cut rest ps) : Cut (gap ++ '\n' :: rest) (⟨gap, ['\n']⟩ :: ps)
  | word {gap word rest : List Char} {ps : List Piece} (hgap : ∀ c ∈ gap, isGap c)
      (hne : word ≠ []) (hword : ∀ c ∈ word, Text.isBlank c = false)
      (hstop : ∀ c ∈ rest.head?, Text.isBlank c) (h : Cut rest ps) :
      Cut (gap ++ (word ++ rest)) (⟨gap, word⟩ :: ps)

theorem cut_pieces (text : List Char) : Cut text (pieces text) := by
  fun_induction pieces text with
  | case1 text h hempty =>
    rw [List.isEmpty_iff.1 hempty]
    exact .nil
  | case2 text h hne =>
    refine .blank (by simpa using hne) fun c hc => ?_
    exact List.dropWhile_eq_nil_iff.1 h c hc
  | case3 text rest h ih =>
    have htext : text.takeWhile isGap ++ '\n' :: rest = text := by
      rw [← h, List.takeWhile_append_dropWhile]
    have hgap : ∀ c ∈ text.takeWhile isGap, isGap c := fun c hc => List.mem_takeWhile_imp hc
    have hcut := Cut.newline hgap ih
    rwa [htext] at hcut
  | case4 text c rest h hc ih =>
    have hnot : isGap c = false := by
      have hhead := List.head?_dropWhile_not isGap text
      simpa [h] using hhead
    have hblank : Text.isBlank c = false := by simpa [isGap, hc] using hnot
    let word := c :: rest.takeWhile (!Text.isBlank ·)
    have hword : ∀ x ∈ word, Text.isBlank x = false := by
      intro x hx
      rcases List.mem_cons.1 hx with rfl | hx
      · exact hblank
      · simpa using List.mem_takeWhile_imp hx
    have hstop : ∀ x ∈ (rest.dropWhile (!Text.isBlank ·)).head?, Text.isBlank x := by
      intro x hx
      have hhead := List.head?_dropWhile_not (!Text.isBlank ·) rest
      rw [Option.mem_def.1 hx] at hhead
      simpa using hhead
    have htext : text.takeWhile isGap ++ (word ++ rest.dropWhile (!Text.isBlank ·)) = text := by
      rw [List.cons_append, List.takeWhile_append_dropWhile, ← h, List.takeWhile_append_dropWhile]
    have hgap : ∀ c ∈ text.takeWhile isGap, isGap c := fun c hc => List.mem_takeWhile_imp hc
    have hcut := Cut.word hgap (List.cons_ne_nil c _) hword hstop ih
    rwa [htext] at hcut

/-- No newline ends a text that is laid out. -/
theorem getLast?_flatten (preserveNewlines : Bool) (text : List Char) :
    (flatten preserveNewlines text).getLast? ≠ some '\n' := by
  intro hlast
  unfold flatten at hlast
  split at hlast
  · simpa using Text.not_of_getLast?_dropEndWhile hlast
  · have hnot : Text.isBlank '\n' = false := Text.not_of_getLast?_dropEndWhile hlast
    simp [Text.isBlank] at hnot

theorem newline_notMem_flatten (text : List Char) : '\n' ∉ flatten false text := by
  intro hmem
  have hmap := (Text.dropEndWhile_sublist Text.isBlank _).subset hmem
  obtain ⟨ch, -, hch⟩ := List.mem_map.1 hmap
  split at hch
  · simp at hch
  · exact absurd hch ‹_›

theorem newline_notMem_of_isGap {gap : List Char} (h : ∀ c ∈ gap, isGap c) : '\n' ∉ gap := by
  intro hmem
  simpa [isGap] using h '\n' hmem

/-- A newline is white. -/
theorem newline_notMem_of_solid {word : List Char} (h : ∀ c ∈ word, Text.isBlank c = false) :
    '\n' ∉ word := by
  intro hmem
  exact absurd (h '\n' hmem) (by decide)

/-- What is white in front of a word, and no more, is dropped. -/
theorem dropWhile_gap_append {gap word : List Char} (hgap : ∀ c ∈ gap, Text.isBlank c)
    (hne : word ≠ []) (hword : ∀ c ∈ word, Text.isBlank c = false) (rest : List Char) :
    (gap ++ (word ++ rest)).dropWhile Text.isBlank = word ++ rest := by
  obtain ⟨c, front, rfl⟩ := List.exists_cons_of_ne_nil hne
  have hc : Text.isBlank c = false := hword c (List.mem_cons_self ..)
  rw [List.dropWhile_append_of_pos hgap, List.cons_append,
    List.dropWhile_cons_of_neg (by simp [hc])]

namespace Cut

variable {text : List Char} {ps : List Piece}

theorem flatMap_text (h : Cut text ps) : ps.flatMap Piece.text = text := by
  induction h with
  | nil => rfl
  | blank => simp [Piece.text]
  | newline _ _ ih => simp [Piece.text, ih]
  | word _ _ _ _ _ ih => simp [Piece.text, ih]

theorem isGap_of_mem (h : Cut text ps) : ∀ p ∈ ps, ∀ c ∈ p.gap, isGap c := by
  induction h with
  | nil => simp
  | blank => simp
  | newline hgap _ ih => simpa using ⟨hgap, ih⟩
  | word hgap _ _ _ _ ih => simpa using ⟨hgap, ih⟩

theorem newline_notMem_gap (h : Cut text ps) : ∀ p ∈ ps, '\n' ∉ p.gap := by
  exact fun p hp => newline_notMem_of_isGap (h.isGap_of_mem p hp)

theorem word_ne_nil (h : Cut text ps) : ∀ p ∈ ps, p.word ≠ [] := by
  induction h with
  | nil => simp
  | blank hne => simpa using hne
  | newline _ _ ih => simpa using ih
  | word _ hne _ _ _ ih => simpa using ⟨hne, ih⟩

/-- The last piece is a newline only if one ends the text. -/
theorem isNewline_getLast? (h : Cut text ps) (hend : text.getLast? ≠ some '\n') :
    ∀ p ∈ ps.getLast?, p.isNewline = false := by
  intro p hp
  by_contra hnewline
  have hword : p.word = ['\n'] := by simpa [Piece.isNewline] using hnewline
  obtain ⟨init, rfl⟩ := List.getLast?_eq_some_iff.1 hp
  rw [← h.flatMap_text] at hend
  simp [Piece.text, hword] at hend

/-- Newlines are only in pieces of their own. -/
theorem newline_notMem (h : Cut text ps) : ∀ p ∈ ps, p.isNewline = false → '\n' ∉ p.text := by
  induction h with
  | nil => simp
  | blank hne hall => simpa [Piece.text] using fun _ => newline_notMem_of_isGap hall
  | newline _ _ ih => simpa [Piece.isNewline] using ih
  | word hall hne hword _ _ ih =>
    rw [List.forall_mem_cons]
    refine ⟨fun _ hmem => ?_, ih⟩
    rcases List.mem_append.1 hmem with hmem | hmem
    · exact newline_notMem_of_isGap hall hmem
    · exact newline_notMem_of_solid hword hmem

end Cut
end HtmlMarkdown.Layout
