import HtmlMarkdown.Layout.Page
import HtmlMarkdown.Proofs.Pieces

/-!
What is not white space is written. Line breaking, the margins and the lines between blocks only
put something in between: what the blocks hold, without its white space, can be read in the whole
text from left to right.
-/
namespace HtmlMarkdown

namespace Text

/-- The characters of a text that are not white space. -/
def visible (s : List Char) : List Char := s.filter (!isBlank ·)

@[simp] theorem visible_nil : visible [] = [] := rfl

@[simp] theorem visible_append (s u : List Char) : visible (s ++ u) = visible s ++ visible u :=
  List.filter_append ..

theorem visible_eq_nil {s : List Char} (h : ∀ c ∈ s, isBlank c) : visible s = [] := by
  rw [visible, List.filter_eq_nil_iff]
  intro c hc
  simp [h c hc]

theorem visible_dropEndWhile {p : Char → Bool} (hp : ∀ c, p c → isBlank c) (s : List Char) :
    visible (dropEndWhile p s) = visible s := by
  have hend : visible (s.reverse.takeWhile p).reverse = [] := by
    refine visible_eq_nil fun c hc => hp c ?_
    exact List.mem_takeWhile_imp (List.mem_reverse.1 hc)
  have happend := congrArg visible (dropEndWhile_append p s)
  rwa [visible_append, hend, List.append_nil] at happend

end Text

namespace Layout

open Text

variable {margins : List Margin} {counts : LineCounts}

theorem visible_flatten (preserveNewlines : Bool) (text : List Char) :
    visible (flatten preserveNewlines text) = visible text := by
  have hnewline : ∀ c : Char, (c == '\n') = true → isBlank c = true := by
    intro c hc
    rw [eq_of_beq hc]
    rfl
  have hstrip : visible (stripTrailingNewlines text) = visible text :=
    visible_dropEndWhile hnewline text
  have hspaces : ∀ s : List Char,
      visible (s.map fun c => if c = '\n' then ' ' else c) = visible s := by
    intro s
    induction s with
    | nil => rfl
    | cons c rest ih =>
      by_cases hc : c = '\n'
      · subst hc
        simpa [visible, isBlank] using ih
      · unfold visible at ih ⊢
        simp [hc, List.filter_cons, ih]
  unfold flatten
  split
  · exact hstrip
  · rw [trimEnd, visible_dropEndWhile (fun _ h => h), hspaces, hstrip]

theorem isBlank_of_isGap {c : Char} (h : isGap c) : isBlank c := by
  simp only [isGap, Bool.and_eq_true] at h
  exact h.1

theorem Cut.visible_flatMap_word {text : List Char} {ps : List Piece} (h : Cut text ps) :
    visible (ps.flatMap Piece.word) = visible text := by
  have hgaps := h.isGap_of_mem
  rw [← h.flatMap_text]
  clear h
  induction ps with
  | nil => rfl
  | cons p rest ih =>
    simp only [List.mem_cons, forall_eq_or_imp] at hgaps
    have hgap : visible p.gap = [] := visible_eq_nil fun c hc => isBlank_of_isGap (hgaps.1 c hc)
    rw [List.flatMap_cons, List.flatMap_cons, visible_append, visible_append, ih hgaps.2,
      Piece.text, visible_append, hgap, List.nil_append]

/-- Every word is written, also where a line breaks in front of it. -/
theorem flatMap_word_sublist_layPieces (maxWidth : Nat) (ps : List Piece) (col : Nat)
    (fresh : Bool) (counts : LineCounts) :
    (ps.flatMap Piece.word).Sublist (layPieces margins maxWidth ps col fresh counts).1 := by
  induction ps generalizing col fresh counts with
  | nil => exact List.nil_sublist _
  | cons p rest ih =>
    have hshown : p.word.Sublist (if fresh then p.word else p.text) := by
      split
      · exact List.Sublist.refl _
      · exact List.sublist_append_right p.gap p.word
    rw [List.flatMap_cons]
    simp only [layPieces]
    split
    · exact (hshown.trans (List.sublist_append_left _ _)).append (ih _ _ _)
    · split
      · exact ((List.sublist_append_right _ _).cons '\n').append (ih _ _ _)
      · exact hshown.append (ih _ _ _)

theorem visible_sublist_wrap (text : List Char) (options : BlockOptions) :
    (visible text).Sublist (wrap text margins options counts).1 := by
  let ps := pieces (flatten options.preserveNewlines text)
  have hwords : visible text = visible (ps.flatMap Piece.word) := by
    rw [(cut_pieces _).visible_flatMap_word, visible_flatten]
  have hsub : (visible (ps.flatMap Piece.word)).Sublist (ps.flatMap Piece.word) :=
    List.filter_sublist
  rw [hwords]
  exact (hsub.trans (flatMap_word_sublist_layPieces ..)).trans (List.sublist_append_right ..)

/-- The text that a block holds. -/
def Block.text (block : Block) : List Char := (block.contents.getD "").toList

theorem Block.visible_sublist_render (block : Block) (counts : LineCounts) :
    (visible block.text).Sublist (block.render counts).1 := by
  unfold Block.render Block.text
  cases block.contents with
  | none => exact List.nil_sublist _
  | some contents => exact visible_sublist_wrap contents.toList block.options

theorem visible_sublist_joinBlocks (earlier : Option Block) (blocks : List Block)
    (counts : LineCounts) :
    (visible (blocks.flatMap Block.text)).Sublist (joinBlocks earlier blocks counts).1 := by
  induction blocks generalizing earlier counts with
  | nil => exact List.nil_sublist _
  | cons block rest ih =>
    have hblock := block.visible_sublist_render counts
    rw [List.flatMap_cons, visible_append]
    simp only [joinBlocks]
    split
    · rename_i hempty
      rw [List.isEmpty_iff.1 hempty, List.sublist_nil] at hblock
      rw [hblock, List.nil_append]
      exact ih _ _
    · have hshown := hblock.trans (List.sublist_append_right
        (separatorLine earlier block (block.render counts).2).1 (block.render counts).1)
      exact (hshown.trans (List.sublist_append_left _ _)).append (ih _ _)

theorem Draft.visible_sublist_finish (draft : Draft) :
    (visible (draft.blocks.flatMap Block.text)).Sublist draft.finish := by
  have hbody : (visible (draft.blocks.flatMap Block.text)).Sublist draft.body.1 :=
    visible_sublist_joinBlocks ..
  simp only [finish]
  split
  · exact hbody
  · exact (hbody.trans (List.sublist_append_left _ _)).trans (List.sublist_append_left _ _)

end Layout
end HtmlMarkdown
