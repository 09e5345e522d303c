import HtmlMarkdown.Proofs.ShownBlocks
import Mathlib.Data.List.Forall2

/-!
The same blocks written from two tables of line counts. How the tables belong together is left
open: it is enough that the next line starts alike from both, and that they still belong together
when it has been counted. Then all that is written from the one table is written from the other.
-/
namespace HtmlMarkdown.Layout

/-- The blocks differ at most in their margins, which are related. Whether a block accepts
reference lines is not compared. -/
structure Block.Alike (M : List Margin → List Margin → Prop) (b b' : Block) : Prop where
  margins : M b.margins b'.margins
  contents : b'.contents = b.contents
  maxWidth : b'.options.maxWidth = b.options.maxWidth
  preserveNewlines : b'.options.preserveNewlines = b.options.preserveNewlines
  endsWithHardBreak : b'.options.endsWithHardBreak = b.options.endsWithHardBreak

/-- Results with the same text, and with counts that belong together. -/
def SameResult (R : LineCounts → LineCounts → Prop) (r r' : List Char × LineCounts) : Prop :=
  r'.1 = r.1 ∧ R r.2 r'.2

/-- Under margins that are related, lines start alike from counts that belong together. -/
structure Agreement (M : List Margin → List Margin → Prop) (R : LineCounts → LineCounts → Prop) :
    Prop where
  linePrefixes : ∀ {ms ms'}, M ms ms' → ms'.map Margin.linePrefix = ms.map Margin.linePrefix
  renderMargins : ∀ {ms ms' c c'}, M ms ms' → R c c' →
    SameResult R (renderMargins ms c) (renderMargins ms' c')

variable {M M' : List Margin → List Margin → Prop} {R : LineCounts → LineCounts → Prop}
  {ms ms' : List Margin} {b b' : Block} {bs bs' : List Block} {earlier earlier' : Option Block}
  {c c' : LineCounts}

namespace Block.Alike

theorem imp (h : b.Alike M b') (hM : M b.margins b'.margins → M' b.margins b'.margins) :
    b.Alike M' b' :=
  { h with margins := hM h.margins }

theorem refl (h : M b.margins b.margins) : b.Alike M b := ⟨h, rfl, rfl, rfl, rfl⟩

theorem refl_option (h : ∀ e ∈ earlier, M e.margins e.margins) :
    Option.Rel (Block.Alike M) earlier earlier := by
  cases earlier with
  | none => exact .none
  | some e => exact .some (refl (h e rfl))

theorem append (h : b.Alike M b') (s : String) : (b.append s).Alike M (b'.append s) where
  margins := h.margins
  contents := by rw [Block.append, Block.append, h.contents]
  maxWidth := h.maxWidth
  preserveNewlines := h.preserveNewlines
  endsWithHardBreak := h.endsWithHardBreak

theorem ending_eq (h : b.Alike M b') : b'.ending = b.ending := by
  rw [Block.ending, Block.ending, h.endsWithHardBreak]

end Block.Alike

namespace Agreement

theorem isHeading_eq (h : Agreement M R) (hb : b.Alike M b') : b'.isHeading = b.isHeading := by
  have hlast : b'.margins.getLast?.map Margin.linePrefix =
      b.margins.getLast?.map Margin.linePrefix := by
    rw [← List.getLast?_map, ← List.getLast?_map, h.linePrefixes hb.margins]
  rw [Block.isHeading, Block.isHeading]
  cases hm : b.margins.getLast? <;> cases hm' : b'.margins.getLast? <;> simp_all

theorem layPieces (h : Agreement M R) (hms : M ms ms') (maxWidth : Nat) (ps : List Piece)
    (col : Nat) (fresh : Bool) (hc : R c c') :
    SameResult R (layPieces ms maxWidth ps col fresh c)
      (layPieces ms' maxWidth ps col fresh c') := by
  induction ps generalizing col fresh c c' with
  | nil => exact ⟨rfl, hc⟩
  | cons p rest ih =>
    obtain ⟨hstart, hcounts⟩ := h.renderMargins hms hc
    simp only [Layout.layPieces, hstart]
    split
    · obtain ⟨hmore, hlast⟩ := ih _ false hcounts
      exact ⟨by rw [hmore], hlast⟩
    · split
      · obtain ⟨hmore, hlast⟩ := ih _ false hcounts
        exact ⟨by rw [hmore], hlast⟩
      · obtain ⟨hmore, hlast⟩ := ih _ false hc
        exact ⟨by rw [hmore], hlast⟩

theorem render (h : Agreement M R) (hb : b.Alike M b') (hc : R c c') :
    SameResult R (b.render c) (b'.render c') := by
  rw [Block.render, Block.render, hb.contents]
  cases b.contents with
  | none => exact ⟨rfl, hc⟩
  | some contents =>
    obtain ⟨hstart, hcounts⟩ := h.renderMargins hb.margins hc
    simp only [wrap, hb.maxWidth, hb.preserveNewlines, hstart]
    obtain ⟨hmore, hlast⟩ := h.layPieces hb.margins b.options.maxWidth _ _ true hcounts
    exact ⟨by rw [hmore], hlast⟩

theorem separatorLine (h : Agreement M R) (hearlier : Option.Rel (Block.Alike M) earlier earlier')
    (hb : b.Alike M b') (hc : R c c') :
    SameResult R (separatorLine earlier b c) (separatorLine earlier' b' c') := by
  cases hearlier with
  | none => exact ⟨rfl, hc⟩
  | @some e e' he =>
    obtain ⟨hstart, hcounts⟩ := h.renderMargins he.margins hc
    simp only [Layout.separatorLine, h.isHeading_eq hb, h.isHeading_eq he, he.endsWithHardBreak]
    split
    · exact ⟨rfl, hc⟩
    · exact ⟨by rw [hstart], hcounts⟩

/-- The same page is written from both tables. -/
theorem joinBlocks (h : Agreement M R) (hbs : List.Forall₂ (Block.Alike M) bs bs')
    (hearlier : Option.Rel (Block.Alike M) earlier earlier') (hc : R c c') :
    SameResult R (joinBlocks earlier bs c) (joinBlocks earlier' bs' c') := by
  induction hbs generalizing earlier earlier' c c' with
  | nil => exact ⟨rfl, hc⟩
  | cons hb _ ih =>
    obtain ⟨hshown, hcounts⟩ := h.render hb hc
    simp only [Layout.joinBlocks, hshown]
    split
    · exact ih hearlier hcounts
    · obtain ⟨hseparator, hnext⟩ := h.separatorLine hearlier hb hcounts
      obtain ⟨hmore, hlast⟩ := ih (.some hb) hnext
      exact ⟨by rw [hseparator, hmore, hb.ending_eq], hlast⟩

/-- The same blocks are shown from both tables. -/
theorem shownBlocks_eq (h : Agreement M R) (hbs : ∀ b ∈ bs, M b.margins b.margins)
    (hearlier : ∀ e ∈ earlier, M e.margins e.margins) (hc : R c c') :
    shownBlocks earlier bs c' = shownBlocks earlier bs c := by
  induction bs generalizing earlier c c' with
  | nil => rfl
  | cons b rest ih =>
    rw [List.forall_mem_cons] at hbs
    obtain ⟨hshown, hcounts⟩ := h.render (.refl hbs.1) hc
    obtain ⟨-, hnext⟩ :=
      h.separatorLine (Block.Alike.refl_option hearlier) (.refl hbs.1) hcounts
    simp only [shownBlocks, hshown]
    split
    · exact ih hbs.2 hearlier hcounts
    · have hb : ∀ e ∈ some b, M e.margins e.margins := by simpa using hbs.1
      rw [ih hbs.2 hb hnext]

end Agreement
end HtmlMarkdown.Layout
