import HtmlMarkdown.Proofs.Margins
import HtmlMarkdown.Proofs.Rows
import HtmlMarkdown.Proofs.TwoTables

/-!
Line counts that lead to the same. A count only tells whether a prefix shows what it shows on its
first line or what it shows on later lines. Where the counts of a margin are not both zero or both
positive, its prefix has to show alike on all lines.
-/
namespace HtmlMarkdown.Layout

open Document

/-- A line has been counted in a slot that there is, if one of the margins has the slot. -/
theorem getD_renderMargins_eq_zero (margins : List Margin) (counts : LineCounts) (slot : Nat) :
    (renderMargins margins counts).2.getD slot 0 = 0 ↔
      counts.getD slot 0 = 0 ∧ (slot < counts.length → slot ∉ margins.map Margin.slot) := by
  induction margins generalizing counts with
  | nil => simp [renderMargins]
  | cons m rest ih =>
    simp only [renderMargins, ih, List.length_modify, List.map_cons, List.mem_cons, not_or]
    have hfirst : (counts.modify m.slot (· + 1)).getD slot 0 = 0 ↔
        counts.getD slot 0 = 0 ∧ (slot < counts.length → slot ≠ m.slot) := by
      rw [List.getD_eq_getElem?_getD, List.getD_eq_getElem?_getD, List.getElem?_modify]
      by_cases hslot : m.slot = slot
      · by_cases hlt : slot < counts.length
        · simp [hslot, hlt]
        · simp [hlt]
      · simp [hslot, Ne.symm hslot]
    rw [hfirst]
    tauto

/-- A way for texts to look alike that joining them keeps. -/
structure LooksAlike (T : List Char → List Char → Prop) : Prop where
  refl : ∀ s, T s s
  symm : ∀ {s u}, T s u → T u s
  append : ∀ {s s' u u'}, T s s' → T u u' → T (s ++ u) (s' ++ u')

theorem looksAlike_eq : LooksAlike Eq :=
  ⟨fun _ => rfl, Eq.symm, fun h h' => h ▸ h' ▸ rfl⟩

/-- Both texts are empty, or none is. -/
def EmptyAlike (s u : List Char) : Prop := s = [] ↔ u = []

theorem looksAlike_emptyAlike : LooksAlike EmptyAlike :=
  ⟨fun _ => Iff.rfl, Iff.symm, fun h h' => by
    unfold EmptyAlike at h h' ⊢
    simp [h, h']⟩

/-- The first line under the prefix looks like the others. -/
def LinePrefix.Steady (T : List Char → List Char → Prop) (p : LinePrefix) : Prop :=
  T p.first.toList p.later.toList

/-- Counts that tell first lines from others in the same way, where that can be seen. -/
structure AlikeUnder (T : List Char → List Char → Prop) (margins : List Margin)
    (counts counts' : LineCounts) : Prop where
  length_eq : counts.length = counts'.length
  zero_iff : ∀ m ∈ margins, m.linePrefix.Steady T ∨
    (counts.getD m.slot 0 = 0 ↔ counts'.getD m.slot 0 = 0)

variable {T : List Char → List Char → Prop} {all margins : List Margin}
  {c c' c₁ : LineCounts}

namespace AlikeUnder

theorem refl (all : List Margin) (c : LineCounts) : AlikeUnder T all c c :=
  ⟨rfl, fun _ _ => Or.inr .rfl⟩

theorem symm (h : AlikeUnder T all c c') : AlikeUnder T all c' c :=
  ⟨h.length_eq.symm, fun m hm => (h.zero_iff m hm).imp_right .symm⟩

theorem trans (h : AlikeUnder T all c c₁) (h' : AlikeUnder T all c₁ c') :
    AlikeUnder T all c c' := by
  refine ⟨h.length_eq.trans h'.length_eq, fun m hm => ?_⟩
  rcases h.zero_iff m hm with hsteady | hzero
  · exact Or.inl hsteady
  · exact (h'.zero_iff m hm).imp_right hzero.trans

/-- Lines are written under the same margins. -/
theorem renderMargins (h : AlikeUnder T all c c') (margins : List Margin) :
    AlikeUnder T all (renderMargins margins c).2 (renderMargins margins c').2 := by
  refine ⟨by rw [length_renderMargins, length_renderMargins, h.length_eq], fun m hm => ?_⟩
  refine (h.zero_iff m hm).imp_right fun hzero => ?_
  rw [getD_renderMargins_eq_zero, getD_renderMargins_eq_zero, h.length_eq, hzero]

/-- One more line is written, of which nothing can be seen later. -/
theorem of_quiet (h : ∀ m ∈ all, m.slot ∈ margins.map Margin.slot →
    m.linePrefix.Steady T ∨ c.getD m.slot 0 ≠ 0) :
    AlikeUnder T all c (Layout.renderMargins margins c).2 := by
  refine ⟨(length_renderMargins margins c).symm, fun m hm => ?_⟩
  rw [getD_renderMargins_eq_zero]
  by_cases hslot : m.slot ∈ margins.map Margin.slot
  · exact (h m hm hslot).imp_right fun hne =>
      ⟨fun hzero => absurd hzero hne, fun hzero => absurd hzero.1 hne⟩
  · simp [hslot]

theorem text (hT : LooksAlike T) (h : AlikeUnder T all c c') (hsub : margins ⊆ all) :
    T (Layout.renderMargins margins c).1 (Layout.renderMargins margins c').1 := by
  induction margins generalizing c c' with
  | nil => exact hT.refl []
  | cons m rest ih =>
    rw [List.cons_subset] at hsub
    have hnext := ih (h.renderMargins [m]) hsub.2
    refine hT.append ?_ hnext
    rcases h.zero_iff m hsub.1 with hsteady | hzero
    · split <;> split
      · exact hT.refl _
      · exact hsteady
      · exact hT.symm hsteady
      · exact hT.refl _
    · simp only [hzero]
      exact hT.refl _

end AlikeUnder

/-! Margins under which lines have been written. -/

/-- Counts with the same slots at zero. -/
structure SameZeros (c c' : LineCounts) : Prop where
  length_eq : c.length = c'.length
  zero_iff : ∀ slot, c.getD slot 0 = 0 ↔ c'.getD slot 0 = 0

theorem SameZeros.refl (c : LineCounts) : SameZeros c c := ⟨rfl, fun _ => .rfl⟩

theorem SameZeros.trans (h : SameZeros c c₁) (h' : SameZeros c₁ c') : SameZeros c c' :=
  ⟨h.length_eq.trans h'.length_eq, fun slot => (h.zero_iff slot).trans (h'.zero_iff slot)⟩

theorem SameZeros.alikeUnder (h : SameZeros c c') : AlikeUnder T all c c' :=
  ⟨h.length_eq, fun m _ => Or.inr (h.zero_iff m.slot)⟩

/-- Under each of the margins a line has been written. -/
def Written (margins : List Margin) (c : LineCounts) : Prop :=
  ∀ m ∈ margins, c.getD m.slot 0 ≠ 0

theorem Written.of_sameZeros (h : Written margins c) (hc : SameZeros c c') : Written margins c' :=
  fun m hm hzero => h m hm ((hc.zero_iff m.slot).2 hzero)

theorem Written.renderMargins (h : Written margins c) (ms : List Margin) :
    Written margins (renderMargins ms c).2 := fun m hm hzero =>
  h m hm ((getD_renderMargins_eq_zero ms c m.slot).1 hzero).1

theorem written_renderMargins (h : Counted margins c) :
    Written margins (renderMargins margins c).2 := fun m hm hzero =>
  ((getD_renderMargins_eq_zero margins c m.slot).1 hzero).2 (h m hm) (List.mem_map_of_mem hm)

/-- One more line changes nothing where there have been lines. -/
theorem Written.sameZeros (h : Written margins c) :
    SameZeros c (Layout.renderMargins margins c).2 := by
  refine ⟨(length_renderMargins margins c).symm, fun slot => ?_⟩
  rw [getD_renderMargins_eq_zero]
  refine ⟨fun hzero => ⟨hzero, fun _ hmem => ?_⟩, And.left⟩
  obtain ⟨m, hm, rfl⟩ := List.mem_map.1 hmem
  exact h m hm hzero

theorem Written.layPieces (h : Written margins c) (maxWidth : Nat) (ps : List Piece) (col : Nat)
    (fresh : Bool) : SameZeros c (layPieces margins maxWidth ps col fresh c).2 := by
  induction ps generalizing col fresh c with
  | nil => exact .refl c
  | cons p rest ih =>
    have hnext := h.of_sameZeros h.sameZeros
    simp only [Layout.layPieces]
    split
    · exact h.sameZeros.trans (ih hnext _ false)
    · split
      · exact h.sameZeros.trans (ih hnext _ false)
      · exact ih h _ false

/-- A block that has been given text counts as one line under its margins. -/
theorem Block.render_sameZeros {block : Block} (hcounted : Counted block.margins c)
    (hcontents : block.contents ≠ none) :
    SameZeros (renderMargins block.margins c).2 (block.render c).2 := by
  obtain ⟨contents, hsome⟩ := Option.ne_none_iff_exists'.1 hcontents
  rw [Block.render, hsome]
  exact (written_renderMargins hcounted).layPieces _ _ _ true

theorem Block.written_render {block : Block} (hcounted : Counted block.margins c)
    (hcontents : block.contents ≠ none) : Written block.margins (block.render c).2 :=
  (written_renderMargins hcounted).of_sameZeros (block.render_sameZeros hcounted hcontents)

/-- What is rendered next does not undo lines. -/
theorem Written.render (h : Written margins c) {block : Block}
    (hcounted : Counted block.margins c) : Written margins (block.render c).2 := by
  by_cases hcontents : block.contents = none
  · rw [Block.render, hcontents]
    exact h
  · exact (h.renderMargins block.margins).of_sameZeros (block.render_sameZeros hcounted hcontents)

theorem Block.render_alikeUnder {block : Block} (hcounted : Counted block.margins c)
    (h : AlikeUnder T all c c') : AlikeUnder T all (block.render c).2 (block.render c').2 := by
  by_cases hcontents : block.contents = none
  · rw [Block.render, Block.render, hcontents]
    exact h
  · have hcounted' : Counted block.margins c' := hcounted.of_length_eq h.length_eq.symm
    have hzeros := block.render_sameZeros hcounted hcontents
    have hzeros' := block.render_sameZeros hcounted' hcontents
    exact hzeros.alikeUnder.symm.trans ((h.renderMargins block.margins).trans hzeros'.alikeUnder)

theorem separatorLine_sameZeros {earlier : Option Block} (h : ∀ b ∈ earlier, Written b.margins c)
    (later : Block) : SameZeros c (separatorLine earlier later c).2 := by
  cases earlier with
  | none => exact .refl c
  | some b =>
    simp only [separatorLine]
    split
    · exact .refl c
    · exact (h b rfl).sameZeros

/-- Under the margins of the block written last there have been lines. -/
theorem written_lastShown {earlier : Option Block} {bs : List Block}
    (hearlier : ∀ e ∈ earlier, Written e.margins c) (hcounted : ∀ b ∈ bs, Counted b.margins c) :
    ∀ b ∈ lastShown earlier bs c, Written b.margins (joinBlocks earlier bs c).2 := by
  induction bs generalizing earlier c with
  | nil => exact hearlier
  | cons b rest ih =>
    rw [List.forall_mem_cons] at hcounted
    have hlength := Block.length_render b c
    have hafter : ∀ e ∈ earlier, Written e.margins (b.render c).2 := fun e he =>
      (hearlier e he).render hcounted.1
    by_cases hshown : (b.render c).1 = []
    · rw [joinBlocks_cons_of_nil hshown, lastShown_cons_of_nil hshown]
      exact ih hafter fun b hb => (hcounted.2 b hb).of_length_eq hlength
    · have hcontents : b.contents ≠ none := fun hnone => hshown (by rw [Block.render, hnone])
      have hzeros := separatorLine_sameZeros hafter b
      rw [counts_joinBlocks_cons_of_ne hshown, lastShown_cons_of_ne hshown]
      refine ih (fun e he => ?_) fun b hb => ?_
      · obtain rfl : b = e := by simpa using he
        exact (b.written_render hcounted.1 hcontents).of_sameZeros hzeros
      · exact (hcounted.2 b hb).of_length_eq (hzeros.length_eq.symm.trans hlength)

/-! The same text from counts that are alike. -/

/-- Two results with the same text, and counts that are alike. -/
def SameText (all : List Margin) (r r' : List Char × LineCounts) : Prop :=
  r.1 = r'.1 ∧ AlikeUnder Eq all r.2 r'.2

theorem agreement_alikeUnder (all : List Margin) :
    Agreement (fun ms ms' => ms ⊆ all ∧ ms' = ms) (AlikeUnder Eq all) where
  linePrefixes := by
    rintro ms ms' ⟨-, hms⟩
    rw [hms]
  renderMargins := by
    rintro ms ms' c c' ⟨hsub, hms⟩ hc
    rw [hms]
    exact ⟨(hc.text looksAlike_eq hsub).symm, hc.renderMargins ms⟩

theorem joinBlocks_sameText {earlier : Option Block} {blocks : List Block}
    (hearlier : ∀ b ∈ earlier, b.margins ⊆ all) (hblocks : ∀ b ∈ blocks, b.margins ⊆ all)
    (h : AlikeUnder Eq all c c') :
    SameText all (joinBlocks earlier blocks c) (joinBlocks earlier blocks c') := by
  have hsame : List.Forall₂ (Block.Alike fun ms ms' => ms ⊆ all ∧ ms' = ms) blocks blocks :=
    List.forall₂_same.2 fun b hb => .refl ⟨hblocks b hb, rfl⟩
  obtain ⟨htext, hcounts⟩ := (agreement_alikeUnder all).joinBlocks hsame
    (Block.Alike.refl_option fun e he => ⟨hearlier e he, rfl⟩) h
  exact ⟨htext.symm, hcounts⟩

end HtmlMarkdown.Layout
