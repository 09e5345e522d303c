import HtmlMarkdown.Proofs.AlikeCounts
import HtmlMarkdown.Proofs.Lockstep

/-!
Two lists of blocks on one page. The lines of all blocks are counted in one table, but blocks that
have their own slots in it are written as if the table held nothing else. So the second list is
written as it would be alone, and all it takes from the first is the line that comes between them,
under the prefixes of the last block that the first list shows.
-/
namespace HtmlMarkdown.Layout

variable {before c c' after : LineCounts} {size slot : Nat} {margins : List Margin}
  {bs bs' : List Block}

/-! Blocks that count their lines in a part of the table. -/

/-- The slots are among the first `size`, and `n` further up in the second list. -/
def Raised (n size : Nat) (ms ms' : List Margin) : Prop :=
  (∀ m ∈ ms, m.slot < size) ∧ ms' = ms.map (·.shift n)

/-- In the second table the counts of the first stand between others. -/
def Within (before after : LineCounts) (size : Nat) (c c' : LineCounts) : Prop :=
  c.length = size ∧ c' = before ++ c ++ after

theorem shift_zero (ms : List Margin) : ms.map (·.shift 0) = ms := List.map_id _

theorem Shifted.raised {n : Nat} {ms ms' : List Margin} (h : Shifted [] [] n ms ms')
    (hslots : ∀ m ∈ ms, m.slot < size) : Raised n size ms ms' := by
  obtain ⟨own, rfl, rfl⟩ := h
  exact ⟨hslots, rfl⟩

theorem getD_within (hslot : slot < c.length) :
    (before ++ c ++ after).getD (slot + before.length) 0 = c.getD slot 0 := by
  have hright : before.length ≤ slot + before.length := by omega
  simp only [List.getD_eq_getElem?_getD, List.append_assoc, List.getElem?_append_right hright,
    Nat.add_sub_cancel, List.getElem?_append_left hslot]

theorem modify_within {counts : LineCounts} (hslot : slot < counts.length) (f : Nat → Nat) :
    (before ++ counts ++ after).modify (slot + before.length) f =
      before ++ counts.modify slot f ++ after := by
  have hright : before.length ≤ slot + before.length := by omega
  have hlook : (before ++ counts ++ after)[slot + before.length]? = some counts[slot] := by
    rw [List.append_assoc, List.getElem?_append_right hright, Nat.add_sub_cancel,
      List.getElem?_append_left hslot, List.getElem?_eq_getElem hslot]
  rw [List.modify_eq_set, List.modify_eq_set, hlook, List.getElem?_eq_getElem hslot,
    Option.getD_some, List.append_assoc, List.set_append_right _ _ hright, Nat.add_sub_cancel,
    List.set_append_left _ _ hslot, List.append_assoc]

theorem renderMargins_within (hslots : ∀ m ∈ margins, m.slot < size)
    (hc : Within before after size c c') :
    SameResult (Within before after size) (renderMargins margins c)
      (renderMargins (margins.map (·.shift before.length)) c') := by
  induction margins generalizing c c' with
  | nil => exact ⟨rfl, hc⟩
  | cons m rest ih =>
    rw [List.forall_mem_cons] at hslots
    obtain ⟨hlength, rfl⟩ := hc
    have hslot : m.slot < c.length := hlength ▸ hslots.1
    have hnext : Within before after size (c.modify m.slot (· + 1))
        (before ++ c.modify m.slot (· + 1) ++ after) :=
      ⟨(List.length_modify ..).trans hlength, rfl⟩
    obtain ⟨htext, hcounts⟩ := ih hslots.2 hnext
    have hshift : (m.shift before.length).slot = m.slot + before.length := rfl
    simp only [List.map_cons, renderMargins, hshift, getD_within hslot, modify_within hslot]
    exact ⟨by rw [htext]; rfl, hcounts⟩

/-- Blocks are written in a part of the table as they are written in a table of their own. -/
theorem agreement_within (before after : LineCounts) (size : Nat) :
    Agreement (Raised before.length size) (Within before after size) where
  linePrefixes := by
    rintro ms ms' ⟨-, rfl⟩
    rw [List.map_map]
    rfl
  renderMargins := by
    rintro ms ms' c c' ⟨hslots, rfl⟩ hc
    exact renderMargins_within hslots hc

/-! The line between the two lists. -/

/-- What a block's lines begin with behind the first, without the white space at its ends. -/
def Block.blankLine (block : Block) : List Char :=
  Text.trim (block.margins.flatMap (·.linePrefix.later.toList))

/-- What stands between a block and one that follows it: nothing between two headings, or else one
line, on which the later block has no influence. -/
def seam (earlier later : Block) : List Char :=
  if later.isHeading && earlier.isHeading then [] else earlier.blankLine ++ ['\n']

theorem Written.text_eq (h : Written margins c) :
    (Layout.renderMargins margins c).1 = margins.flatMap (·.linePrefix.later.toList) := by
  induction margins generalizing c with
  | nil => rfl
  | cons m rest ih =>
    have hm : c.getD m.slot 0 ≠ 0 := h m (List.mem_cons_self ..)
    have hrest : Written rest c := fun m hm => h m (List.mem_cons_of_mem _ hm)
    have hnext : Written rest (c.modify m.slot (· + 1)) := hrest.renderMargins [m]
    simp only [Layout.renderMargins, if_neg hm, ih hnext, List.flatMap_cons]

/-- Behind a block under whose margins there have been lines, the separator is the seam. -/
theorem separatorLine_behind {last : Block} (hwritten : Written last.margins before)
    (hcounted : Counted last.margins before) (hbreak : last.options.endsWithHardBreak = false)
    (later : Block) (c : LineCounts) :
    ∃ before', before'.length = before.length ∧
      separatorLine (some last) later (before ++ c) = (seam last later, before' ++ c) := by
  by_cases hheadings : (later.isHeading && last.isHeading) = true
  · refine ⟨before, rfl, ?_⟩
    simp [separatorLine, seam, hheadings]
  · have hstart : Within [] c before.length before (before ++ c) := ⟨rfl, rfl⟩
    obtain ⟨htext, -, hcounts⟩ := renderMargins_within hcounted hstart
    rw [List.length_nil, shift_zero, hwritten.text_eq] at htext
    rw [List.length_nil, shift_zero, List.nil_append] at hcounts
    refine ⟨(renderMargins last.margins before).2, length_renderMargins .., ?_⟩
    simp [separatorLine, seam, hheadings, hbreak, htext, hcounts, Block.blankLine]

/-- Blocks that follow another block are written as they are written alone, behind the seam. -/
theorem joinBlocks_behind {last : Block} (hwritten : Written last.margins before)
    (hcounted : Counted last.margins before) (hbreak : last.options.endsWithHardBreak = false)
    (hbs : List.Forall₂ (Block.Alike (Raised before.length size)) bs bs')
    (hlength : c.length = size) :
    (joinBlocks (some last) bs' (before ++ c)).1 =
      (shownBlocks none bs c).head?.elim [] (seam last) ++ (joinBlocks none bs c).1 := by
  induction hbs generalizing c with
  | nil => rfl
  | @cons b b' bs bs' hb hrest ih =>
    have hstart : Within before [] size c (before ++ c) := ⟨hlength, (List.append_nil _).symm⟩
    obtain ⟨htext, hlength', hcounts⟩ := (agreement_within before [] size).render hb hstart
    rw [List.append_nil] at hcounts
    by_cases hshown : (b.render c).1 = []
    · rw [joinBlocks_cons_of_nil (htext.trans hshown), joinBlocks_cons_of_nil hshown,
        shownBlocks_cons_of_nil hshown, hcounts]
      exact ih hlength'
    · have hshown' : (b'.render (before ++ c)).1 ≠ [] := by rw [htext]; exact hshown
      obtain ⟨before', hlen, hseparator⟩ :=
        separatorLine_behind hwritten hcounted hbreak b' (b.render c).2
      have hnext : Within before' [] size (b.render c).2 (before' ++ (b.render c).2) :=
        ⟨hlength', (List.append_nil _).symm⟩
      have hagree := agreement_within before' [] size
      rw [← hlen] at hb hrest
      obtain ⟨hmore, -⟩ := hagree.joinBlocks hrest (.some hb) hnext
      have hseam : seam last b' = seam last b := by rw [seam, seam, hagree.isHeading_eq hb]
      rw [joinBlocks_cons_of_ne hshown', joinBlocks_cons_of_ne hshown,
        shownBlocks_cons_of_ne hshown, htext, hcounts, hseparator, hmore, hb.ending_eq, hseam]
      simp [separatorLine]

namespace Draft

/-- What stands between the page of one draft and that of another behind it. -/
def seamTo (d e : Draft) : List Char :=
  match d.shown.getLast?, e.shown.head? with
  | some last, some first => seam last first
  | _, _ => []

variable {d e d' : Draft}

theorem seamTo_eq_nil (h : d.shown = [] ∨ e.shown = []) : d.seamTo e = [] := by
  unfold seamTo
  rcases h with hd | he
  · rw [hd]
    rfl
  · rw [he]
    cases d.shown.getLast? <;> rfl

theorem exists_seamTo_eq (hd : d.shown ≠ []) (he : e.shown ≠ []) :
    ∃ last first, d.shown.getLast? = some last ∧ e.shown.head? = some first ∧
      d.seamTo e = seam last first := by
  obtain ⟨last, hlast⟩ := Option.isSome_iff_exists.1 (List.getLast?_isSome.2 hd)
  obtain ⟨first, rest, hrest⟩ := List.exists_cons_of_ne_nil he
  have hfirst : e.shown.head? = some first := by rw [hrest, List.head?_cons]
  refine ⟨last, first, hlast, hfirst, ?_⟩
  rw [seamTo, hlast, hfirst]

theorem mem_blocks_of_last {last : Block} (h : d.shown.getLast? = some last) :
    last ∈ d.blocks :=
  (shownBlocks_sublist none d.blocks _).subset (List.mem_of_getLast? h)

/-- The page of a draft that holds the blocks of another behind its own is both pages, with a seam
between them. -/
theorem body_grafted (hd : ∀ b ∈ d.blocks, ∀ m ∈ b.margins, m.slot < d.opened)
    (he : ∀ b ∈ e.blocks, ∀ m ∈ b.margins, m.slot < e.opened)
    (hbreaks : ∀ b ∈ d.blocks, b.options.endsWithHardBreak = false)
    (h : e.Grafted [] [] d.blocks d.opened 0 d') :
    d'.body.1 = d.body.1 ++ d.seamTo e ++ e.body.1 := by
  obtain ⟨bs, hblocks, hmoved⟩ := h.blocks
  let front := joinBlocks none d.blocks (LineCounts.start d.opened)
  have hlength : ∀ opened, (LineCounts.start opened).length = opened := fun _ =>
    List.length_replicate
  have hcounted : ∀ b ∈ d.blocks, Counted b.margins (LineCounts.start d.opened) := by
    intro b hb m hm
    rw [hlength]
    exact hd b hb m hm
  have hfrontLength : front.2.length = d.opened :=
    (length_joinBlocks none d.blocks _).trans (hlength d.opened)
  -- the blocks in front, in the first part of the table
  have hstart : Within [] (LineCounts.start e.opened) d.opened (LineCounts.start d.opened)
      (LineCounts.start d'.opened) := by
    refine ⟨hlength d.opened, ?_⟩
    rw [h.opened, LineCounts.start, Nat.add_comm, List.replicate_add]
    rfl
  have hstay : ∀ b ∈ d.blocks, Raised 0 d.opened b.margins b.margins := fun b hb =>
    ⟨hd b hb, (shift_zero b.margins).symm⟩
  have hagree := agreement_within [] (LineCounts.start e.opened) d.opened
  obtain ⟨htext, -, hcounts⟩ := hagree.joinBlocks
    (List.forall₂_same.2 fun b hb => .refl (hstay b hb)) .none hstart
  have hlast : lastShown none d.blocks (LineCounts.start d'.opened) = d.shown.getLast? := by
    rw [lastShown, hagree.shownBlocks_eq hstay (by simp) hstart, Option.or_none]
    rfl
  have hbody : d'.body.1 = front.1 ++
      (joinBlocks d.shown.getLast? bs (front.2 ++ LineCounts.start e.opened)).1 := by
    rw [body, hblocks, joinBlocks_append, htext, hlast, hcounts]
    rfl
  -- the blocks behind them, in the second part
  have hraised : List.Forall₂ (Block.Alike (Raised front.2.length e.opened)) e.blocks bs := by
    rw [hfrontLength]
    refine List.Forall₂.imp ?_ ((List.forall₂_and_left _ _).2 ⟨he, hmoved⟩)
    rintro b b' ⟨hslots, hb⟩
    exact hb.imp fun hmargins => hmargins.raised hslots
  rw [hbody, List.append_assoc]
  congr 1
  cases hshown : d.shown.getLast? with
  | none =>
    have hrest : Within front.2 [] e.opened (LineCounts.start e.opened)
        (front.2 ++ LineCounts.start e.opened) := ⟨hlength e.opened, (List.append_nil _).symm⟩
    obtain ⟨hpage, -⟩ := (agreement_within front.2 [] e.opened).joinBlocks hraised .none hrest
    rw [hpage, seamTo, hshown]
    rfl
  | some last =>
    have hmem : last ∈ d.blocks := mem_blocks_of_last hshown
    have hwritten : Written last.margins front.2 := by
      refine written_lastShown (by simp) hcounted last ?_
      rw [lastShown, Option.or_none]
      exact hshown
    have hfront : Counted last.margins front.2 :=
      (hcounted last hmem).of_length_eq (length_joinBlocks none d.blocks _)
    rw [joinBlocks_behind hwritten hfront (hbreaks last hmem) hraised (hlength e.opened), seamTo,
      hshown]
    change (e.shown.head?.elim [] (seam last)) ++ e.body.1 = _
    cases e.shown.head? <;> rfl

end Draft
end HtmlMarkdown.Layout
