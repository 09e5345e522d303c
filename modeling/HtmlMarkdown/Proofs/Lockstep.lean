import HtmlMarkdown.Proofs.LayoutRuns
import HtmlMarkdown.Proofs.TwoTables

/-!
The same outlines laid out into two drafts. The drafts may differ in what they hold before and in
the prefixes that are open then; from there on both get the same blocks, each under the prefixes
of its own draft. How many prefixes have been opened since, and not closed again, is the same in
both, so neither run closes a prefix that it has found open.
-/
namespace HtmlMarkdown.Layout

open Document

/-- Each operation on two related drafts leaves them related. The number is that of the prefixes
that have been opened in both. -/
structure Lockstep (R : Nat → Draft → Draft → Prop) : Prop where
  append : ∀ {depth d d'} (s : String), R depth d d' → R depth (d.append s) (d'.append s)
  openPrefix : ∀ {depth d d'} (p : LinePrefix) (options : BlockOptions), R depth d d' →
    R (depth + 1) (d.openPrefix p options) (d'.openPrefix p options)
  closing : ∀ {depth p d d' e}, R (depth + 1) d d' → closing p d = .ok e →
    ∃ e', closing p d' = .ok e' ∧ R depth e e'
  reference : ∀ {depth d d'} (href : String), R depth d d' →
    (d.reference href).1 = (d'.reference href).1 ∧
      R depth (d.reference href).2 (d'.reference href).2

namespace Lockstep

variable {R : Nat → Draft → Draft → Prop} {depth : Nat} {d d' e : Draft}
  {contents : List Outline} {k : Kind}

theorem boundary (hR : Lockstep R) (hd : R depth d d') (hrun : boundary d = .ok e) :
    ∃ e', boundary d' = .ok e' ∧ R depth e e' := by
  have hopen := hR.openPrefix (.uniform "") {} hd
  exact hR.closing hopen hrun

theorem delimited (hR : Lockstep R)
    (hcontents : ∀ {depth d d' e}, R depth d d' → layOutlines contents d = .ok e →
      ∃ e', layOutlines contents d' = .ok e' ∧ R depth e e')
    (before after : String) (hd : R depth d d')
    (hrun : (layOutlines contents (d.append before)).bind (fun d => .ok (d.append after)) = .ok e) :
    ∃ e', (layOutlines contents (d'.append before)).bind (fun d => .ok (d.append after)) = .ok e' ∧
      R depth e e' := by
  obtain ⟨d₁, hinner, hlast⟩ := exists_of_bind_eq_ok hrun
  cases hlast
  have hbefore := hR.append before hd
  obtain ⟨d₁', hinner', hd₁⟩ := hcontents hbefore hinner
  refine ⟨d₁'.append after, ?_, hR.append after hd₁⟩
  rw [hinner']
  rfl

theorem layOutline (hR : Lockstep R) (hk : k ≠ .lineBreak)
    (hcontents : ∀ {depth d d' e}, R depth d d' → layOutlines contents d = .ok e →
      ∃ e', layOutlines contents d' = .ok e' ∧ R depth e e')
    (hd : R depth d d') (hrun : layOutline (.node k contents) d = .ok e) :
    ∃ e', layOutline (.node k contents) d' = .ok e' ∧ R depth e e' := by
  cases treatment k with
  | @block _ p options hblock =>
    rw [layOutline_block contents d hblock] at hrun
    obtain ⟨d₁, hinner, hclose⟩ := exists_of_bind_eq_ok hrun
    have hopen := hR.openPrefix p options hd
    obtain ⟨d₁', hinner', hd₁⟩ := hcontents hopen hinner
    obtain ⟨e', hclose', he⟩ := hR.closing hd₁ hclose
    refine ⟨e', ?_, he⟩
    rw [layOutline_block contents d' hblock, hinner']
    exact hclose'
  | @delimited _ delimiter hblock hdelimiter =>
    rw [layOutline_delimited contents d hblock hdelimiter] at hrun
    rw [layOutline_delimited contents d' hblock hdelimiter]
    exact hR.delimited hcontents delimiter delimiter hd hrun
  | link href =>
    by_cases hauto : isAutolink href contents
    · rw [layOutline_autolink contents d hauto] at hrun
      rw [layOutline_autolink contents d' hauto]
      exact hR.delimited hcontents "<" ">" hd hrun
    · obtain ⟨hnumber, hreference⟩ := hR.reference href hd
      rw [layOutline_reference contents d hauto] at hrun
      rw [layOutline_reference contents d' hauto, ← hnumber]
      exact hR.delimited hcontents "[" _ hreference hrun
  | lineBreak => exact absurd rfl hk
  | separator => exact hR.boundary hd hrun
  | document => exact hcontents hd hrun
  | orderedList => cases hrun

/-- Related drafts are still related after both have been given the same outlines. -/
theorem layOutlines (hR : Lockstep R) {F : Forest} (hF : F.AllKinds (· ≠ .lineBreak))
    (hd : R depth d d') (hrun : layOutlines F.outlines d = .ok e) :
    ∃ e', layOutlines F.outlines d' = .ok e' ∧ R depth e e' := by
  unfold Forest.AllKinds at hF
  induction F generalizing depth d d' e with
  | nil =>
    cases hrun
    exact ⟨d', rfl, hd⟩
  | text s rest ih => exact ih hF (hR.append s hd) hrun
  | node id k below rest ihb ihr =>
    rw [Forest.outlines, Layout.layOutlines] at hrun
    obtain ⟨d₁, hfirst, hrest⟩ := exists_of_bind_eq_ok hrun
    obtain ⟨d₁', hfirst', hd₁⟩ := hR.layOutline hF.1 (ihb hF.2.1) hd hfirst
    obtain ⟨e', hrest', he⟩ := ihr hF.2.2 hd₁ hrest
    refine ⟨e', ?_, he⟩
    rw [Forest.outlines, Layout.layOutlines, hfirst']
    exact hrest'

end Lockstep

/-! One draft inside another. -/

/-- The margin of a prefix that has been opened after `n` more. -/
def Margin.shift (n : Nat) (margin : Margin) : Margin := { margin with slot := margin.slot + n }

/-- The second list has `outer` in the place of `lead`, and all other margins are `n` slots further
up. -/
def Shifted (lead outer : List Margin) (n : Nat) (ms ms' : List Margin) : Prop :=
  ∃ own, ms = lead ++ own ∧ ms' = outer ++ own.map (·.shift n)

/-- The second draft holds the blocks of the first behind the blocks `front`, and the margins
`outer` stand in the place of `lead`. All slots of the first draft lie `n` further up. -/
structure Draft.Grafted (lead outer : List Margin) (front : List Block) (n depth : Nat)
    (d d' : Draft) : Prop where
  margins : ∃ own, own.length = depth ∧ d.margins = lead ++ own ∧
    d'.margins = outer ++ own.map (·.shift n)
  blocks : ∃ bs, d'.blocks = front ++ bs ∧
    List.Forall₂ (Block.Alike (Shifted lead outer n)) d.blocks bs
  opened : d'.opened = d.opened + n
  hrefs : d'.hrefs = d.hrefs
  trailers : d'.trailers = d.trailers

variable {lead outer : List Margin} {front : List Block} {n depth : Nat} {d d' e : Draft}

namespace Draft.Grafted

theorem append (h : d.Grafted lead outer front n depth d') (hne : d.blocks ≠ []) (s : String) :
    (d.append s).Grafted lead outer front n depth (d'.append s) := by
  obtain ⟨bs, hblocks, hmoved⟩ := h.blocks
  have hbs : bs ≠ [] := by
    rintro rfl
    exact hne (List.forall₂_nil_right_iff.1 hmoved)
  have hne' : d'.blocks ≠ [] := by simp [hblocks, hbs]
  have hd : d.append s = { d with blocks := onLast (·.append s) d.blocks } := by
    simp [Draft.append, hne]
  have hd' : d'.append s = { d' with blocks := onLast (·.append s) d'.blocks } := by
    simp [Draft.append, hne']
  rw [hd, hd']
  refine ⟨h.margins, ⟨onLast (·.append s) bs, ?_, ?_⟩, h.opened, h.hrefs, h.trailers⟩
  · rw [hblocks, onLast_append _ front hbs]
  · exact rel_onLast (fun _ _ hmoved => hmoved.append s) hmoved

theorem openPrefix (h : d.Grafted lead outer front n depth d') (p : LinePrefix)
    (options : BlockOptions) : (d.openPrefix p options).Grafted lead outer front n (depth + 1)
      (d'.openPrefix p options) := by
  obtain ⟨own, hlen, hmargins, hmargins'⟩ := h.margins
  obtain ⟨bs, hblocks, hmoved⟩ := h.blocks
  let margin : Margin := ⟨p, d.opened⟩
  have hopen : (d.openPrefix p options).margins = lead ++ (own ++ [margin]) := by
    rw [← List.append_assoc, ← hmargins]
    rfl
  have hopen' : (d'.openPrefix p options).margins =
      outer ++ (own ++ [margin]).map (·.shift n) := by
    rw [List.map_append, ← List.append_assoc, ← hmargins', Draft.openPrefix, h.opened]
    rfl
  refine ⟨⟨own ++ [margin], by simp [hlen], hopen, hopen'⟩,
    ⟨bs ++ [{ margins := (d'.openPrefix p options).margins, options := options }], ?_, ?_⟩, ?_,
    h.hrefs, h.trailers⟩
  · simp [Draft.openPrefix, hblocks]
  · have hnew : (Block.mk (d.openPrefix p options).margins options none).Alike
        (Shifted lead outer n)
        { margins := (d'.openPrefix p options).margins, options := options } :=
      ⟨⟨_, hopen, hopen'⟩, rfl, rfl, rfl, rfl⟩
    exact List.rel_append hmoved (.cons hnew .nil)
  · simp only [Draft.openPrefix, h.opened]
    omega

theorem closing {p : LinePrefix} (h : d.Grafted lead outer front n (depth + 1) d')
    (hclose : closing p d = .ok e) :
    ∃ e', Layout.closing p d' = .ok e' ∧ e.Grafted lead outer front n depth e' := by
  obtain ⟨own, hlen, hmargins, hmargins'⟩ := h.margins
  obtain ⟨bs, hblocks, hmoved⟩ := h.blocks
  obtain ⟨left, slot, hlast, rfl⟩ := eq_of_closing hclose
  -- the prefix that is closed is one of those opened in both
  rcases List.eq_nil_or_concat own with rfl | ⟨own, margin, rfl⟩
  · simp at hlen
  · rw [List.concat_eq_append] at hlen hmargins hmargins'
    rw [hmargins, ← List.append_assoc] at hlast
    obtain ⟨rfl, hmargin⟩ := List.append_inj' hlast rfl
    obtain rfl := List.singleton_inj.1 hmargin
    have hlast' : d'.margins = (outer ++ own.map (·.shift n)) ++ [⟨p, slot + n⟩] := by
      rw [hmargins', List.map_append, List.append_assoc]
      rfl
    refine ⟨_, closing_eq hlast', ⟨own, by simpa using hlen, rfl, rfl⟩,
      ⟨bs ++ [{ margins := outer ++ own.map (·.shift n) }], ?_, ?_⟩, h.opened, h.hrefs,
      h.trailers⟩
    · simp [hblocks]
    · exact List.rel_append hmoved (.cons ⟨⟨own, rfl, rfl⟩, rfl, rfl, rfl, rfl⟩ .nil)

theorem reference (h : d.Grafted lead outer front n depth d') (href : String) :
    (d.reference href).1 = (d'.reference href).1 ∧
      (d.reference href).2.Grafted lead outer front n depth (d'.reference href).2 := by
  rw [Draft.reference, Draft.reference, h.hrefs]
  split
  · exact ⟨rfl, h⟩
  · refine ⟨rfl, h.margins, h.blocks, h.opened, ?_, ?_⟩
    · simp [addTrailer]
    · simp [addTrailer, h.trailers]

end Draft.Grafted

theorem blocks_reference (d : Draft) (href : String) :
    (d.reference href).2.blocks = d.blocks := by
  rw [Draft.reference]
  split <;> rfl

/-- Once there is a block to write into, all that is written is written into both drafts alike. -/
theorem grafted_lockstep (lead outer : List Margin) (front : List Block) (n : Nat) :
    Lockstep fun depth d d' => d.Grafted lead outer front n depth d' ∧ d.blocks ≠ [] where
  append s h := ⟨h.1.append h.2 s, (Draft.leads_append _ s).2⟩
  openPrefix p options h := ⟨h.1.openPrefix p options, Draft.blocks_openPrefix_ne _ p options⟩
  closing h hclose := by
    obtain ⟨e', hclose', he⟩ := h.1.closing hclose
    obtain ⟨left, slot, -, rfl⟩ := Draft.eq_of_closing hclose
    exact ⟨e', hclose', he, by simp⟩
  reference href h := by
    obtain ⟨hnumber, hgrafted⟩ := h.1.reference href
    exact ⟨hnumber, hgrafted, by rw [blocks_reference]; exact h.2⟩

end HtmlMarkdown.Layout
