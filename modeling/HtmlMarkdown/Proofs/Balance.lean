import HtmlMarkdown.Layout.OfOutline
import HtmlMarkdown.Proofs.Outlines
import HtmlMarkdown.Proofs.Rewriting

/-!
Laying out keeps the balance of prefixes. From the first block on, everything that is written
leaves the same prefixes open that it has found, so the prefix to be closed is always the one
opened last. Before the first block an empty prefix may be opened that is never closed.
-/
namespace HtmlMarkdown.Layout

open Document

theorem map_onLast_of_eq {α β : Type} {f : α → α} {g : α → β} (h : ∀ x, g (f x) = g x)
    (xs : List α) : (onLast f xs).map g = xs.map g := by
  fun_induction onLast f xs with
  | case1 => rfl
  | case2 x => simp [h]
  | case3 x rest _ ih => rw [List.map_cons, ih, List.map_cons]

theorem onLast_append {α : Type} (f : α → α) (xs : List α) {ys : List α} (hys : ys ≠ []) :
    onLast f (xs ++ ys) = xs ++ onLast f ys := by
  induction xs with
  | nil => rfl
  | cons x rest ih =>
    rw [List.cons_append, onLast, ih]
    · rfl
    · simp [hys]

theorem onLast_id {α : Type} (xs : List α) : onLast id xs = xs := by
  fun_induction onLast id xs with
  | case1 | case2 => rfl
  | case3 x rest _ ih => rw [ih]

theorem rel_onLast {α β : Type} {R : α → β → Prop} {f : α → α} {g : β → β}
    (hR : ∀ x y, R x y → R (f x) (g y)) {xs : List α} {ys : List β} (h : List.Forall₂ R xs ys) :
    List.Forall₂ R (onLast f xs) (onLast g ys) := by
  induction h with
  | nil => exact .nil
  | @cons x y xs ys hxy hrest ih =>
    cases hrest with
    | nil => exact .cons (hR x y hxy) .nil
    | cons => exact .cons hxy ih

namespace Draft

/-- Every margin counts its lines in one of the slots that have been given out. -/
structure InRange (draft : Draft) : Prop where
  margins : ∀ margin ∈ draft.margins, margin.slot < draft.opened
  blocks : ∀ margins ∈ draft.blocks.map Block.margins, ∀ margin ∈ margins,
    margin.slot < draft.opened

/-- What writing something into a draft leads to. -/
structure Leads (draft draft' : Draft) : Prop where
  inRange : draft.InRange → draft'.InRange
  blocks_ne : draft.blocks ≠ [] → draft'.blocks ≠ []
  margins_eq : draft.blocks ≠ [] → draft'.margins = draft.margins

variable {d d₁ d' : Draft}

theorem Leads.refl (d : Draft) : d.Leads d := ⟨id, id, fun _ => rfl⟩

theorem Leads.trans (h : d.Leads d₁) (h' : d₁.Leads d') : d.Leads d' :=
  ⟨fun hd => h'.inRange (h.inRange hd), fun hd => h'.blocks_ne (h.blocks_ne hd),
    fun hd => (h'.margins_eq (h.blocks_ne hd)).trans (h.margins_eq hd)⟩

theorem blocks_openPrefix_ne (d : Draft) (p : LinePrefix) (options : BlockOptions) :
    (d.openPrefix p options).blocks ≠ [] := by
  simp [openPrefix]

theorem InRange.openPrefix (h : d.InRange) (p : LinePrefix) (options : BlockOptions) :
    (d.openPrefix p options).InRange := by
  have hmargins : ∀ margin ∈ d.margins ++ [⟨p, d.opened⟩], margin.slot < d.opened + 1 := by
    intro margin hm
    rcases List.mem_append.1 hm with hm | hm
    · exact Nat.lt_succ_of_lt (h.margins margin hm)
    · rw [List.mem_singleton.1 hm]
      exact Nat.lt_succ_self _
  refine ⟨hmargins, fun margins hb => ?_⟩
  simp only [Draft.openPrefix, List.map_append, List.map_cons, List.map_nil, List.mem_append,
    List.mem_singleton] at hb
  rcases hb with hb | rfl
  · exact fun margin hm => Nat.lt_succ_of_lt (h.blocks margins hb margin hm)
  · exact hmargins

/-- A change of the last block that leaves its margins. -/
theorem leads_onLast {f : Block → Block} (hf : ∀ block, (f block).margins = block.margins)
    (d : Draft) : d.Leads { d with blocks := onLast f d.blocks } := by
  have hmap := map_onLast_of_eq hf d.blocks
  refine ⟨fun h => ⟨h.margins, ?_⟩, fun hne hnil => hne ?_, fun _ => rfl⟩
  · simpa only [hmap] using h.blocks
  · have hnil' : onLast f d.blocks = [] := hnil
    rw [hnil', List.map_nil] at hmap
    exact List.map_eq_nil_iff.1 hmap.symm

theorem leads_append (d : Draft) (s : String) :
    d.Leads (d.append s) ∧ (d.append s).blocks ≠ [] := by
  have hlast : ∀ d : Draft, d.Leads { d with blocks := onLast (·.append s) d.blocks } :=
    leads_onLast fun _ => rfl
  rw [append]
  by_cases hempty : d.blocks = []
  · have hopen := blocks_openPrefix_ne d (.uniform "") {}
    rw [if_pos (by simp [hempty])]
    exact ⟨⟨fun h => (hlast _).inRange (h.openPrefix _ _), fun hne => absurd hempty hne,
      fun hne => absurd hempty hne⟩, (hlast _).blocks_ne hopen⟩
  · rw [if_neg (by simpa using hempty)]
    exact ⟨hlast d, (hlast d).blocks_ne hempty⟩

theorem hrefs_append (d : Draft) (s : String) : (d.append s).hrefs = d.hrefs := by
  rw [append]
  split <;> rfl

theorem leads_reference (d : Draft) (href : String) : d.Leads (d.reference href).2 := by
  rw [reference]
  split
  · exact .refl d
  · exact ⟨fun h => ⟨h.margins, h.blocks⟩, id, fun _ => rfl⟩

theorem leads_markHardBreak (d : Draft) : d.Leads d.markHardBreak := by
  refine leads_onLast (fun block => ?_) d
  rfl

/-- The prefix opened last is closed, and a block starts under the others. -/
theorem closing_eq {outer : List Margin} {p : LinePrefix} {slot : Nat}
    (h : d.margins = outer ++ [⟨p, slot⟩]) : closing p d =
      .ok { d with margins := outer, blocks := d.blocks ++ [{ margins := outer }] } := by
  simp [closing, closePrefix, h]

/-- Only the prefix opened last is closed, and then just that happens. -/
theorem eq_of_closing {p : LinePrefix} (h : closing p d = .ok d') :
    ∃ outer slot, d.margins = outer ++ [⟨p, slot⟩] ∧
      d' = { d with margins := outer, blocks := d.blocks ++ [{ margins := outer }] } := by
  rcases List.eq_nil_or_concat d.margins with hnil | ⟨outer, ⟨q, slot⟩, hlast⟩
  · simp [closing, closePrefix, hnil] at h
  · rw [List.concat_eq_append] at hlast
    by_cases hq : q = p
    · subst hq
      rw [closing_eq hlast, Except.ok.injEq] at h
      exact ⟨outer, slot, hlast, h.symm⟩
    · simp [closing, closePrefix, hlast, hq] at h

/-- A prefix opens, something is written under it, and the prefix can be closed. -/
theorem closing_ok {p : LinePrefix} {options : BlockOptions}
    (h : (d.openPrefix p options).Leads d₁) :
    ∃ d', closing p d₁ = .ok d' ∧ d.Leads d' ∧ d'.blocks ≠ [] := by
  have hopen := blocks_openPrefix_ne d p options
  have hmargins : d₁.margins = d.margins ++ [⟨p, d.opened⟩] := h.margins_eq hopen
  refine ⟨_, closing_eq hmargins, ⟨fun hd => ?_, fun _ => by simp, fun _ => rfl⟩, by simp⟩
  · have hin := h.inRange (hd.openPrefix p options)
    have hd' : ∀ margin ∈ d.margins, margin.slot < d₁.opened := fun margin hm =>
      hin.margins margin (by rw [hmargins]; exact List.mem_append_left _ hm)
    refine ⟨hd', fun margins hb => ?_⟩
    simp only [List.map_append, List.map_cons, List.map_nil, List.mem_append,
      List.mem_singleton] at hb
    rcases hb with hb | rfl
    · exact hin.blocks margins hb
    · exact hd'

theorem boundary_ok (d : Draft) : ∃ d', boundary d = .ok d' ∧ d.Leads d' := by
  obtain ⟨d', hclose, hleads, -⟩ := closing_ok (Leads.refl (d.openPrefix (.uniform "") {}))
  exact ⟨d', hclose, hleads⟩

end Draft

/-- A node is laid out if its contents can be. -/
theorem layOutline_ok {k : Kind} {contents : List Outline} (hk : k.name ≠ .orderedList)
    (hcontents : ∀ d : Draft, ∃ d', layOutlines contents d = .ok d' ∧ d.Leads d') (d : Draft) :
    ∃ d', layOutline (.node k contents) d = .ok d' ∧ d.Leads d' := by
  -- what stands between two delimiters
  have hdelimited : ∀ (d : Draft) (before after : String), ∃ d₁,
      layOutlines contents (d.append before) = .ok d₁ ∧ d.Leads (d₁.append after) := by
    intro d before after
    obtain ⟨d₁, hrun, hleads⟩ := hcontents (d.append before)
    exact ⟨d₁, hrun, ((d.leads_append before).1.trans hleads).trans (d₁.leads_append after).1⟩
  cases treatment k with
  | block h =>
    obtain ⟨d₁, hrun, hleads⟩ := hcontents (d.openPrefix _ _)
    obtain ⟨d', hclose, hleads', -⟩ := Draft.closing_ok hleads
    exact ⟨d', by rw [layOutline_block contents d h, hrun]; exact hclose, hleads'⟩
  | @delimited k delimiter hblock h =>
    obtain ⟨d₁, hrun, hleads⟩ := hdelimited d delimiter delimiter
    exact ⟨_, by rw [layOutline_delimited contents d hblock h, hrun]; rfl, hleads⟩
  | link href =>
    by_cases hauto : isAutolink href contents
    · obtain ⟨d₁, hrun, hleads⟩ := hdelimited d "<" ">"
      exact ⟨_, by rw [layOutline_autolink contents d hauto, hrun]; rfl, hleads⟩
    · obtain ⟨d₁, hrun, hleads⟩ := hdelimited (d.reference href).2 "["
        ("][" ++ toString (d.reference href).1 ++ "]")
      exact ⟨_, by rw [layOutline_reference contents d hauto, hrun]; rfl,
        (d.leads_reference href).trans hleads⟩
  | lineBreak =>
    obtain ⟨d', hrun, hleads⟩ := d.markHardBreak.boundary_ok
    exact ⟨d', hrun, d.leads_markHardBreak.trans hleads⟩
  | separator => exact d.boundary_ok
  | document => exact hcontents d
  | orderedList => exact absurd rfl hk

/-- Whatever holds no ordered list can be laid out, into every draft. -/
theorem layOutlines_ok (F : Forest) (hF : F.AllKinds fun k => k.name ≠ .orderedList) :
    ∀ d : Draft, ∃ d', layOutlines F.outlines d = .ok d' ∧ d.Leads d' := by
  unfold Forest.AllKinds at hF
  induction F with
  | nil => exact fun d => ⟨d, rfl, .refl d⟩
  | text s rest ih =>
    intro d
    obtain ⟨d', hrun, hleads⟩ := ih hF (d.append s)
    exact ⟨d', hrun, (d.leads_append s).1.trans hleads⟩
  | node id k below rest ihb ihr =>
    intro d
    obtain ⟨d₁, hfirst, hleads⟩ := layOutline_ok hF.1 (ihb hF.2.1) d
    obtain ⟨d', hrest, hleads'⟩ := ihr hF.2.2 d₁
    refine ⟨d', ?_, hleads.trans hleads'⟩
    rw [Forest.outlines, layOutlines, hfirst]
    exact hrest

end HtmlMarkdown.Layout
