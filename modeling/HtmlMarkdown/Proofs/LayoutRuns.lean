import HtmlMarkdown.Proofs.Balance

/-!
What a run of the layout keeps. Everything that is laid out goes through a handful of operations
on the draft. A relation between the draft before and the draft after that each of them respects
is respected by the whole run.
-/
namespace HtmlMarkdown.Layout

open Document

/-- Each operation on a draft that a node of one of the kinds comes to respects the relation. A
prefix is opened and closed around whatever respects the relation. -/
structure RespectsSteps (kinds : Kind → Prop) (R : Draft → Draft → Prop) : Prop where
  refl : ∀ d, R d d
  trans : ∀ {d d₁ d'}, R d d₁ → R d₁ d' → R d d'
  append : ∀ d s, R d (d.append s)
  markHardBreak : kinds .lineBreak → ∀ d, R d d.markHardBreak
  reference : ∀ d href, kinds (.link href) → R d (d.reference href).2
  block : ∀ {k p options d d₁ d'}, kinds k → blockOf? k = some (p, options) →
    R (d.openPrefix p options) d₁ → closing p d₁ = .ok d' → R d d'
  /-- A boundary opens and closes the prefix of a paragraph. -/
  paragraph : kinds .paragraph

theorem exists_of_bind_eq_ok {ε α β : Type} {x : Except ε α} {f : α → Except ε β} {b : β}
    (h : x.bind f = .ok b) : ∃ a, x = .ok a ∧ f a = .ok b := by
  cases x with
  | error e => cases h
  | ok a => exact ⟨a, rfl, h⟩

namespace RespectsSteps

variable {kinds : Kind → Prop} {R : Draft → Draft → Prop} {d d₁ d' : Draft}

theorem boundary (hR : RespectsSteps kinds R) (h : boundary d = .ok d') : R d d' :=
  hR.block hR.paragraph rfl (hR.refl _) h

/-- Contents between two delimiters. -/
theorem delimited (hR : RespectsSteps kinds R) {contents : List Outline} {before : String}
    {after : String} (hcontents : ∀ d d', layOutlines contents d = .ok d' → R d d')
    (h : (layOutlines contents (d.append before)).bind (fun d => .ok (d.append after)) = .ok d') :
    R d d' := by
  obtain ⟨d₁, hrun, hlast⟩ := exists_of_bind_eq_ok h
  cases hlast
  have hbefore := hR.append d before
  have hinner := hcontents _ _ hrun
  exact hR.trans (hR.trans hbefore hinner) (hR.append d₁ after)

theorem layOutline (hR : RespectsSteps kinds R) {k : Kind} {contents : List Outline}
    (hk : kinds k) (hcontents : ∀ d d', layOutlines contents d = .ok d' → R d d')
    (h : layOutline (.node k contents) d = .ok d') : R d d' := by
  cases treatment k with
  | block hblock =>
    rw [layOutline_block contents d hblock] at h
    obtain ⟨d₁, hrun, hclose⟩ := exists_of_bind_eq_ok h
    exact hR.block hk hblock (hcontents _ _ hrun) hclose
  | delimited hblock hdelimiter =>
    rw [layOutline_delimited contents d hblock hdelimiter] at h
    exact hR.delimited hcontents h
  | link href =>
    by_cases hauto : isAutolink href contents
    · rw [layOutline_autolink contents d hauto] at h
      exact hR.delimited hcontents h
    · rw [layOutline_reference contents d hauto] at h
      exact hR.trans (hR.reference d href hk) (hR.delimited hcontents h)
  | lineBreak => exact hR.trans (hR.markHardBreak hk d) (hR.boundary h)
  | separator => exact hR.boundary h
  | document => exact hcontents d d' h
  | orderedList => cases h

/-- What each operation respects, a run respects. -/
theorem layOutlines (hR : RespectsSteps kinds R) {F : Forest}
    (hF : F.AllKinds kinds)
    (h : layOutlines F.outlines d = .ok d') : R d d' := by
  unfold Forest.AllKinds at hF
  induction F generalizing d d' with
  | nil =>
    cases h
    exact hR.refl d
  | text s rest ih => exact hR.trans (hR.append d s) (ih hF h)
  | node id k below rest ihb ihr =>
    rw [Forest.outlines, Layout.layOutlines] at h
    obtain ⟨d₁, hfirst, hrest⟩ := exists_of_bind_eq_ok h
    have hbelow : ∀ d d', Layout.layOutlines below.outlines d = .ok d' → R d d' := fun _ _ =>
      ihb hF.2.1
    exact hR.trans (hR.layOutline hF.1 hbelow hfirst) (ihr hF.2.2 hrest)

mutual

/-- Where nodes of all kinds respect it, so does a run over any outline. -/
theorem run (hR : RespectsSteps (fun _ => True) R) : ∀ (o : Outline) {d d' : Draft},
    Layout.layOutline o d = .ok d' → R d d'
  | .text s, d, d', h => by
    cases h
    exact hR.append d s
  | .node _ children, _, _, h => hR.layOutline trivial (fun _ _ => runAll hR children) h

theorem runAll (hR : RespectsSteps (fun _ => True) R) : ∀ (os : List Outline) {d d' : Draft},
    Layout.layOutlines os d = .ok d' → R d d'
  | [], d, d', h => by
    cases h
    exact hR.refl d
  | first :: rest, d, d', h => by
    obtain ⟨d₁, hfirst, hrest⟩ := exists_of_bind_eq_ok h
    exact hR.trans (run hR first hfirst) (runAll hR rest hrest)

end

end RespectsSteps
end HtmlMarkdown.Layout
