import HtmlMarkdown.Proofs.Normalize
import HtmlMarkdown.Proofs.WellFormed

/-!
Normal form. Each of its properties is made by one of the steps, in every list of children, and
kept by the changes that come after it. That the texts are joined is made by the last step.
-/
namespace HtmlMarkdown.Document
namespace Forest

variable {n : NodeId} {F G : Forest} {w : Bool}

/-- A kind that a step removes from the list it works on is nowhere at the end. -/
theorem VisitedAll.allKinds {Step : Kind → Forest → Forest → Prop} {p : Kind → Prop}
    (hnumber : p .listItem → ∀ i, p (.numberedItem i)) (hseparator : p .separator)
    (hmem : Step ∈ steps n w) (hStep : ∀ k F F', Step k F F' → ∀ k' ∈ F'.topKinds, p k')
    (h : VisitedAll (steps n w) F G) (htop : ∀ k ∈ F.topKinds, p k) : G.AllKinds p := by
  obtain ⟨F₁, F₂, hvisit, -, hkinds, hrest⟩ := h.after_step hmem
  refine hrest.allKinds hnumber hseparator (allKinds_iff.2 ⟨by rwa [hkinds], ?_⟩)
  exact hvisit.everywhere hStep fun k D D' _ hk hD => by rwa [hk]

theorem VisitedAll.noOrderedList (h : VisitedAll (steps n w) F G)
    (htop : ∀ k ∈ F.topKinds, k.name ≠ .orderedList) :
    G.AllKinds fun k => k.name ≠ .orderedList := by
  have hmem : NumbersLists ∈ steps n w := by simp [steps]
  refine h.allKinds (by simp [Kind.name]) (by simp [Kind.name]) hmem ?_ htop
  intro k D D' hstep
  exact Dissolved.name_ne hstep

theorem VisitedAll.noLineBreak (h : VisitedAll (steps n w) F G)
    (htop : ∀ k ∈ F.topKinds, k ≠ .lineBreak) : G.AllKinds fun k => k ≠ .lineBreak := by
  have hmem : PairsBreaks n ∈ steps n w := by simp [steps]
  refine h.allKinds (by simp) (by simp) hmem ?_ htop
  rintro k D _ ⟨fresh, -, rfl⟩
  exact kind_ne_of_mem_pairBreaks fresh D

theorem VisitedAll.noLink (h : VisitedAll (steps n true) F G)
    (htop : ∀ k ∈ F.topKinds, k.name ≠ .link) : G.AllKinds fun k => k.name ≠ .link := by
  have hmem : DissolvesLinks ∈ steps n true := by simp [steps]
  refine h.allKinds (by simp [Kind.name]) (by simp [Kind.name]) hmem ?_ htop
  intro k D D' hstep
  exact Dissolved.name_ne hstep

theorem VisitedAll.noDash (h : VisitedAll (steps n w) F G)
    (htop : ∀ s, .text s ∈ F.children → NoDash s) : G.AllTexts NoDash := by
  have hmem : Spells ∈ steps n w := by simp [steps]
  obtain ⟨F₁, F₂, hvisit, hchildren, -, hrest⟩ := h.after_step hmem
  refine hrest.allTexts (fun _ _ => NoDash.append) (fun s _ => noDash_spellDashes s)
    (allTexts_iff.2 ⟨by rwa [hchildren], ?_⟩)
  refine hvisit.everywhere ?_ fun k D D' hD _ hdash => by rwa [hD]
  rintro k D _ rfl s
  exact noDash_of_mem_spellTexts

theorem VisitedAll.joined (h : VisitedAll (steps n w) F G) :
    G.Everywhere fun _ below => NoNeighbouringTexts below.children := by
  have hsteps : steps n w = ([Joins, Spells, DropsLinks] ++
      (if w then [DissolvesLinks] else []) ++ [CollapsesCode, NumbersLists, PairsBreaks n]) ++
        Joins :: [] := by cases w <;> rfl
  rw [hsteps] at h
  obtain ⟨F₁, F₂, -, hvisit, hlast⟩ := h.split
  cases hlast
  refine hvisit.everywhere ?_ fun k D D' hD _ hjoined => by rwa [hD]
  rintro k D _ rfl
  exact noNeighbouringTexts_joinTexts D

end Forest

namespace Tree

variable {t : Tree} {F : Forest} {x : NodeId}

/-- What holds everywhere in the forest holds of each node that can be reached. -/
theorem Spans.of_everywhere (h : t.Spans F) {Q : Kind → Forest → Prop}
    (hQ : (Forest.node root .document F .nil).Everywhere Q) (hx : t.Attached x) :
    ∃ D, t.children x = D.children ∧ Q (t.kind x) D := by
  obtain ⟨above, k, D, hD, -, hall⟩ := h.holds.exists_branch (h.attached_iff.1 hx)
  refine ⟨D, hD.children_eq, ?_⟩
  rw [kind_eq, hD.1.2]
  exact (hall Q hQ).1

/-- Nothing that is left can be simplified by a pass for the whole tree, or be joined. -/
structure NormalForm (t : Tree) (withoutLinks : Bool) : Prop where
  no_orderedList : ∀ {id}, t.Attached id → t.name id ≠ .orderedList
  no_lineBreak : ∀ {id}, t.Attached id → t.name id ≠ .lineBreak
  no_link : withoutLinks → ∀ {id}, t.Attached id → t.name id ≠ .link
  joined : ∀ {id}, t.Attached id → NoNeighbouringTexts (t.children id)
  no_dash : ∀ {id s}, t.Attached id → .text s ∈ t.children id → NoDash s

theorem Spans.normalForm {n : NodeId} {w : Bool} {G : Forest} (h : t.Spans G)
    (hvisit : Forest.VisitedAll (Forest.steps n w) (.node root .document F .nil)
      (.node root .document G .nil)) : t.NormalForm w := by
  have htop : (Forest.node root .document F .nil).topKinds = [.document] := rfl
  refine ⟨fun hx => ?_, fun hx => ?_, fun hw id hx => ?_, fun hx => ?_, fun {x s} hx hs => ?_⟩
  · obtain ⟨-, -, hk⟩ := h.of_everywhere (hvisit.noOrderedList (by simp [htop, Kind.name])) hx
    exact hk
  · obtain ⟨-, -, hk⟩ := h.of_everywhere (hvisit.noLineBreak (by simp [htop])) hx
    rwa [Tree.name, Ne, Kind.eq_lineBreak_iff]
  · rw [hw] at hvisit
    obtain ⟨-, -, hk⟩ := h.of_everywhere (hvisit.noLink (by simp [htop, Kind.name])) hx
    exact hk
  · obtain ⟨D, hD, hjoined⟩ := h.of_everywhere hvisit.joined hx
    rwa [hD]
  · have hdash := Forest.allTexts_iff.1 (hvisit.noDash (by simp [Forest.children]))
    obtain ⟨D, hD, hall⟩ := h.of_everywhere hdash.2 hx
    exact hall s (hD ▸ hs)

/-- From every well-formed tree the passes come to an end, without a failure and without reaching
the bound on the depth, at a well-formed tree in normal form. -/
theorem normalize_normalForm (h : t.WellFormed) (withoutLinks : Bool) :
    ∃ t', normalize withoutLinks t = .ok () t' ∧ WalksAll (passes withoutLinks) t t' ∧
      t'.WellFormed ∧ t'.NormalForm withoutLinks := by
  obtain ⟨F, hF⟩ := h.exists_spans
  obtain ⟨t', F', hrun, hwalk, hvisit, hspans, -⟩ := normalize_runs hF withoutLinks
  exact ⟨t', hrun, hwalk, hspans.wellFormed, hspans.normalForm hvisit⟩

/-- A text with a dash, a link around two line breaks, and an ordered list of one item. -/
def mixed : Tree :=
  ⟨#[{ kind := .document, children := [.text "a—", .node 1, .node 4] },
    { kind := .link "b", children := [.node 2, .node 3], parent := some 0 },
    { kind := .lineBreak, parent := some 1 },
    { kind := .lineBreak, parent := some 1 },
    { kind := .orderedList, children := [.node 5], parent := some 0 },
    { kind := .listItem, children := [.text "c"], parent := some 4 }]⟩

theorem mixed_wellFormed : mixed.WellFormed := by
  refine wellFormed_iff_spans.2 ⟨.text "a—" (.node 1 (.link "b")
    (.node 2 .lineBreak .nil (.node 3 .lineBreak .nil .nil))
    (.node 4 .orderedList (.node 5 .listItem (.text "c" .nil) .nil) .nil)), ?_, ?_, ?_⟩
  · decide
  · decide
  · simp [Forest.SeparatorsChildless, Forest.Everywhere]

theorem normalize_normalForm_mixed : mixed.WellFormed ∧
    ∃ t', normalize true mixed = .ok () t' ∧ WalksAll (passes true) mixed t' ∧
      t'.WellFormed ∧ t'.NormalForm true :=
  ⟨mixed_wellFormed, normalize_normalForm mixed_wellFormed true⟩

end Tree
end HtmlMarkdown.Document
