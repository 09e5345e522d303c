import HtmlMarkdown.Document.Outline
import HtmlMarkdown.Proofs.WellFormed

/-!
Outlines of well-formed trees. The outline of a node is what its forest looks like without the
numbers of the nodes, and the bound on the depth is never reached.
-/
namespace HtmlMarkdown.Document
namespace Forest

/-- The forest without the numbers of its nodes. -/
def outlines : Forest → List Outline
  | nil => []
  | text s rest => .text s :: outlines rest
  | node _ k below rest => .node k (outlines below) :: outlines rest

/-- Forests that look alike have equally many nodes. -/
theorem length_ids_of_outlines_eq {F G : Forest} (h : F.outlines = G.outlines) :
    F.ids.length = G.ids.length := by
  induction F generalizing G with
  | nil =>
    cases G with
    | nil => rfl
    | text | node => simp [outlines] at h
  | text s rest ih =>
    cases G with
    | nil | node => simp [outlines] at h
    | text u more =>
      simp only [outlines, List.cons.injEq] at h
      have hrest : rest.ids.length = more.ids.length := ih h.2
      exact hrest
  | node id k below rest ihb ihr =>
    cases G with
    | nil | text => simp [outlines] at h
    | node id' k' below' rest' =>
      simp only [outlines, List.cons.injEq, Outline.node.injEq] at h
      simp only [ids, List.length_cons, List.length_append, ihb h.1.2, ihr h.2]

end Forest

namespace Tree

variable {t : Tree} {above : Option NodeId} {F : Forest}

/-- The outline of an entry of a list of children, down to the given depth. -/
def outlineOf (t : Tree) (d : Nat) : Child → Outline
  | .text contents => .text contents
  | .node below => t.outlineTo d below

theorem outlineTo_succ (t : Tree) (d : Nat) (id : NodeId) :
    t.outlineTo (d + 1) id = .node (t.kind id) ((t.children id).map (t.outlineOf d)) := rfl

theorem Holds.outlines_eq {d : Nat} (h : t.Holds above F) (hd : F.depth ≤ d) :
    F.children.map (t.outlineOf d) = F.outlines := by
  induction F generalizing above d with
  | nil => rfl
  | text s rest ih =>
    rw [Forest.children, List.map_cons, ih h hd]
    rfl
  | node id k below rest ihb ihr =>
    simp only [Forest.depth] at hd
    obtain ⟨d, rfl⟩ : ∃ d', d = d' + 1 := ⟨d - 1, by omega⟩
    have hone : t.outlineOf (d + 1) (.node id) = .node k below.outlines := by
      rw [outlineOf, outlineTo_succ, h.children_eq, ihb h.2.1 (by omega), kind_eq, h.1.2]
    rw [Forest.children, List.map_cons, ihr h.2.2 (by omega), hone, Forest.outlines]

theorem Spans.outline_eq (h : t.Spans F) : t.outline root = .node .document F.outlines := by
  have hd := h.depth_lt
  obtain ⟨d, hsize⟩ : ∃ d, t.size = d + 1 := ⟨t.size - 1, by omega⟩
  rw [outline, hsize, outlineTo_succ, h.holds.children_eq,
    h.holds.2.1.outlines_eq (by omega), kind_eq, h.holds.1.2]

end Tree
end HtmlMarkdown.Document
