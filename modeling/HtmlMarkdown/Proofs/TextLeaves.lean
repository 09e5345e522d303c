import HtmlMarkdown.Proofs.Unfolding

/-!
The texts below a node of a table, each with the prefixes of the block-level nodes above it. Where
nothing that is laid out lies below itself, they are finitely many, and laying the node out writes
each of them once, in document order, into a block that stands under just those prefixes.
-/
namespace HtmlMarkdown
namespace Document.Tree

open Layout

/-- The texts of a list of children and of all that is displayed below them, in document order,
each with the prefixes around it. There is no bound on the depth. -/
inductive TextLeaves (t : Tree) :
    List LinePrefix → List Child → List (List LinePrefix × String) → Prop
  | nil (around : List LinePrefix) : TextLeaves t around [] []
  | text {around : List LinePrefix} {rest : List Child} {leaves : List (List LinePrefix × String)}
      (s : String) (h : TextLeaves t around rest leaves) :
      TextLeaves t around (.text s :: rest) ((around, s) :: leaves)
  | boundary {around : List LinePrefix} {rest : List Child}
      {leaves : List (List LinePrefix × String)} (id : NodeId)
      (hk : (t.kind id).endsBlock = true) (h : TextLeaves t around rest leaves) :
      TextLeaves t around (.node id :: rest) leaves
  | node {around : List LinePrefix} {rest : List Child}
      {below leaves : List (List LinePrefix × String)} (id : NodeId)
      (hk : (t.kind id).endsBlock = false)
      (hbelow : TextLeaves t (around ++ prefixesOf (t.kind id)) (t.children id) below)
      (h : TextLeaves t around rest leaves) :
      TextLeaves t around (.node id :: rest) (below ++ leaves)

variable {t : Tree} {id : NodeId}

/-- The texts of what is displayed are those of the outlines that show it. -/
theorem Unfolds.textLeaves {cs : List Child} {os : List Outline} (h : t.Unfolds cs os)
    (around : List LinePrefix) :
    t.TextLeaves around cs (leavesOf (allInscriptions around os)) := by
  induction h generalizing around with
  | nil => exact .nil around
  | text s _ ih => exact (ih around).text s
  | boundary id below hk _ ih =>
    rw [allInscriptions, leavesOf_append, leavesOf_inscriptions_of_endsBlock hk]
    exact (ih around).boundary id hk
  | node id hk _ _ ihb ih =>
    rw [allInscriptions, leavesOf_append, leavesOf_inscriptions hk]
    exact .node id hk (ihb _) (ih around)

theorem textLeaves_outline (h : t.Displayable id) (around : List LinePrefix) :
    t.TextLeaves around [.node id] (leavesOf (inscriptions around (t.outline id))) := by
  have hall := (unfolds_outline h).textLeaves around
  rwa [allInscriptions, allInscriptions, List.append_nil] at hall

end Document.Tree

namespace Layout

open Document

/-- Whatever displays no ordered list and nothing below itself is laid out. All prefixes are closed
in the end but for the empty one that may have opened before the first block. The blocks hold,
one after the other, what the outline says is written, each piece under the prefixes around it.
The texts among that are all texts that are displayed, each once and in document order. -/
theorem layTree_shows_leaves (t : Tree) (id : NodeId) (h : t.Displayable id) :
    ∃ draft lead written leaves, layTree t id = .ok draft ∧
      (lead = [] ∨ lead = [implicitMargin]) ∧ draft.margins = lead ∧
      List.Forall₂ (fun block ws => block.Shows draft.hrefs lead ws) draft.blocks written ∧
      written.flatten = inscriptions [] (t.outline id) ∧
      t.TextLeaves [] [.node id] leaves ∧
      leavesOf written.flatten = leaves := by
  obtain ⟨draft, hlay, -, lead, written, hbears, hflat⟩ :=
    writes_outline (t.outline id) (h.listless t.size) {} [] [] ⟨[], [], .start, rfl⟩
  rw [List.nil_append, List.map_nil] at hflat
  refine ⟨draft, lead, written, _, hlay, hbears.lead_eq, ?_, hbears.shows, hflat,
    Tree.textLeaves_outline h [], ?_⟩
  · rw [hbears.margins_eq, List.append_nil]
  · rw [hflat]

/-- A quote that lists the same item twice, and an ordered list below a line break. -/
def repeating : Tree :=
  ⟨#[{ kind := .document, children := [.text "a", .node 1, .node 2] },
    { kind := .blockquote false, children := [.node 3, .node 3], parent := some 0 },
    { kind := .lineBreak, children := [.node 4], parent := some 0 },
    { kind := .listItem, children := [.text "b"], parent := some 1 },
    { kind := .orderedList, children := [.text "c"], parent := some 2 }]⟩

theorem repeating_displayable : repeating.Displayable Tree.root :=
  Tree.displayable_of_ascending (by decide) (by decide)

theorem layTree_shows_leaves_repeating : repeating.Displayable Tree.root ∧
    ∃ draft lead written leaves, layTree repeating Tree.root = .ok draft ∧
      (lead = [] ∨ lead = [implicitMargin]) ∧ draft.margins = lead ∧
      List.Forall₂ (fun block ws => block.Shows draft.hrefs lead ws) draft.blocks written ∧
      written.flatten = inscriptions [] (repeating.outline Tree.root) ∧
      repeating.TextLeaves [] [.node Tree.root] leaves ∧
      leavesOf written.flatten = leaves :=
  ⟨repeating_displayable, layTree_shows_leaves repeating Tree.root repeating_displayable⟩

end Layout
end HtmlMarkdown
