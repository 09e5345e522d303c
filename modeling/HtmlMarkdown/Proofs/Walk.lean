import HtmlMarkdown.Proofs.Held
import HtmlMarkdown.Proofs.PassRuns
import Mathlib.Data.List.Perm.Subperm

/-!
Walks over a whole tree. A walk runs a pass on a node and then on what the node lists afterwards,
and it ends by itself: the bound on its depth is never reached, since no way down a held forest is
longer than the table. What the walk does to the forest is a step at each node, from above.
-/
namespace HtmlMarkdown.Document

namespace Forest

/-- A step at each node, and then at each of the nodes that lie below it after its step. -/
inductive Visited (Step : Kind → Forest → Forest → Prop) : Forest → Forest → Prop
  | nil : Visited Step nil nil
  | text {F G : Forest} (s : String) (h : Visited Step F G) : Visited Step (text s F) (text s G)
  | node {below mid below' rest rest' : Forest} (id : NodeId) (k : Kind)
      (hstep : Step k below mid) (hbelow : Visited Step mid below')
      (hrest : Visited Step rest rest') :
      Visited Step (node id k below rest) (node id k below' rest')

/-- One kind of step after the other, each over the whole forest. -/
inductive VisitedAll : List (Kind → Forest → Forest → Prop) → Forest → Forest → Prop
  | nil (F : Forest) : VisitedAll [] F F
  | cons {F G H : Forest} {Step : Kind → Forest → Forest → Prop}
      {rest : List (Kind → Forest → Forest → Prop)} (h : Visited Step F G)
      (hrest : VisitedAll rest G H) : VisitedAll (Step :: rest) F H

variable {n : NodeId} {F G : Forest} {Step : Kind → Forest → Forest → Prop}

namespace Visited

theorem children_eq (h : Visited Step F G) : G.children = F.children := by
  induction h with
  | nil => rfl
  | text s _ ih => simp only [children, ih]
  | node id k _ _ _ _ ih => simp only [children, ih]

theorem topKinds_eq (h : Visited Step F G) : G.topKinds = F.topKinds := by
  induction h with
  | nil => rfl
  | text s _ ih => exact ih
  | node id k _ _ _ _ ih => simp only [topKinds, ih]

theorem rewrites (hstep : ∀ k F F', Step k F F' → Rewrites n F F') (h : Visited Step F G) :
    Rewrites n F G := by
  induction h with
  | nil => exact .refl
  | text s _ ih => exact ih.behindText s
  | node id k hs _ _ ihb ihr =>
    have hbelow : Rewrites n _ _ := (hstep k _ _ hs).trans ihb
    exact (hbelow.inside id k _).trans (ihr.behindNode id k _)

/-- What a step makes true of a list holds of every list after the walk, if it only depends on
the entries of the list and their kinds. -/
theorem everywhere {Q : Kind → Forest → Prop} (hQ : ∀ k F F', Step k F F' → Q k F')
    (hlocal : ∀ k F F', F'.children = F.children → F'.topKinds = F.topKinds → Q k F → Q k F')
    (h : Visited Step F G) : G.Everywhere Q := by
  induction h with
  | nil => trivial
  | text s _ ih => exact ih
  | node id k hs hb _ ihb ihr =>
    exact ⟨hlocal k _ _ hb.children_eq hb.topKinds_eq (hQ k _ _ hs), ihb, ihr⟩

end Visited
end Forest

namespace Tree

/-- A walk without a bound: it runs the pass on each node of a list and on what the node lists
afterwards, and it has an end. -/
inductive Walks (pass : NodeId → Edit Unit) : List Child → Tree → Tree → Prop
  | nil (t : Tree) : Walks pass [] t t
  | text {rest : List Child} {t t' : Tree} (s : String) (h : Walks pass rest t t') :
      Walks pass (.text s :: rest) t t'
  | node {rest : List Child} {t t₁ t₂ t₃ : Tree} (id : NodeId) (hrun : pass id t = .ok () t₁)
      (hbelow : Walks pass (t₁.children id) t₁ t₂) (hrest : Walks pass rest t₂ t₃) :
      Walks pass (.node id :: rest) t t₃

/-- Walks from the root, one after the other. -/
inductive WalksAll : List (NodeId → Edit Unit) → Tree → Tree → Prop
  | nil (t : Tree) : WalksAll [] t t
  | cons {t t₁ t₂ : Tree} {pass : NodeId → Edit Unit} {rest : List (NodeId → Edit Unit)}
      (h : Walks pass [.node root] t t₁) (hrest : WalksAll rest t₁ t₂) :
      WalksAll (pass :: rest) t t₂

variable {n d : Nat} {t : Tree} {above : Option NodeId} {F : Forest}
  {pass : NodeId → Edit Unit} {Step : Kind → Forest → Forest → Prop}

/-- With room for `d` levels, a walk from one node of a held forest runs as it would without a
bound, and it takes its step everywhere. -/
def VisitRuns (n : Nat) (pass : NodeId → Edit Unit) (Step : Kind → Forest → Forest → Prop)
    (d : Nat) : Prop :=
  ∀ (t : Tree) (above : Option NodeId) (id : NodeId) (k : Kind) (below : Forest),
    below.depth < d → n ≤ t.size → t.Holds above (.node id k below .nil) →
    (Forest.node id k below .nil).ids.Nodup →
    (Forest.node id k below .nil).SeparatorsChildless →
    ∃ t₁ t' mid below', visitTo pass d id t = .ok () t' ∧ pass id t = .ok () t₁ ∧
      Walks pass (t₁.children id) t₁ t' ∧ Step k below mid ∧ mid.Visited Step below' ∧
      t'.Holds above (.node id k below' .nil) ∧
      Becomes t (.node id k below .nil) t' (.node id k below' .nil)

/-- Walks from the nodes of a list, one after the other. -/
theorem forM_visitTo (hone : VisitRuns n pass Step d) :
    ∀ (F : Forest) (t : Tree) (above : Option NodeId), F.depth ≤ d → n ≤ t.size →
      t.Holds above F → F.ids.Nodup → F.SeparatorsChildless →
      ∃ t' F', (F.children.filterMap Child.node?).forM (visitTo pass d) t = .ok () t' ∧
        Walks pass F.children t t' ∧ F.Visited Step F' ∧ t'.Holds above F' ∧
        Becomes t F t' F' := by
  intro F
  induction F with
  | nil =>
    intro t above _ _ h hnd _
    exact ⟨t, .nil, rfl, .nil t, .nil, h, Becomes.refl t hnd⟩
  | text s rest ih =>
    intro t above hd hn h hnd hsep
    obtain ⟨t', F', hrun, hwalk, hvisit, hholds, hbecomes⟩ := ih t above hd hn h hnd hsep
    exact ⟨t', .text s F', hrun, hwalk.text s, hvisit.text s, hholds,
      ⟨hbecomes.size_le, hbecomes.nodup, hbecomes.mem_or_new, hbecomes.frame⟩⟩
  | node id k below rest _ ih =>
    intro t above hd hn h hnd hsep
    obtain ⟨hidb, hidr, hndb, hndr, hdisj⟩ := Forest.nodup_ids_node.1 hnd
    simp only [Forest.depth] at hd
    have hhead : (Forest.node id k below .nil).ids.Nodup := by
      simpa [Forest.ids] using ⟨hidb, hndb⟩
    have hapart : ∀ x ∈ rest.ids, x ∉ (Forest.node id k below .nil).ids := by
      intro x hx hmem
      simp only [Forest.ids, List.append_nil, List.mem_cons] at hmem
      rcases hmem with rfl | hmem
      · exact hidr hx
      · exact hdisj x hmem hx
    obtain ⟨t₁, t₂, mid, below', hrun, hpass, hwalk, hstep, hvisit, hholds, hbecomes⟩ :=
      hone t above id k below (by omega) hn ⟨h.1, h.2.1, trivial⟩ hhead
        ⟨hsep.1, hsep.2.1, trivial⟩
    obtain ⟨t', rest', hrun', hwalk', hvisit', hholds', hbecomes'⟩ :=
      ih t₂ above (by omega) (Nat.le_trans hn hbecomes.size_le)
        (hbecomes.holds h.2.2 hapart) hndr hsep.2.2
    obtain ⟨hall, hallB⟩ := Becomes.siblings h hnd hholds hbecomes hholds' hbecomes'
    exact ⟨t', .node id k below' rest', (forM_cons_of_ok hrun).trans hrun',
      Walks.node id hpass hwalk hwalk', .node id k hstep hvisit hvisit', hall, hallB⟩

/-- A walk from one node takes the step there and then walks along what it has left below. -/
theorem visitTo_runs (hpass : Realizes n pass Step)
    (hstep : ∀ k F F', Step k F F' → Forest.Rewrites n F F') : ∀ d, VisitRuns n pass Step d := by
  intro d
  induction d with
  | zero =>
    intro t above id k below hd
    omega
  | succ d ih =>
    intro t above id k below hd hn h hnd hsep
    obtain ⟨t₁, mid, hrun, hmid, hholds, hbecomes⟩ := hpass t above id k below hn h hnd hsep.1
    have hrw := hstep k below mid hmid
    have hdepth := hrw.depth_le
    obtain ⟨-, -, hndm, -, -⟩ := Forest.nodup_ids_node.1 hbecomes.nodup
    obtain ⟨t', below', hrun', hwalk, hvisit, hbelow, hbecomes'⟩ :=
      forM_visitTo ih mid t₁ (some id) (by omega) (Nat.le_trans hn hbecomes.size_le) hholds.2.1
        hndm (hrw.separatorsChildless hsep.2.1)
    obtain ⟨hholds', hinside⟩ :=
      Becomes.inside hholds hbecomes.nodup hbelow hbecomes' hvisit.children_eq
    refine ⟨t₁, t', mid, below', ?_, hrun, by rwa [hholds.children_eq], hmid, hvisit, hholds',
      hbecomes.trans hinside⟩
    rw [visitTo, bind_of_ok hrun, get_bind, hholds.children_eq]
    exact hrun'

/-- The forest of a whole tree is the root with all that lies below it. -/
structure Spans (t : Tree) (F : Forest) : Prop where
  holds : t.Holds (t.parent root) (.node root .document F .nil)
  nodup : (Forest.node root .document F .nil).ids.Nodup
  separators : F.SeparatorsChildless

/-- No way down is longer than the table. -/
theorem Spans.depth_lt (h : t.Spans F) : F.depth < t.size := by
  have hsub : (Forest.node root .document F .nil).ids ⊆ List.range t.size := fun x hx =>
    List.mem_range.2 (h.holds.lt_size x hx)
  have hlen := (List.subperm_of_subset h.nodup hsub).length_le
  rw [List.length_range] at hlen
  have hdepth := Forest.depth_le_length_ids (.node root .document F .nil)
  simp only [Forest.depth] at hdepth
  omega

/-- What has become of a whole tree. -/
abbrev SpanBecomes (t : Tree) (F : Forest) (t' : Tree) (F' : Forest) : Prop :=
  Becomes t (.node root .document F .nil) t' (.node root .document F' .nil)

theorem visit_runs (hpass : Realizes n pass Step)
    (hstep : ∀ k F F', Step k F F' → Forest.Rewrites n F F') (hn : n ≤ t.size) (h : t.Spans F) :
    ∃ t' F', visit pass root t = .ok () t' ∧ Walks pass [.node root] t t' ∧
      (Forest.node root .document F .nil).Visited Step (.node root .document F' .nil) ∧
      t'.Spans F' ∧ SpanBecomes t F t' F' := by
  have hsep : (Forest.node root .document F .nil).SeparatorsChildless :=
    ⟨by simp, h.separators, trivial⟩
  obtain ⟨t₁, t', mid, F', hrun, hpass', hwalk, hs, hvisit, hholds, hbecomes⟩ :=
    visitTo_runs hpass hstep t.size t (t.parent root) root .document F h.depth_lt hn h.holds
      h.nodup hsep
  have hvisited : (Forest.node root .document F .nil).Visited Step
      (.node root .document F' .nil) := .node root .document hs hvisit .nil
  have hparent : t'.parent root = t.parent root := by
    rw [parent_eq, hholds.1.2]
  refine ⟨t', F', ?_, .node root hpass' hwalk (.nil t'), hvisited,
    ⟨hparent ▸ hholds, hbecomes.nodup, ?_⟩, hbecomes⟩
  · rw [visit, get_bind]
    exact hrun
  · exact ((hvisited.rewrites hstep).separatorsChildless hsep).2.1

theorem forM_visit_runs {passes : List (NodeId → Edit Unit)}
    {Steps : List (Kind → Forest → Forest → Prop)} (hall : List.Forall₂ (Realizes n) passes Steps)
    (hsteps : ∀ Step ∈ Steps, ∀ k F F', Step k F F' → Forest.Rewrites n F F')
    {t : Tree} {F : Forest} (hn : n ≤ t.size) (h : t.Spans F) :
    ∃ t' F', (passes.forM fun pass => visit pass root) t = .ok () t' ∧ WalksAll passes t t' ∧
      Forest.VisitedAll Steps (.node root .document F .nil) (.node root .document F' .nil) ∧
      t'.Spans F' ∧ SpanBecomes t F t' F' := by
  induction hall generalizing t F with
  | nil => exact ⟨t, F, rfl, .nil t, .nil _, h, Becomes.refl t h.nodup⟩
  | cons hrealizes _ ih =>
    obtain ⟨t₁, F₁, hrun, hwalk, hvisit, hspans, hbecomes⟩ :=
      visit_runs hrealizes (hsteps _ (List.mem_cons_self ..)) hn h
    obtain ⟨t', F', hrun', hwalk', hvisit', hspans', hbecomes'⟩ :=
      ih (fun Step hmem => hsteps Step (List.mem_cons_of_mem _ hmem))
        (Nat.le_trans hn hbecomes.size_le) hspans
    refine ⟨t', F', ?_, .cons hwalk hwalk', .cons hvisit hvisit', hspans',
      hbecomes.trans hbecomes'⟩
    exact (forM_cons_of_ok (f := fun pass => visit pass root) hrun).trans hrun'

end Tree
end HtmlMarkdown.Document
