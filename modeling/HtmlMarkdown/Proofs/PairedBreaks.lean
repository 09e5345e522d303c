import HtmlMarkdown.Proofs.BreakScan
import HtmlMarkdown.Proofs.ParentLinks

/-!
What becomes of the line breaks in a tree whose child lists and back references agree. The main
statement is that the pass succeeds on every node but a separator, that nothing changes but the
node's list and the breaks that have gone from it, and that lists and back references still agree.
-/
namespace HtmlMarkdown.Document.Tree

open Relation

variable {t t' : Tree} {owner : NodeId}

instance (t : Tree) (owner id : NodeId) : Decidable (t.Lists owner id) :=
  inferInstanceAs (Decidable (.node id ∈ t.children owner))

/-- What the pass does with the breaks in the list of `owner`. -/
structure PairsUp (owner : NodeId) (t t' : Tree) : Prop where
  regroups : Regroups (t.isNamed · .lineBreak) t.size (t.children owner) (t'.children owner)
  owner_kept : t'.node owner = { t.node owner with children := t'.children owner }
  separator_new : ∀ x, t.size ≤ x → x < t'.size →
    t'.node x = ⟨.separator, [], some owner⟩ ∧ t'.Lists owner x
  break_gone : ∀ x, t.Lists owner x → t.name x = .lineBreak →
    t'.node x = { t.node x with parent := none } ∧ ∀ above, ¬ t'.Lists above x
  other_kept : ∀ x, x < t.size → x ≠ owner → ¬ (t.Lists owner x ∧ t.name x = .lineBreak) →
    t'.node x = t.node x

namespace Agrees

variable {above x : Nat}

theorem besides (h : t.Agrees) (owner : NodeId) : t.Besides owner (t.children owner) :=
  fun _ hx => ⟨h.lt_size hx, fun he => h.acyclic owner (.single (he ▸ hx))⟩

theorem node_pairedUp (h : t.Agrees) (howner : owner < t.size) (x : Nat) :
    (t.pairedUp owner).node x =
      if x = owner then
        { t.node x with
          children := pairBreaks (t.isNamed · .lineBreak) t.size (t.children owner) }
      else if t.Lists owner x ∧ t.name x = .lineBreak then { t.node x with parent := none }
      else if t.size ≤ x ∧ x < (t.pairedUp owner).size then ⟨.separator, [], some owner⟩
      else t.node x := by
  have hbreaks : t.Besides owner ((t.children owner).filter (t.isNamed · .lineBreak)) :=
    fun x hx => h.besides owner x (List.mem_of_mem_filter hx)
  have hmem : .node x ∈ (t.children owner).filter (t.isNamed · .lineBreak) ↔
      t.Lists owner x ∧ t.name x = .lineBreak := by
    simp [isNamed, Lists]
  rw [pairedUp, node_afterPairing howner hbreaks, size_afterPairing]
  simp only [hmem]

theorem children_pairedUp (h : t.Agrees) (howner : owner < t.size) (above : Nat) :
    (t.pairedUp owner).children above =
      if above = owner then pairBreaks (t.isNamed · .lineBreak) t.size (t.children owner)
      else t.children above := by
  rw [children_eq, h.node_pairedUp howner]
  split
  · rfl
  · split
    · rfl
    · split
      next hnew =>
        rw [children_eq, node_of_not_lt (Nat.not_lt.2 hnew.1)]
      next => rfl

theorem lists_pairedUp_iff (h : t.Agrees) (howner : owner < t.size) :
    (t.pairedUp owner).Lists above x ↔
      t.Lists above x ∧ ¬ (above = owner ∧ t.name x = .lineBreak) ∨
      above = owner ∧ t.size ≤ x ∧ x < (t.pairedUp owner).size := by
  have hsize : (t.pairedUp owner).size =
      t.size + pairCount (t.isNamed · .lineBreak) (t.children owner) := size_afterPairing ..
  rw [Lists, h.children_pairedUp howner]
  by_cases habove : above = owner
  · rw [if_pos habove, mem_pairBreaks_iff, hsize]
    simp [isNamed, Lists, habove]
  · rw [if_neg habove]
    simp [Lists, habove]

theorem lt_size_of_lists_pairedUp (h : t.Agrees) (howner : owner < t.size)
    (hlists : (t.pairedUp owner).Lists above x) : above < t.size := by
  rcases (h.lists_pairedUp_iff howner).1 hlists with ⟨hold, -⟩ | ⟨rfl, -⟩
  · exact lt_size_of_children_ne_nil (List.ne_nil_of_mem hold)
  · exact howner

/-- A way through the lists is an old one, or ends at a new node. -/
theorem way_pairedUp (h : t.Agrees) (howner : owner < t.size)
    (hway : TransGen (t.pairedUp owner).Lists above x) :
    TransGen t.Lists above x ∨ t.size ≤ x := by
  induction hway with
  | single hstep =>
    rcases (h.lists_pairedUp_iff howner).1 hstep with ⟨hold, -⟩ | ⟨-, hnew, -⟩
    · exact Or.inl (.single hold)
    · exact Or.inr hnew
  | tail _ hstep ih =>
    have hlt := h.lt_size_of_lists_pairedUp howner hstep
    have hway := ih.resolve_right (Nat.not_le.2 hlt)
    rcases (h.lists_pairedUp_iff howner).1 hstep with ⟨hold, -⟩ | ⟨-, hnew, -⟩
    · exact Or.inl (hway.tail hold)
    · exact Or.inr hnew

theorem parent_pairedUp_iff (h : t.Agrees) (howner : owner < t.size) :
    (t.pairedUp owner).parent x = some above ↔ (t.pairedUp owner).Lists above x := by
  rw [h.lists_pairedUp_iff howner, parent_eq, h.node_pairedUp howner]
  by_cases hbreak : t.Lists owner x ∧ t.name x = .lineBreak
  · -- A break of the list has no place any more.
    have hne : x ≠ owner := (h.besides owner x hbreak.1).2
    have hlt : x < t.size := h.lt_size hbreak.1
    rw [if_neg hne, if_pos hbreak]
    simp only [reduceCtorEq, false_iff, not_or, not_and]
    constructor
    · intro hlists hkept
      exact hkept (h.owner_eq hbreak.1 hlists) hbreak.2
    · exact fun _ hle => absurd hlt (Nat.not_lt.2 hle)
  have hold : t.Lists above x ↔ t.Lists above x ∧ ¬ (above = owner ∧ t.name x = .lineBreak) := by
    constructor
    · rintro hlists
      exact ⟨hlists, fun ⟨he, hname⟩ => hbreak ⟨he ▸ hlists, hname⟩⟩
    · exact And.left
  rw [← hold, if_neg hbreak]
  by_cases hnew : t.size ≤ x ∧ x < (t.pairedUp owner).size
  · have hne : x ≠ owner := fun he => Nat.not_lt.2 hnew.1 (he ▸ howner)
    have hnot : ¬ t.Lists above x := fun hlists => Nat.not_lt.2 hnew.1 (h.lt_size hlists)
    rw [if_neg hne, if_pos hnew]
    simp [hnot, hnew, eq_comm]
  · rw [if_neg hnew]
    simp only [hnew, and_false, or_false, ← h.parent_iff]
    split <;> rfl

/-- The lists and the back references still agree after the pass. -/
theorem pairedUp (h : t.Agrees) (howner : owner < t.size) : (t.pairedUp owner).Agrees := by
  constructor
  case parent_iff => exact h.parent_pairedUp_iff howner
  case once =>
    intro above
    rw [h.children_pairedUp howner]
    split
    · exact nodup_nodes_pairBreaks t.size _ (h.once owner) fun x hx => h.lt_size hx
    · exact h.once above
  case acyclic =>
    intro id hway
    obtain ⟨next, hstep, -⟩ := TransGen.head'_iff.1 hway
    have hlt := h.lt_size_of_lists_pairedUp howner hstep
    exact h.acyclic id ((h.way_pairedUp howner hway).resolve_right (Nat.not_le.2 hlt))

theorem pairsUp (h : t.Agrees) (howner : owner < t.size) : PairsUp owner t (t.pairedUp owner) := by
  constructor
  case regroups =>
    rw [h.children_pairedUp howner, if_pos rfl]
    exact regroups_pairBreaks t.size (t.children owner)
  case owner_kept =>
    rw [h.node_pairedUp howner, if_pos rfl, h.children_pairedUp howner, if_pos rfl]
  case separator_new =>
    intro x hle hlt
    refine ⟨?_, (h.lists_pairedUp_iff howner).2 (Or.inr ⟨rfl, hle, hlt⟩)⟩
    have hne : x ≠ owner := fun he => Nat.not_lt.2 hle (he ▸ howner)
    have hnot : ¬ t.Lists owner x := fun hlists => Nat.not_lt.2 hle (h.lt_size hlists)
    rw [h.node_pairedUp howner, if_neg hne, if_neg fun hbreak => hnot hbreak.1, if_pos ⟨hle, hlt⟩]
  case break_gone =>
    intro x hlists hname
    have hnode : (t.pairedUp owner).node x = { t.node x with parent := none } := by
      rw [h.node_pairedUp howner, if_neg (h.besides owner x hlists).2, if_pos ⟨hlists, hname⟩]
    refine ⟨hnode, fun above hmem => ?_⟩
    have hparent := (h.parent_pairedUp_iff howner).2 hmem
    rw [parent_eq, hnode] at hparent
    cases hparent
  case other_kept =>
    intro x hlt hne hbreak
    rw [h.node_pairedUp howner, if_neg hne, if_neg hbreak,
      if_neg fun hnew => Nat.not_lt.2 hnew.1 hlt]

end Agrees

/-- The pass in a tree whose lists and back references agree, on any node but a separator. It
succeeds, the longest runs of breaks have become half as many new separators, the breaks have no
place any more, all else is as it was, and lists and back references still agree. The walk over the
positions leaves the same tree as soon as it may take as many steps as there are children. -/
theorem twoBreaksMakeOneSeparator_pairsUp (h : t.Agrees) (howner : owner < t.size)
    (hname : t.name owner ≠ .separator) :
    ∃ t', twoBreaksMakeOneSeparator owner t = .ok () t' ∧ PairsUp owner t t' ∧ t'.Agrees ∧
      ∀ bound, (t.children owner).length ≤ bound → scanBreaks owner bound 0 t = .ok () t' := by
  have hpass := twoBreaksMakeOneSeparator_eq_pairedUp hname fun x hx => h.lt_size hx
  have hstart : ScansFrom (t.isNamed · .lineBreak) owner t [] (t.children owner) :=
    ⟨howner, hname, rfl, h.besides owner, fun _ _ => rfl⟩
  refine ⟨t.pairedUp owner, hpass, h.pairsUp howner, h.pairedUp howner, fun bound hbound => ?_⟩
  exact scanBreaks_eq_afterPairing t.size (t.children owner) rfl hstart hbound

/-- A new node can be put behind the children of any other. -/
theorem Reached.pushNew (h : t.Reached) (howner : owner < t.size) (kind : Kind) :
    Reached ([.add kind, .push owner (.node t.size)].foldl Operation.run t) := by
  have hnode (x : Nat) := node_add t kind x
  have hsize : (t.add kind).2.size = t.size + 1 := size_add t kind
  have hfree : (t.add kind).2.Free owner (.node t.size) := by
    refine free_of_childless ?_ ?_ (Nat.ne_of_gt h.linked.root_in_use) ?_ (Nat.ne_of_gt howner)
    · rw [hsize]
      exact Nat.lt_succ_self _
    · rw [parent_eq, hnode, if_pos rfl]
    · rw [children_eq, hnode, if_pos rfl]
  refine (h.step (.add kind) trivial).step (.push owner (.node t.size)) ⟨?_, hfree⟩
  rw [Operation.run, hsize]
  exact Nat.lt_succ_of_lt howner

/-- Three breaks, a text and two breaks, which the list ends with. -/
theorem twoBreaksMakeOneSeparator_pairsUp_twoRuns :
    let calls : List Operation := [.add .lineBreak, .push root (.node 1), .add .lineBreak,
      .push root (.node 2), .add .lineBreak, .push root (.node 3), .push root (.text "a"),
      .add .lineBreak, .push root (.node 4), .add .lineBreak, .push root (.node 5)]
    let t := calls.foldl Operation.run Tree.empty
    t.Agrees ∧ root < t.size ∧ t.name root ≠ .separator ∧
      ∃ t', twoBreaksMakeOneSeparator root t = .ok () t' ∧ PairsUp root t t' ∧
        t'.children root = [.node 6, .text "a", .node 7] ∧ scanBreaks root 6 0 t = .ok () t' := by
  intro calls t
  have h₁ := Reached.empty.pushNew Linked.empty.root_in_use .lineBreak
  have h₂ := h₁.pushNew h₁.linked.root_in_use .lineBreak
  have h₃ := h₂.pushNew h₂.linked.root_in_use .lineBreak
  have htext := h₃.step (.push root (.text "a")) ⟨h₃.linked.root_in_use, trivial⟩
  have h₄ := htext.pushNew htext.linked.root_in_use .lineBreak
  have h : t.Reached := h₄.pushNew h₄.linked.root_in_use .lineBreak
  have hagrees := h.linked.agrees
  obtain ⟨t', hrun, hpairs, -, hscan⟩ :=
    twoBreaksMakeOneSeparator_pairsUp hagrees h.linked.root_in_use (by decide)
  refine ⟨hagrees, h.linked.root_in_use, by decide, t', hrun, hpairs, ?_, hscan 6 (by decide)⟩
  exact hpairs.regroups.eq_pairBreaks.trans (by decide)

end HtmlMarkdown.Document.Tree
