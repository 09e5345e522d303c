import HtmlMarkdown.Proofs.Conversion
import HtmlMarkdown.Proofs.Linked

/-!
Trees changed call by call. Whoever holds a tree may run the edits in any order, also ones that
fail, as long as the numbers and positions are in use and a node that is handed over has no place
yet. The main statement says what then always holds: child lists and back references are two
writings of one forest, so the way up from a node leads through all that the node lies below.
-/
namespace HtmlMarkdown.Document.Tree

open Relation

/-- The call names nodes and positions that exist, and hands over what is free. -/
def Allows (t : Tree) : Operation → Prop
  | .add _ => True
  | .setKind id _ => id < t.size
  | .push owner child => owner < t.size ∧ t.Free owner child
  | .insertChild owner position child =>
    owner < t.size ∧ position ≤ (t.children owner).length ∧ t.Free owner child
  | .setChild owner position child | .replaceChild owner position child =>
    owner < t.size ∧ position < (t.children owner).length ∧ t.Free owner child
  | .removeChild owner position => owner < t.size ∧ position < (t.children owner).length
  | .clearChildren owner => owner < t.size
  | .replaceWithChildren id => id < t.size

/-- The trees that calls make out of the empty document. -/
inductive Reached : Tree → Prop
  | empty : Reached empty
  | step {t : Tree} (op : Operation) (h : Reached t) (hallowed : t.Allows op) :
      Reached (op.run t)

variable {t : Tree} {id owner : NodeId}

/-- A node that may be handed over has no place, and nor has the root. -/
theorem Linked.permits (h : t.Linked) {op : Operation} (hallowed : t.Allows op) :
    t.Permits op ∧ .node root ∉ t.moved op := by
  have hroot : ∀ {owner child}, t.Free owner child → child ≠ .node root := by
    rintro owner _ hfree rfl
    exact hfree.2.2.1 rfl
  cases op with
  | add | setKind | removeChild | clearChildren => exact ⟨hallowed, List.not_mem_nil⟩
  | push owner child =>
    obtain ⟨howner, hfree⟩ := hallowed
    exact ⟨⟨howner, hfree.loose⟩, by simpa [moved] using (hroot hfree).symm⟩
  | insertChild owner position child | setChild owner position child
  | replaceChild owner position child =>
    obtain ⟨howner, hposition, hfree⟩ := hallowed
    exact ⟨⟨howner, hposition, hfree.loose⟩, by simpa [moved] using (hroot hfree).symm⟩
  | replaceWithChildren id => exact ⟨hallowed, h.not_lists_of_detached h.root_parent⟩

/-- No call that is allowed breaks the links. -/
theorem Linked.run (h : t.Linked) {op : Operation} (hallowed : t.Allows op) :
    (op.run t).Linked := by
  obtain ⟨hpermitted, hroot⟩ := h.permits hallowed
  exact h.relinked (h.agrees.relinked_run hpermitted) hroot

theorem Reached.linked (h : t.Reached) : t.Linked := by
  induction h with
  | empty => exact Linked.empty
  | step op _ hallowed ih => exact ih.run hallowed

/-! The way up. -/

namespace Linked

/-- Every way up ends: the table is finite, and none of its nodes lies below itself. -/
theorem exists_wayUp (h : t.Linked) (hid : id < t.size) : ∃ path, t.WayUp id path := by
  let Above (a b : Fin t.size) : Prop := TransGen t.Lists a.1 b.1
  have : IsTrans _ Above := ⟨fun _ _ _ hab hbc => TransGen.trans hab hbc⟩
  have : Std.Irrefl Above := ⟨fun a => h.acyclic a.1⟩
  have hwell : WellFounded Above := Finite.wellFounded_of_trans_of_irrefl Above
  suffices hall : ∀ a : Fin t.size, ∃ path, t.WayUp a.1 path from hall ⟨id, hid⟩
  intro a
  induction a using hwell.induction with
  | _ a ih =>
    cases hparent : t.parent a.1 with
    | none => exact ⟨[a.1], .top a.2 hparent⟩
    | some owner =>
      have hlists : t.Lists owner a.1 := h.parent_iff.1 hparent
      have howner : owner < t.size := lt_size_of_children_ne_nil (List.ne_nil_of_mem hlists)
      obtain ⟨path, hpath⟩ := ih ⟨owner, howner⟩ (.single hlists)
      exact ⟨a.1 :: path, .up a.2 hparent hpath⟩

/-- The way up from a node holds the nodes that it is reached from through child lists. -/
theorem mem_wayUp_iff (h : t.Linked) {path : List NodeId} (hway : t.WayUp id path) {x : NodeId} :
    x ∈ path ↔ ReflTransGen t.Lists x id := by
  induction hway with
  | @top id _ hparent =>
    constructor
    · intro hx
      rw [List.mem_singleton.1 hx]
    · intro hx
      rcases hx.cases_tail with heq | ⟨y, -, hy⟩
      · exact List.mem_singleton.2 heq.symm
      · exact absurd hy (h.not_lists_of_detached hparent)
  | @up id owner path _ hparent _ ih =>
    have hlists : t.Lists owner id := h.parent_iff.1 hparent
    constructor
    · intro hx
      rcases List.mem_cons.1 hx with rfl | hx
      · exact .refl
      · exact (ih.1 hx).tail hlists
    · intro hx
      rcases hx.cases_tail with rfl | ⟨y, hxy, hy⟩
      · exact List.mem_cons_self ..
      · obtain rfl : y = owner := h.owner_eq hlists hy
        exact List.mem_cons_of_mem _ (ih.2 hxy)

/-- No way up is longer than the table. -/
theorem length_wayUp_le (h : t.Linked) {path : List NodeId} (hway : t.WayUp id path) :
    path.length ≤ t.size := by
  have hpath : path.Nodup ∧ path ⊆ List.range t.size := by
    induction hway with
    | top hlt _ => exact ⟨List.nodup_singleton _, by simpa using hlt⟩
    | @up id owner path hlt hparent hrest ih =>
      refine ⟨List.nodup_cons.2 ⟨fun hmem => ?_, ih.1⟩, List.cons_subset.2 ⟨?_, ih.2⟩⟩
      · have hbelow := (h.mem_wayUp_iff hrest).1 hmem
        exact h.acyclic id (.tail' hbelow (h.parent_iff.1 hparent))
      · exact List.mem_range.2 hlt
  have hle := (List.subperm_of_subset hpath.1 hpath.2).length_le
  rwa [List.length_range] at hle

theorem isOrHasParentNamed_iff (h : t.Linked) (hid : id < t.size) (name : Kind.Name) :
    t.isOrHasParentNamed id name = true ↔
      ∃ above, ReflTransGen t.Lists above id ∧ t.name above = name := by
  obtain ⟨path, hway⟩ := h.exists_wayUp hid
  rw [isOrHasParentNamed, hway.lineage_eq t.size (h.length_wayUp_le hway), List.any_eq_true]
  simp only [h.mem_wayUp_iff hway, beq_iff_eq]

end Linked

/-- Child lists and parent links never disagree, whatever calls made the tree: a node has a
parent exactly if it stands in that node's list, where it stands once and in no other list, the
root has none, and no node lies below itself. So every way up comes to its end within the bound
that the search for a name has, and the search finds the names of the nodes that lead to the given
one through child lists. -/
theorem Reached.lists_and_parents_agree (h : t.Reached) :
    t.parent root = none ∧
    (∀ id owner, t.parent id = some owner ↔ .node id ∈ t.children owner) ∧
    (∀ id owner, .node id ∈ t.children owner → (t.children owner).count (.node id) = 1 ∧
      ∀ other, .node id ∈ t.children other → other = owner) ∧
    (∀ id, ¬ TransGen t.Lists id id) ∧
    ∀ id < t.size, (∃ path, t.WayUp id path ∧ path.length ≤ t.size) ∧
      ∀ name, t.isOrHasParentNamed id name = true ↔
        ∃ above, ReflTransGen t.Lists above id ∧ t.name above = name := by
  have hlinked := h.linked
  refine ⟨hlinked.root_parent, fun id owner => hlinked.parent_iff, ?_, hlinked.acyclic, ?_⟩
  · intro id owner hmem
    refine ⟨hlinked.count_eq_one hmem, fun other hother => ?_⟩
    exact hlinked.owner_eq hmem hother
  · intro id hid
    obtain ⟨path, hway⟩ := hlinked.exists_wayUp hid
    refine ⟨⟨path, hway, hlinked.length_wayUp_le hway⟩, ?_⟩
    exact hlinked.isOrHasParentNamed_iff hid

/-- A new node without children is free for every other one. -/
theorem free_of_childless (hid : id < t.size) (hparent : t.parent id = none) (hroot : id ≠ root)
    (hchildren : t.children id = []) (hne : id ≠ owner) : t.Free owner (.node id) :=
  ⟨hid, hparent, hroot, (loose_of_childless hid hparent hchildren hne).2.2⟩

/-- A bold text in a paragraph, whose place in the document it takes after a separator has
refused it. -/
theorem lists_and_parents_agree_spliced :
    let calls : List Operation := [.add .paragraph, .push 0 (.node 1), .add .bold,
      .add .separator, .push 3 (.node 2), .push 1 (.node 2), .push 2 (.text "a"),
      .replaceWithChildren 1]
    let t := calls.foldl Operation.run Tree.empty
    t.Reached ∧ t.children 0 = [.node 2] ∧ (t.children 0).count (.node 2) = 1 ∧
      t.parent 2 = some 0 ∧ t.isOrHasParentNamed 2 .paragraph = false := by
  intro calls t
  have h₁ := Reached.empty.step (.add .paragraph) trivial
  have h₂ := h₁.step (.push 0 (.node 1))
    ⟨by decide, free_of_childless (by decide) rfl (by decide) rfl (by decide)⟩
  have h₃ := (h₂.step (.add .bold) trivial).step (.add .separator) trivial
  have h₄ := h₃.step (.push 3 (.node 2))
    ⟨by decide, free_of_childless (by decide) rfl (by decide) rfl (by decide)⟩
  have h₅ := h₄.step (.push 1 (.node 2))
    ⟨by decide, free_of_childless (by decide) rfl (by decide) rfl (by decide)⟩
  have h₆ := h₅.step (.push 2 (.text "a")) ⟨by decide, trivial⟩
  have h : t.Reached := h₆.step (.replaceWithChildren 1) (show 1 < Tree.size _ by decide)
  obtain ⟨-, hparent, honce, -, -⟩ := Reached.lists_and_parents_agree h
  have hmem : .node 2 ∈ t.children 0 := by decide
  exact ⟨h, by decide, (honce 2 0 hmem).1, (hparent 2 0).2 hmem, by decide⟩

end HtmlMarkdown.Document.Tree
