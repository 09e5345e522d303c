import HtmlMarkdown.Proofs.FailedCalls

/-!
Splicing. A node gives its place in its parent's list to its children, in their order, and nothing
else about the tree changes. Main statement: in a tree whose child lists and back references agree
this is what the splice does to every node with a parent that takes children, and a node without a
parent is refused with nothing changed.
-/
namespace HtmlMarkdown.Document.Tree

variable {t t' : Tree} {id owner : NodeId} {X Y : List Child}

/-- In the second tree the node has given its place in the list of `owner` to its children. -/
structure YieldsPlace (t t' : Tree) (owner id : NodeId) : Prop where
  size_eq : t'.size = t.size
  kind_eq : ∀ x, t'.kind x = t.kind x
  list_eq : ∀ X Y, t.children owner = X ++ .node id :: Y →
    t'.children owner = X ++ t.children id ++ Y
  children_eq : ∀ x, x ≠ owner → t'.children x = if x = id then [] else t.children x
  parent_eq : ∀ x, t'.parent x =
    if x = id then none else if .node x ∈ t.children id then some owner else t.parent x

namespace Agrees

/-- A node stands only once in its list. -/
theorem notMem_before (h : t.Agrees) (hlist : t.children owner = X ++ .node id :: Y) :
    .node id ∉ X := by
  intro hmem
  have hlists : t.Lists owner id := by
    rw [Lists, hlist]
    exact List.mem_append_right X (List.mem_cons_self ..)
  have hcount := h.count_eq_one hlists
  rw [hlist, List.count_append, List.count_cons_self] at hcount
  have hpos := List.count_pos_iff.2 hmem
  omega

/-- The splice at the place where the node stands, and what it leaves of each node. -/
theorem splice_at (h : t.Agrees) (hid : id < t.size) (hparent : t.parent id = some owner)
    (hname : t.name owner ≠ .separator) (hlist : t.children owner = X ++ .node id :: Y) :
    ∃ t', replaceWithChildren id t = .ok () t' ∧ t'.size = t.size ∧
      t'.node owner = { t.node owner with children := X ++ t.children id ++ Y } ∧
      t'.node id = { t.node id with children := [], parent := none } ∧
      ∀ x, x ≠ owner → x ≠ id →
        t'.node x = (t.reparent (t.children id) (some owner)).node x := by
  have hlists : t.Lists owner id := h.parent_iff.1 hparent
  have hne : owner ≠ id := (h.exists_place hparent).2.2.1
  have hself : .node id ∉ t.children id := fun hmem => h.acyclic id (.single hmem)
  have hcycle : .node owner ∉ t.children id := fun hmem =>
    h.acyclic owner (.head hlists (.single hmem))
  exact replaceWithChildren_eq hid hparent hlist (h.notMem_before hlist) hne hself hcycle hname

theorem yieldsPlace (h : t.Agrees) (hid : id < t.size) (hparent : t.parent id = some owner)
    (hname : t.name owner ≠ .separator) :
    ∃ t', replaceWithChildren id t = .ok () t' ∧ t.YieldsPlace t' owner id := by
  obtain ⟨-, -, hne, X, Y, hlist, -⟩ := h.exists_place hparent
  obtain ⟨t', hrun, hsize, howner, hleft, hother⟩ := h.splice_at hid hparent hname hlist
  have hcycle : .node owner ∉ t.children id := fun hmem =>
    h.acyclic owner (.head (h.parent_iff.1 hparent) (.single hmem))
  refine ⟨t', hrun, hsize, fun x => ?_, fun X' Y' hlist' => ?_, fun x hx => ?_, fun x => ?_⟩
  · rw [kind_eq]
    by_cases hxowner : x = owner
    · rw [hxowner, howner]
      rfl
    by_cases hxid : x = id
    · rw [hxid, hleft]
      rfl
    rw [hother x hxowner hxid, node_reparent]
    split <;> rfl
  · obtain ⟨t'', hrun', -, howner', -⟩ := h.splice_at hid hparent hname hlist'
    obtain rfl : t' = t'' := by
      rw [hrun] at hrun'
      cases hrun'
      rfl
    rw [children_eq, howner']
  · rw [children_eq]
    split_ifs with hxid
    · rw [hxid, hleft]
    · rw [hother x hx hxid, ← children_eq, children_reparent]
  · rw [parent_eq]
    split_ifs with hxid hmoved
    · rw [hxid, hleft]
    · have hxowner : x ≠ owner := by
        rintro rfl
        exact hcycle hmoved
      have hmember : .node x ∈ t.children id ∧ x < t.size := ⟨hmoved, h.lt_size hmoved⟩
      rw [hother x hxowner hxid, node_reparent, if_pos hmember]
    · by_cases hxowner : x = owner
      · rw [hxowner, howner]
        rfl
      · rw [hother x hxowner hxid, node_reparent_of_notMem _ _ _ _ hmoved]
        rfl

/-- Splicing a node whose parent is no separator always succeeds. The parent's list then has the
node's children where it had the node, they have that parent, the node is detached and without
children, and every other kind, list and parent is what it was. Without a parent the splice is
refused, and the tree stays as it is. -/
theorem splice_exact (h : t.Agrees) (hid : id < t.size) :
    (t.parent id = none → replaceWithChildren id t = .error .cannotReplaceRoot t) ∧
    ∀ owner, t.parent id = some owner → t.name owner ≠ .separator →
      (∃ X Y, t.children owner = X ++ .node id :: Y) ∧
      ∃ t', replaceWithChildren id t = .ok () t' ∧ t'.Agrees ∧ t.YieldsPlace t' owner id := by
  constructor
  · intro hparent
    simp only [replaceWithChildren, hparent]
  · intro owner hparent hname
    obtain ⟨-, -, -, X, Y, hlist, -⟩ := h.exists_place hparent
    obtain ⟨t', hrun, hyields⟩ := h.yieldsPlace hid hparent hname
    refine ⟨⟨X, Y, hlist⟩, t', hrun, ?_, hyields⟩
    have hagrees := (relinked_replaceWithChildren h id).agrees h
    rwa [Edit.after, hrun] at hagrees

end Agrees

/-- A bold node between two texts of a paragraph, and a node between two texts in the bold node. -/
theorem splice_exact_betweenTexts :
    let calls : List Operation := [.add .paragraph, .push 0 (.node 1), .push 1 (.text "a"),
      .add .bold, .push 1 (.node 2), .push 1 (.text "d"), .push 2 (.text "b"), .add .italic,
      .push 2 (.node 3), .push 2 (.text "c")]
    let t := calls.foldl Operation.run Tree.empty
    t.Agrees ∧ 2 < t.size ∧ t.parent 2 = some 1 ∧ t.name 1 ≠ .separator ∧
      ∃ t', replaceWithChildren 2 t = .ok () t' ∧
        t'.children 1 = [.text "a", .text "b", .node 3, .text "c", .text "d"] ∧
        t'.children 2 = [] ∧ t'.parent 2 = none ∧ t'.parent 3 = some 1 := by
  intro calls t
  have h₁ := Built.empty.step (.add .paragraph) trivial
  have h₂ := h₁.step (.push 0 (.node 1))
    ⟨by decide, loose_of_childless (by decide) rfl rfl (by decide)⟩
  have h₃ := h₂.step (.push 1 (.text "a")) ⟨by decide, trivial⟩
  have h₄ := h₃.step (.add .bold) trivial
  have h₅ := h₄.step (.push 1 (.node 2))
    ⟨by decide, loose_of_childless (by decide) rfl rfl (by decide)⟩
  have h₆ := h₅.step (.push 1 (.text "d")) ⟨by decide, trivial⟩
  have h₇ := h₆.step (.push 2 (.text "b")) ⟨by decide, trivial⟩
  have h₈ := h₇.step (.add .italic) trivial
  have h₉ := h₈.step (.push 2 (.node 3))
    ⟨by decide, loose_of_childless (by decide) rfl rfl (by decide)⟩
  have hbuilt : t.Built := h₉.step (.push 2 (.text "c")) ⟨by decide, trivial⟩
  have hid : 2 < t.size := by decide
  have hname : t.name 1 ≠ .separator := by decide
  have hlist : t.children 1 = [.text "a"] ++ .node 2 :: [.text "d"] := by decide
  have hmoved : t.children 2 = [.text "b", .node 3, .text "c"] := by decide
  obtain ⟨-, t', hrun, -, hyields⟩ := (hbuilt.agrees.splice_exact hid).2 1 (by decide) hname
  refine ⟨hbuilt.agrees, hid, by decide, hname, t', hrun, ?_, ?_, ?_, ?_⟩
  · rw [hyields.list_eq _ _ hlist, hmoved]
    rfl
  · rw [hyields.children_eq 2 (by decide), if_pos rfl]
  · rw [hyields.parent_eq, if_pos rfl]
  · rw [hyields.parent_eq, hmoved]
    rfl

end HtmlMarkdown.Document.Tree
