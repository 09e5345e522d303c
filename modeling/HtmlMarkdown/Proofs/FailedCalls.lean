import HtmlMarkdown.Proofs.Linked

/-!
Calls that fail. A call fails if a separator would get a child, or if a node without a parent is to
give its place away. Most calls find that out before they change anything. The splice of a node's
children into a separator does not: the node and its children have lost their places by then.
-/
namespace HtmlMarkdown.Document

/-- The fault that an edit ends with, if it fails. -/
def Edit.fault? {α : Type} (edit : Edit α) (t : Tree) : Option Fault :=
  match edit t with
  | .ok _ _ => none
  | .error fault _ => some fault

/-- The fault that the call ends with, if it fails. -/
def Operation.fault? (t : Tree) : Operation → Option Fault
  | .add _ | .setKind _ _ => none
  | .push owner child => (Tree.push owner child).fault? t
  | .insertChild owner position child => (Tree.insertChild owner position child).fault? t
  | .setChild owner position child => (Tree.setChild owner position child).fault? t
  | .replaceChild owner position child => (Tree.replaceChild owner position child).fault? t
  | .removeChild owner position => (Tree.removeChild owner position).fault? t
  | .clearChildren owner => (Tree.clearChildren owner).fault? t
  | .replaceWithChildren id => (Tree.replaceWithChildren id).fault? t

namespace Tree

variable {t t' : Tree} {id owner a : NodeId} {X Y cs : List Child} {child : Child}
  {op : Operation} {fault : Fault}

/-- The call takes a node's children out of the tree and has no place to put them: the node lies
in a separator. -/
def Tears (t : Tree) (op : Operation) : Prop :=
  ∃ id owner, op = .replaceWithChildren id ∧ t.parent id = some owner ∧
    t.name owner = .separator ∧ t.children id ≠ []

/-! Edits that look at the kind of the owner first. -/

/-- The edit fails if the owner is a separator, with nothing changed, and succeeds otherwise. -/
def Guarded {α : Type} (edit : Edit α) (owner : NodeId) (t : Tree) : Prop :=
  ∃ result t', edit t =
    if t.name owner = .separator then .error .childOfSeparator t else .ok result t'

theorem guarded_push : Guarded (push owner child) owner t := ⟨_, _, push_eq⟩

theorem guarded_insertChild (hlist : t.children owner = X ++ Y) :
    Guarded (insertChild owner X.length child) owner t := ⟨_, _, insertChild_eq hlist⟩

theorem guarded_replaceChild {old : Child} (hlist : t.children owner = X ++ old :: Y) :
    Guarded (replaceChild owner X.length child) owner t := ⟨_, _, replaceChild_eq hlist⟩

theorem guarded_setChild {old : Child} (hlist : t.children owner = X ++ old :: Y) :
    Guarded (setChild owner X.length child) owner t := by
  have hguarded : Guarded (replaceChild owner X.length child) owner t := guarded_replaceChild hlist
  obtain ⟨result, t', hrun⟩ := hguarded
  refine ⟨(), t', ?_⟩
  unfold setChild
  split_ifs at hrun ⊢ with hname
  · exact bind_of_error hrun
  · exact bind_of_ok hrun

theorem Guarded.failed {α : Type} {edit : Edit α} (h : Guarded edit owner t)
    (hfault : edit.fault? t = some fault) :
    t.name owner = .separator ∧ fault = .childOfSeparator ∧ edit.after t = t := by
  obtain ⟨result, t', hrun⟩ := h
  unfold Edit.fault? at hfault
  unfold Edit.after
  split_ifs at hrun with hname
  · rw [hrun] at hfault ⊢
    exact ⟨hname, (Option.some.inj hfault).symm, rfl⟩
  · rw [hrun] at hfault
    cases hfault

/-! The splice. -/

theorem kind_detach : (t.detach owner X cs Y).kind a = t.kind a := by
  have hchildren : (t.setChildren owner (X ++ Y)).kind a = t.kind a := by
    rw [kind_eq, setChildren, node_update]
    split <;> rfl
  rw [← hchildren, kind_eq, detach, node_reparent]
  split <;> rfl

theorem kind_uproot : (t.uproot owner X id Y).kind a = t.kind a := by
  rw [uproot, kind_detach, kind_detach]

theorem parent_uproot : (t.uproot owner X id Y).parent a =
    if a = id ∨ .node a ∈ t.children id then none else t.parent a := by
  rw [uproot, parent_detach, parent_detach]
  by_cases ha : a = id
  · simp [ha]
  · simp [ha]

/-- The node's entry is gone from the one list that it stood in. -/
theorem Agrees.children_uproot (h : t.Agrees) (hparent : t.parent id = some owner)
    (hlist : t.children owner = X ++ .node id :: Y) (hX : .node id ∉ X) :
    (t.uproot owner X id Y).children a =
      if a = id then [] else (t.children a).erase (.node id) := by
  obtain ⟨hid, howner, hne, -⟩ := h.exists_place hparent
  rw [uproot, children_detach (by rw [size_detach]; exact howner), children_detach hid]
  by_cases haowner : a = owner
  · subst haowner
    rw [if_pos rfl, if_neg hne, hlist, List.erase_append_right _ hX, List.erase_cons_head]
  · rw [if_neg haowner]
    split_ifs with haid
    · rfl
    · have hnot : .node id ∉ t.children a := fun hmem =>
        haowner (h.owner_eq (h.parent_iff.1 hparent) hmem)
      rw [List.erase_of_not_mem hnot]

/-- A splice comes to grief at its first child, when all is taken out that was to be moved. -/
theorem insertChildren_of_separator (hlist : t.children owner = X ++ Y)
    (hname : t.name owner = .separator) (hcs : cs ≠ []) :
    insertChildren owner X.length cs t = .error .childOfSeparator t := by
  obtain ⟨c, rest, rfl⟩ := List.exists_cons_of_ne_nil hcs
  have hstep : insertChild owner X.length c t = .error .childOfSeparator t := by
    rw [insertChild_eq hlist, if_pos hname]
  rw [insertChildren, bind_of_error hstep]

theorem Agrees.children_owner_uproot (h : t.Agrees) (hparent : t.parent id = some owner)
    (hlist : t.children owner = X ++ .node id :: Y) (hX : .node id ∉ X) :
    (t.uproot owner X id Y).children owner = X ++ Y := by
  have hne := (h.exists_place hparent).2.2.1
  rw [h.children_uproot hparent hlist hX, if_neg hne, hlist, List.erase_append_right _ hX,
    List.erase_cons_head]

theorem Agrees.splice_of_tears (h : t.Agrees) (htears : t.Tears (.replaceWithChildren id)) :
    ∃ owner X Y, t.parent id = some owner ∧ t.children owner = X ++ .node id :: Y ∧
      .node id ∉ X ∧
      Tree.replaceWithChildren id t = .error .childOfSeparator (t.uproot owner X id Y) := by
  obtain ⟨_, owner, hop, hparent, hname, hchildren⟩ := htears
  cases hop
  obtain ⟨hid, howner, hne, X, Y, hlist, hX⟩ := h.exists_place hparent
  refine ⟨owner, X, Y, hparent, hlist, hX, ?_⟩
  rw [replaceWithChildren_eq_insertChildren hid hne hparent hX hlist]
  apply insertChildren_of_separator (h.children_owner_uproot hparent hlist hX) _ hchildren
  rw [name, kind_uproot]
  exact hname

/-- Elsewhere a splice fails only where there is no list to splice into. -/
theorem Agrees.splice_of_not_tears (h : t.Agrees) (htears : ¬ t.Tears (.replaceWithChildren id)) :
    Tree.replaceWithChildren id t = .error .cannotReplaceRoot t ∨
      ∃ t', Tree.replaceWithChildren id t = .ok () t' := by
  cases hparent : t.parent id with
  | none =>
    apply Or.inl
    simp only [Tree.replaceWithChildren, hparent]
  | some owner =>
    apply Or.inr
    obtain ⟨hid, howner, hne, X, Y, hlist, hX⟩ := h.exists_place hparent
    rw [replaceWithChildren_eq_insertChildren hid hne hparent hX hlist]
    by_cases hchildren : t.children id = []
    · rw [hchildren]
      exact ⟨_, rfl⟩
    · have hname : (t.uproot owner X id Y).name owner ≠ .separator := by
        intro hseparator
        rw [name, kind_uproot] at hseparator
        exact htears ⟨id, owner, rfl, hparent, hseparator, hchildren⟩
      have hcycle : .node owner ∉ t.children id := fun hmem =>
        h.acyclic owner (.head (h.parent_iff.1 hparent) (.single hmem))
      obtain ⟨t', hrun, -⟩ := insertChildren_eq owner (t.children id) hcycle _ X Y
        (by rw [size_uproot]; exact howner) (h.children_owner_uproot hparent hlist hX) hname
      exact ⟨t', hrun⟩

/-! Calls. -/

/-- Outside a separator, a call that fails leaves the tree as it was. -/
theorem Agrees.run_eq_of_failed (h : t.Agrees) (hpermitted : t.Permits op)
    (hfault : op.fault? t = some fault) (htears : ¬ t.Tears op) : op.run t = t := by
  cases op with
  | add | setKind | clearChildren => cases hfault
  | push owner child => exact (guarded_push.failed hfault).2.2
  | insertChild owner position child =>
    obtain ⟨X, Y, hlist, rfl⟩ := exists_eq_append hpermitted.2.1
    exact ((guarded_insertChild hlist).failed hfault).2.2
  | setChild owner position child =>
    obtain ⟨X, old, Y, hlist, rfl⟩ := exists_eq_append_cons hpermitted.2.1
    exact ((guarded_setChild hlist).failed hfault).2.2
  | replaceChild owner position child =>
    obtain ⟨X, old, Y, hlist, rfl⟩ := exists_eq_append_cons hpermitted.2.1
    exact ((guarded_replaceChild hlist).failed hfault).2.2
  | removeChild owner position =>
    obtain ⟨X, old, Y, hlist, rfl⟩ := exists_eq_append_cons hpermitted.2
    rw [Operation.fault?, Edit.fault?, removeChild_eq hlist] at hfault
    cases hfault
  | replaceWithChildren id =>
    rcases h.splice_of_not_tears htears with hrun | ⟨t', hrun⟩
    · rw [Operation.run, Edit.after, hrun]
    · rw [Operation.fault?, Edit.fault?, hrun] at hfault
      cases hfault

/-- What is left of a tree whose splice has come to grief. -/
structure Torn (t t' : Tree) (id : NodeId) : Prop where
  kind_eq : ∀ x, t'.kind x = t.kind x
  children_eq : ∀ x, t'.children x = if x = id then [] else (t.children x).erase (.node id)
  parent_eq : ∀ x, t'.parent x = if x = id ∨ .node x ∈ t.children id then none else t.parent x

theorem Agrees.torn (h : t.Agrees) (htears : t.Tears (.replaceWithChildren id)) :
    (Operation.replaceWithChildren id).fault? t = some .childOfSeparator ∧
      t.Torn ((Operation.replaceWithChildren id).run t) id := by
  obtain ⟨owner, X, Y, hparent, hlist, hX, hrun⟩ := h.splice_of_tears htears
  have hrest : (Operation.replaceWithChildren id).run t = t.uproot owner X id Y := by
    rw [Operation.run, Edit.after, hrun]
  rw [Operation.fault?, Edit.fault?, hrun, hrest]
  exact ⟨rfl, fun _ => kind_uproot, fun _ => h.children_uproot hparent hlist hX,
    fun _ => parent_uproot⟩

/-- The trees that calls make out of the empty document. The root, too, may be given a place. -/
inductive Built : Tree → Prop
  | empty : Built empty
  | step {t : Tree} (op : Operation) (h : Built t) (hpermitted : t.Permits op) :
      Built (op.run t)

theorem Built.agrees (h : t.Built) : t.Agrees := by
  induction h with
  | empty => exact Agrees.empty
  | step op _ hpermitted ih => exact (ih.relinked_run hpermitted).agrees ih

/-- A call that fails leaves every node with its kind, its children and its parent, unless it has
been asked to put a node's children into a separator. Then the node and its children are left
without a place: the node has lost its children, and all of them their parents. -/
theorem Built.failed_call_keeps_iff (h : t.Built) (hpermitted : t.Permits op)
    (hfault : op.fault? t = some fault) :
    (op.run t = t ↔ ¬ t.Tears op) ∧
      ∀ id, op = .replaceWithChildren id → t.Tears op →
        fault = .childOfSeparator ∧ t.Torn (op.run t) id := by
  have hagrees := h.agrees
  refine ⟨⟨?_, hagrees.run_eq_of_failed hpermitted hfault⟩, ?_⟩
  · intro hsame htears
    have hsplice := htears
    obtain ⟨id, owner, rfl, -, -, hchildren⟩ := hsplice
    have hemptied := (hagrees.torn htears).2.children_eq id
    rw [hsame, if_pos rfl] at hemptied
    exact hchildren hemptied
  · rintro id rfl htears
    obtain ⟨hfound, htorn⟩ := hagrees.torn htears
    rw [hfound] at hfault
    exact ⟨(Option.some.inj hfault).symm, htorn⟩

/-- The root in a paragraph that has become a separator, which then refuses a text. -/
theorem failed_call_keeps_iff_rootInSeparator :
    let calls : List Operation := [.add .paragraph, .push 1 (.node 0), .setKind 1 .separator]
    let t := calls.foldl Operation.run Tree.empty
    let op : Operation := .push 1 (.text "a")
    t.Built ∧ t.Permits op ∧ op.fault? t = some .childOfSeparator ∧ op.run t = t := by
  intro calls t op
  have h₁ := Built.empty.step (.add .paragraph) trivial
  have h₂ := h₁.step (.push 1 (.node 0))
    ⟨by decide, loose_of_childless (by decide) rfl rfl (by decide)⟩
  have h : t.Built := h₂.step (.setKind 1 .separator) (show 1 < Tree.size _ by decide)
  have hpermitted : t.Permits op := ⟨by decide, trivial⟩
  have hfault : op.fault? t = some .childOfSeparator := by decide
  have htears : ¬ t.Tears (.push 1 (.text "a")) := by
    rintro ⟨_, _, hop, -⟩
    cases hop
  exact ⟨h, hpermitted, hfault, (h.failed_call_keeps_iff hpermitted hfault).1.2 htears⟩

/-- A bold text in a paragraph that has become a separator. The splice fails, and by then the text
has lost its place, and the bold node the text. -/
theorem failed_call_keeps_spliceIntoSeparator :
    let calls : List Operation := [.add .paragraph, .push 0 (.node 1), .add .bold,
      .push 1 (.node 2), .push 2 (.text "a"), .setKind 1 .separator]
    let t := calls.foldl Operation.run Tree.empty
    let op : Operation := .replaceWithChildren 2
    t.Built ∧ t.Permits op ∧ op.fault? t = some .childOfSeparator ∧
      t.children 1 = [.node 2] ∧ t.children 2 = [.text "a"] ∧ t.parent 2 = some 1 ∧
      (op.run t).children 1 = [] ∧ (op.run t).children 2 = [] ∧ (op.run t).parent 2 = none := by
  intro calls t op
  have h₁ := Built.empty.step (.add .paragraph) trivial
  have h₂ := h₁.step (.push 0 (.node 1))
    ⟨by decide, loose_of_childless (by decide) rfl rfl (by decide)⟩
  have h₃ := h₂.step (.add .bold) trivial
  have h₄ := h₃.step (.push 1 (.node 2))
    ⟨by decide, loose_of_childless (by decide) rfl rfl (by decide)⟩
  have h₅ := h₄.step (.push 2 (.text "a")) ⟨by decide, trivial⟩
  have h : t.Built := h₅.step (.setKind 1 .separator) (show 1 < Tree.size _ by decide)
  have hpermitted : t.Permits op := show 2 < t.size by decide
  exact ⟨h, hpermitted, by decide, by decide, by decide, by decide, by decide, by decide,
    by decide⟩

end Tree
end HtmlMarkdown.Document
