import HtmlMarkdown.Proofs.WellFormed

/-!
The calls that change a document tree, and what each of them does to the lists of children and the
back references. All that an edit does to them is that a child gets a place in a list and that
entries of a list lose theirs: `attach` and `detach`.
-/
namespace HtmlMarkdown.Document

open Relation

/-- The tree that an edit leaves, whether it succeeds or fails. -/
def Edit.after {α : Type} (edit : Edit α) (t : Tree) : Tree :=
  match edit t with
  | .ok _ t' => t'
  | .error _ t' => t'

/-- A call that changes a tree. -/
inductive Operation where
  | add (kind : Kind)
  | setKind (id : NodeId) (kind : Kind)
  | push (owner : NodeId) (child : Child)
  | insertChild (owner : NodeId) (position : Nat) (child : Child)
  | setChild (owner : NodeId) (position : Nat) (child : Child)
  | replaceChild (owner : NodeId) (position : Nat) (child : Child)
  | removeChild (owner : NodeId) (position : Nat)
  | clearChildren (owner : NodeId)
  | replaceWithChildren (id : NodeId)

/-- What the call leaves of the tree. -/
def Operation.run (t : Tree) : Operation → Tree
  | .add kind => (t.add kind).2
  | .setKind id kind => t.setKind id kind
  | .push owner child => (Tree.push owner child).after t
  | .insertChild owner position child => (Tree.insertChild owner position child).after t
  | .setChild owner position child => (Tree.setChild owner position child).after t
  | .replaceChild owner position child => (Tree.replaceChild owner position child).after t
  | .removeChild owner position => (Tree.removeChild owner position).after t
  | .clearChildren owner => (Tree.clearChildren owner).after t
  | .replaceWithChildren id => (Tree.replaceWithChildren id).after t

namespace Tree

/-! The two ways in which links change. -/

/-- Gives a child a place in the list of `owner`, between `X` and `Y`. -/
def attach (t : Tree) (owner : NodeId) (X : List Child) (child : Child) (Y : List Child) : Tree :=
  (t.reparent [child] (some owner)).setChildren owner (X ++ child :: Y)

/-- Takes the entries between `X` and `Y` from the list of `owner`. -/
def detach (t : Tree) (owner : NodeId) (X cs Y : List Child) : Tree :=
  (t.setChildren owner (X ++ Y)).reparent cs none

variable {t t' : Tree} {id owner a b : NodeId} {X Y cs : List Child} {child : Child}

theorem lt_size_of_parent_ne_none (h : t.parent id ≠ none) : id < t.size := by
  by_contra hid
  have hs : ¬ id < t.nodes.size := hid
  simp [parent, node, hs] at h

theorem size_attach : (t.attach owner X child Y).size = t.size := by
  rw [attach, size_setChildren, size_reparent]

theorem size_detach : (t.detach owner X cs Y).size = t.size := by
  rw [detach, size_reparent, size_setChildren]

theorem children_setChildren (howner : owner < t.size) :
    (t.setChildren owner cs).children a = if a = owner then cs else t.children a := by
  rw [children_eq, node_setChildren _ _ _ _ howner]
  split <;> rfl

theorem parent_setChildren : (t.setChildren owner cs).parent a = t.parent a := by
  rw [parent_eq, setChildren, node_update]
  split <;> rfl

theorem children_attach (howner : owner < t.size) :
    (t.attach owner X child Y).children a =
      if a = owner then X ++ child :: Y else t.children a := by
  rw [attach, children_setChildren (by rw [size_reparent]; exact howner), children_reparent]

theorem children_detach (howner : owner < t.size) :
    (t.detach owner X cs Y).children a = if a = owner then X ++ Y else t.children a := by
  rw [detach, children_reparent, children_setChildren howner]

theorem parent_attach (hchild : ∀ x, child = .node x → x < t.size) :
    (t.attach owner X child Y).parent a =
      if child = .node a then some owner else t.parent a := by
  rw [attach, parent_setChildren, parent_eq, node_reparent]
  by_cases ha : child = .node a
  · subst ha
    simp [hchild a rfl]
  · simp [ha, Ne.symm ha, parent_eq]

theorem parent_detach :
    (t.detach owner X cs Y).parent a = if .node a ∈ cs then none else t.parent a := by
  rw [detach, parent_eq, node_reparent, size_setChildren]
  by_cases ha : .node a ∈ cs
  · by_cases hlt : a < t.size
    · simp [ha, hlt]
    · have hnone : t.parent a = none := by
        by_contra hsome
        exact hlt (lt_size_of_parent_ne_none hsome)
      simp [ha, hlt, ← parent_eq, parent_setChildren, hnone]
  · simp [ha, ← parent_eq, parent_setChildren]

theorem lists_attach (howner : owner < t.size) (hlist : t.children owner = X ++ Y) :
    (t.attach owner X child Y).Lists a b ↔ t.Lists a b ∨ a = owner ∧ child = .node b := by
  rw [Lists, children_attach howner]
  by_cases ha : a = owner
  · subst ha
    simp only [if_true, Lists, hlist, List.mem_append, List.mem_cons, true_and]
    constructor
    · rintro (hX | hb | hY)
      · exact Or.inl (Or.inl hX)
      · exact Or.inr hb.symm
      · exact Or.inl (Or.inr hY)
    · rintro ((hX | hY) | hb)
      · exact Or.inl hX
      · exact Or.inr (Or.inr hY)
      · exact Or.inr (Or.inl hb.symm)
  · simp [ha, Lists]

theorem sublist_detached : (X ++ Y).Sublist (X ++ cs ++ Y) := by
  rw [List.append_assoc]
  exact (List.Sublist.refl X).append (List.sublist_append_right cs Y)

theorem lists_of_detach (howner : owner < t.size) (hlist : t.children owner = X ++ cs ++ Y)
    (h : (t.detach owner X cs Y).Lists a b) : t.Lists a b := by
  rw [Lists, children_detach howner] at h
  split at h
  next ha =>
    subst ha
    rw [Lists, hlist]
    exact sublist_detached.subset h
  next => exact h

/-! What each edit does, said with these two. -/

/-- An edit that fails is the last one. -/
theorem bind_of_error {α β : Type} {e : Edit α} {f : α → Edit β} {fault : Fault}
    (h : e t = .error fault t') : (e >>= f) t = .error fault t' := by
  change EStateM.bind e f t = .error fault t'
  simp only [EStateM.bind, h]

theorem setChildren_setChildren (t : Tree) (owner : NodeId) (cs cs' : List Child) :
    (t.setChildren owner cs).setChildren owner cs' = t.setChildren owner cs' := by
  simp only [setChildren, update, Tree.mk.injEq]
  apply Array.ext_getElem?
  intro i
  simp only [Array.getElem?_modify]
  split <;> simp [Function.comp_def]

theorem push_eq : push owner child t =
    if t.name owner = .separator then .error .childOfSeparator t
    else .ok () (t.attach owner (t.children owner) child []) := by
  simp only [push, adopting, children_reparent]
  rfl

theorem insertChild_eq (hlist : t.children owner = X ++ Y) :
    insertChild owner X.length child t =
      if t.name owner = .separator then .error .childOfSeparator t
      else .ok () (t.attach owner X child Y) := by
  simp only [insertChild, adopting, children_reparent, hlist, List.length_append,
    Nat.le_add_right, if_true, List.take_left, List.drop_left]
  rfl

theorem replaceChild_eq {old : Child} (hlist : t.children owner = X ++ old :: Y) :
    replaceChild owner X.length child t =
      if t.name owner = .separator then .error .childOfSeparator t
      else .ok old ((t.attach owner X child (old :: Y)).detach owner (X ++ [child]) [old] Y) := by
  have hset : (X ++ old :: Y).set X.length child = X ++ [child] ++ Y := by simp
  simp only [replaceChild, adopting, children_reparent, hlist, List.getElem?_append_right,
    Nat.le_refl, Nat.sub_self, List.getElem?_cons_zero, hset, detach, attach,
    setChildren_setChildren]

theorem childAt_eq (hlist : t.children owner = X ++ child :: Y) :
    childAt owner X.length t = .ok child t := by
  simp only [childAt, hlist, List.getElem?_append_right, Nat.le_refl, Nat.sub_self,
    List.getElem?_cons_zero]

theorem removeChild_eq {old : Child} (hlist : t.children owner = X ++ old :: Y) :
    removeChild owner X.length t = .ok old (t.detach owner X [old] Y) := by
  have herase : (X ++ old :: Y).eraseIdx X.length = X ++ Y := by
    simp [List.eraseIdx_append_of_length_le]
  simp only [removeChild, hlist, List.getElem?_append_right, Nat.le_refl, Nat.sub_self,
    List.getElem?_cons_zero, herase, detach]

theorem clearChildren_eq :
    clearChildren owner t = .ok (t.children owner) (t.detach owner [] (t.children owner) []) :=
  rfl

/-- Takes a node from between `X` and `Y`, and its children from the node. -/
def uproot (t : Tree) (owner : NodeId) (X : List Child) (id : NodeId) (Y : List Child) : Tree :=
  (t.detach id [] (t.children id) []).detach owner X [.node id] Y

theorem size_uproot : (t.uproot owner X id Y).size = t.size := by
  rw [uproot, size_detach, size_detach]

theorem children_detach_all (hid : id < t.size) (hne : owner ≠ id) :
    (t.detach id [] (t.children id) []).children owner = t.children owner := by
  rw [children_detach hid, if_neg hne]

theorem replaceWithChildren_eq_insertChildren (hid : id < t.size) (hne : owner ≠ id)
    (hparent : t.parent id = some owner) (hX : .node id ∉ X)
    (hlist : t.children owner = X ++ .node id :: Y) :
    replaceWithChildren id t =
      insertChildren owner X.length (t.children id) (t.uproot owner X id Y) := by
  have hposition : (t.children owner).idxOf? (.node id) = some X.length := by
    rw [hlist]
    exact idxOf?_append_cons hX
  have hlist' : (t.detach id [] (t.children id) []).children owner = X ++ .node id :: Y :=
    (children_detach_all hid hne).trans hlist
  have hremove : removeChild owner X.length (t.detach id [] (t.children id) []) =
      .ok (.node id) (t.uproot owner X id Y) := removeChild_eq hlist'
  simp only [replaceWithChildren, hparent, hposition]
  rw [bind_of_ok clearChildren_eq, bind_of_ok hremove]

/-- A way that uses the new entry passes the owner before it and the child behind it. -/
theorem way_attach (howner : owner < t.size) (hlist : t.children owner = X ++ Y)
    (h : TransGen (t.attach owner X child Y).Lists a b) :
    TransGen t.Lists a b ∨
      ∃ x, child = .node x ∧ ReflTransGen t.Lists a owner ∧ ReflTransGen t.Lists x b := by
  induction h with
  | single hab =>
    rcases (lists_attach howner hlist).1 hab with hold | ⟨rfl, hchild⟩
    · exact Or.inl (.single hold)
    · exact Or.inr ⟨_, hchild, .refl, .refl⟩
  | tail _ hbc ih =>
    rcases (lists_attach howner hlist).1 hbc with hold | ⟨rfl, hchild⟩
    · rcases ih with hab | ⟨x, hx, hax, hxb⟩
      · exact Or.inl (hab.tail hold)
      · exact Or.inr ⟨x, hx, hax, hxb.tail hold⟩
    · rcases ih with hab | ⟨x, hx, hax, -⟩
      · exact Or.inr ⟨_, hchild, hab.to_reflTransGen, .refl⟩
      · exact Or.inr ⟨_, hchild, hax, .refl⟩

end Tree
end HtmlMarkdown.Document
