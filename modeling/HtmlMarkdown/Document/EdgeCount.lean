import HtmlMarkdown.Document.Tree

/-!
The number of entries in all lists of children. Giving a node's place to its children takes away
one entry, the node's own: this bounds every pass that dissolves nodes.
-/
namespace HtmlMarkdown.Document

/-- The sum of the weights of the members of a list. -/
def total {α : Type} (weight : α → Nat) : List α → Nat
  | [] => 0
  | x :: xs => weight x + total weight xs

theorem total_modify {α : Type} (weight : α → Nat) (f : α → α) (xs : List α) (i : Nat)
    (hi : i < xs.length) :
    total weight (xs.modify i f) + weight xs[i] = total weight xs + weight (f xs[i]) := by
  induction xs generalizing i with
  | nil => simp at hi
  | cons x xs ih =>
    cases i with
    | zero =>
      simp only [List.modify_zero_cons, total, List.getElem_cons_zero]
      omega
    | succ i =>
      simp only [List.length_cons, Nat.add_lt_add_iff_right] at hi
      have := ih i hi
      simp only [List.modify_succ_cons, total, List.getElem_cons_succ]
      omega

namespace Tree

def edgeCount (t : Tree) : Nat := total (fun n => n.children.length) t.nodes.toList

theorem edgeCount_update (t : Tree) (id : NodeId) (f : Node → Node) (hid : id < t.size) :
    (t.update id f).edgeCount + (t.children id).length =
      t.edgeCount + (f (t.node id)).children.length := by
  have hi : id < t.nodes.toList.length := by simpa [size] using hid
  have hnode : t.node id = t.nodes.toList[id] := by
    have hs : id < t.nodes.size := hid
    simp [node, hs]
  have := total_modify (fun n : Node => n.children.length) f t.nodes.toList id hi
  simp only [edgeCount, update, Array.toList_modify, children, hnode]
  exact this

theorem update_of_size_le (t : Tree) (id : NodeId) (f : Node → Node) (hid : t.size ≤ id) :
    t.update id f = t := by
  have : t.nodes.modify id f = t.nodes := by
    apply Array.ext_getElem?
    intro j
    rw [Array.getElem?_modify]
    split
    · rename_i h
      subst h
      have : ¬ id < t.nodes.size := Nat.not_lt.mpr hid
      simp [this]
    · rfl
  simp [update, this]

theorem edgeCount_update_of_children (t : Tree) (id : NodeId) (f : Node → Node)
    (hf : ∀ n, (f n).children = n.children) : (t.update id f).edgeCount = t.edgeCount := by
  by_cases hid : id < t.size
  · have := edgeCount_update t id f hid
    rw [hf] at this
    simp only [children] at this
    omega
  · rw [update_of_size_le t id f (Nat.not_lt.mp hid)]

theorem children_update (t : Tree) (id other : NodeId) (f : Node → Node)
    (hf : ∀ n, (f n).children = n.children) :
    (t.update id f).children other = t.children other := by
  simp only [children, node_update]
  split
  · exact hf _
  · rfl

theorem edgeCount_setKind (t : Tree) (id : NodeId) (kind : Kind) :
    (t.setKind id kind).edgeCount = t.edgeCount :=
  edgeCount_update_of_children t id _ fun _ => rfl

theorem edgeCount_setChildren (t : Tree) (id : NodeId) (children : List Child)
    (hid : id < t.size) :
    (t.setChildren id children).edgeCount + (t.children id).length =
      t.edgeCount + children.length :=
  edgeCount_update t id _ hid

theorem reparent_cons (t : Tree) (child : Child) (rest : List Child) (above : Option NodeId) :
    t.reparent (child :: rest) above = (t.reparent [child] above).reparent rest above := rfl

theorem edgeCount_reparent (t : Tree) (children : List Child) (above : Option NodeId) :
    (t.reparent children above).edgeCount = t.edgeCount := by
  induction children generalizing t with
  | nil => rfl
  | cons child rest ih =>
    rw [reparent_cons, ih]
    cases child with
    | text => rfl
    | node id => exact edgeCount_update_of_children t id _ fun _ => rfl

theorem children_reparent (t : Tree) (children : List Child) (above : Option NodeId)
    (id : NodeId) : (t.reparent children above).children id = t.children id := by
  induction children generalizing t with
  | nil => rfl
  | cons child rest ih =>
    rw [reparent_cons, ih]
    cases child with
    | text => rfl
    | node below => exact children_update t below id _ fun _ => rfl

theorem size_setChildren (t : Tree) (id : NodeId) (children : List Child) :
    (t.setChildren id children).size = t.size := size_update t id _

theorem size_reparent (t : Tree) (children : List Child) (above : Option NodeId) :
    (t.reparent children above).size = t.size := by
  induction children generalizing t with
  | nil => rfl
  | cons child rest ih =>
    rw [reparent_cons, ih]
    cases child with
    | text => rfl
    | node id => exact size_update t id _

theorem lt_size_of_children_ne_nil {t : Tree} {id : NodeId} (h : t.children id ≠ []) :
    id < t.size := by
  by_cases hid : id < t.size
  · exact hid
  · have hs : ¬ id < t.nodes.size := hid
    simp [children, node, hs] at h

theorem lt_size_of_parent {t : Tree} {id above : NodeId} (h : t.parent id = some above) :
    id < t.size := by
  by_cases hid : id < t.size
  · exact hid
  · have hs : ¬ id < t.nodes.size := hid
    simp [parent, node, hs] at h

theorem insertChild_ok {t t' : Tree} {owner : NodeId} {position : Nat} {child : Child}
    (ho : owner < t.size) (h : insertChild owner position child t = .ok () t') :
    t'.edgeCount = t.edgeCount + 1 ∧ t'.size = t.size := by
  simp only [insertChild, adopting] at h
  split at h
  · simp at h
  · split at h
    · rename_i hp
      simp only [EStateM.Result.ok.injEq, true_and] at h
      subst h
      constructor
      · have hc := children_reparent t [child] (some owner) owner
        have hs : owner < (t.reparent [child] (some owner)).size := by
          rw [size_reparent]; exact ho
        have hlen : ((List.take position (t.children owner)) ++
            child :: List.drop position (t.children owner)).length =
            (t.children owner).length + 1 := by
          simp only [List.length_append, List.length_take, List.length_cons, List.length_drop]
          rw [hc] at hp
          omega
        have he := edgeCount_setChildren (t.reparent [child] (some owner)) owner
          (List.take position (t.children owner) ++ child :: List.drop position (t.children owner))
          hs
        rw [hlen, hc, edgeCount_reparent] at he
        rw [hc]
        omega
      · rw [size_setChildren, size_reparent]
    · simp at h

theorem insertChildren_ok {t t' : Tree} {owner : NodeId} {position : Nat} {cs : List Child}
    (ho : owner < t.size) (h : insertChildren owner position cs t = .ok () t') :
    t'.edgeCount = t.edgeCount + cs.length ∧ t'.size = t.size := by
  induction cs generalizing t position with
  | nil =>
    simp only [insertChildren, pure, EStateM.pure, EStateM.Result.ok.injEq, true_and] at h
    subst h
    simp
  | cons child rest ih =>
    simp only [insertChildren, bind, EStateM.bind] at h
    split at h
    · rename_i u t₁ h₁
      have step := insertChild_ok ho h₁
      have ho₁ : owner < t₁.size := by rw [step.2]; exact ho
      have more := ih ho₁ h
      simp only [List.length_cons]
      omega
    · simp at h

/-- A node that has given its place to its children is no longer in a list, and the entries of
its children have moved. -/
theorem edgeCount_replaceWithChildren {t t' : Tree} {id : NodeId}
    (h : replaceWithChildren id t = .ok () t') : t'.edgeCount + 1 = t.edgeCount := by
  simp only [replaceWithChildren] at h
  split at h
  · simp at h
  · rename_i owner hparent
    split at h
    · simp at h
    · rename_i position hposition
      simp only [bind, EStateM.bind, clearChildren] at h
      have hid := lt_size_of_parent hparent
      have hclear := edgeCount_setChildren t id [] hid
      split at h
      · rename_i old t₁ hremove
        simp only [removeChild] at hremove
        split at hremove
        · simp at hremove
        · rename_i found hfound
          simp only [EStateM.Result.ok.injEq] at hremove
          obtain ⟨rfl, rfl⟩ := hremove
          have hne : ((t.setChildren id []).reparent (t.children id) none).children owner ≠ [] := by
            intro hnil
            rw [hnil] at hfound
            simp at hfound
          have howner := lt_size_of_children_ne_nil hne
          have hlt := (List.getElem?_eq_some_iff.1 hfound).1
          have herase := edgeCount_setChildren _ owner
            ((((t.setChildren id []).reparent (t.children id) none).children owner).eraseIdx
              position) howner
          rw [List.length_eraseIdx_of_lt hlt, edgeCount_reparent] at herase
          have hinsert := (insertChildren_ok
            (by rw [size_reparent, size_setChildren]; exact howner) h).1
          rw [edgeCount_reparent] at hinsert
          simp only [List.length_nil] at hclear
          omega
      · simp at h

end Tree
end HtmlMarkdown.Document
