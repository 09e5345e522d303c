import HtmlMarkdown.Document.Passes
import Mathlib.Data.List.Basic

/-!
What each edit of a document tree does to each node. The main statement is about giving a node's
place to its children: the list of its parent, the node itself and its children's back references
change, and nothing else does.
-/
namespace HtmlMarkdown.Document.Tree

/-- An edit that succeeds hands its outcome to the next. -/
theorem bind_of_ok {α β : Type} {e : Edit α} {f : α → Edit β} {t t₁ : Tree} {a : α}
    (h : e t = .ok a t₁) : (e >>= f) t = f a t₁ := by
  change EStateM.bind e f t = f a t₁
  simp only [EStateM.bind, h]

theorem get_bind {β : Type} (f : Tree → Edit β) (t : Tree) : (get >>= f) t = f t t := rfl

theorem forM_cons_of_ok {α : Type} {f : α → Edit Unit} {x : α} {xs : List α} {t t₁ : Tree}
    (h : f x t = .ok () t₁) : (x :: xs).forM f t = xs.forM f t₁ := by
  change (f x >>= fun _ => xs.forM f) t = xs.forM f t₁
  rw [bind_of_ok h]

theorem children_eq (t : Tree) (id : NodeId) : t.children id = (t.node id).children := rfl

theorem kind_eq (t : Tree) (id : NodeId) : t.kind id = (t.node id).kind := rfl

theorem parent_eq (t : Tree) (id : NodeId) : t.parent id = (t.node id).parent := rfl

theorem name_eq (t : Tree) (id : NodeId) : t.name id = (t.node id).kind.name := rfl

theorem node_of_not_lt {t : Tree} {id : NodeId} (h : ¬ id < t.size) :
    t.node id = { kind := .document } := by
  have hs : ¬ id < t.nodes.size := h
  simp [node, hs]

theorem node_setChildren (t : Tree) (id x : NodeId) (cs : List Child) (hid : id < t.size) :
    (t.setChildren id cs).node x =
      if x = id then { t.node x with children := cs } else t.node x := by
  unfold setChildren
  rw [node_update]
  by_cases h : x = id
  · subst h
    simp [hid]
  · simp [h, Ne.symm h]

theorem node_setKind (t : Tree) (id x : NodeId) (k : Kind) (hid : id < t.size) :
    (t.setKind id k).node x = if x = id then { t.node x with kind := k } else t.node x := by
  unfold setKind
  rw [node_update]
  by_cases h : x = id
  · subst h
    simp [hid]
  · simp [h, Ne.symm h]

theorem size_setKind (t : Tree) (id : NodeId) (k : Kind) : (t.setKind id k).size = t.size :=
  size_update t id _

theorem node_reparent (t : Tree) (cs : List Child) (above : Option NodeId) (x : NodeId) :
    (t.reparent cs above).node x =
      if .node x ∈ cs ∧ x < t.size then { t.node x with parent := above } else t.node x := by
  induction cs generalizing t with
  | nil => simp [reparent]
  | cons c rest ih =>
    rw [reparent_cons, ih, size_reparent]
    cases c with
    | text s => simp [reparent]
    | node id =>
      have hone : (t.reparent [.node id] above).node x =
          if id = x ∧ x < t.size then { t.node x with parent := above } else t.node x :=
        node_update t id x _
      rw [hone]
      by_cases hx : x < t.size
      · by_cases hid : id = x
        · subst hid
          simp [hx]
        · simp [hx, hid, Ne.symm hid]
      · simp [hx]

theorem node_reparent_of_notMem (t : Tree) (cs : List Child) (above : Option NodeId) (x : NodeId)
    (hx : .node x ∉ cs) : (t.reparent cs above).node x = t.node x := by
  rw [node_reparent]
  simp [hx]

/-- Putting children into a list that is split at their place. -/
theorem insertChildren_eq (owner : NodeId) (cs : List Child) (hcs : .node owner ∉ cs) :
    ∀ (t : Tree) (X Y : List Child), owner < t.size → t.children owner = X ++ Y →
      t.name owner ≠ .separator →
      ∃ t', insertChildren owner X.length cs t = .ok () t' ∧ t'.size = t.size ∧
        t'.node owner = { t.node owner with children := X ++ cs ++ Y } ∧
        ∀ x, x ≠ owner → t'.node x = (t.reparent cs (some owner)).node x := by
  induction cs with
  | nil =>
    intro t X Y _ hlist _
    refine ⟨t, rfl, rfl, ?_, fun x _ => rfl⟩
    rw [List.append_nil, ← hlist]
    rfl
  | cons c rest ih =>
    intro t X Y howner hlist hname
    have hc : .node owner ∉ [c] := fun h => hcs (by simp_all)
    have hrest : .node owner ∉ rest := fun h => hcs (List.mem_cons_of_mem c h)
    let t₁ := (t.reparent [c] (some owner)).setChildren owner (X ++ c :: Y)
    have hsize : t₁.size = t.size := by rw [size_setChildren, size_reparent]
    have hnode : ∀ x, t₁.node x = if x = owner then { t.node x with children := X ++ c :: Y }
        else (t.reparent [c] (some owner)).node x := by
      intro x
      rw [node_setChildren _ _ _ _ (by rw [size_reparent]; exact howner)]
      by_cases hx : x = owner
      · subst hx
        simp [node_reparent_of_notMem t _ _ _ hc]
      · simp [hx]
    have hstep : insertChild owner X.length c t = .ok () t₁ := by
      simp only [insertChild, adopting, hname, if_false, children_reparent, hlist,
        List.length_append, Nat.le_add_right, if_true, List.take_left, List.drop_left]
      rfl
    have hlist₁ : t₁.children owner = (X ++ [c]) ++ Y := by
      rw [children_eq, hnode]
      simp
    have hname₁ : t₁.name owner ≠ .separator := by
      rw [name_eq, hnode]
      simpa [name_eq] using hname
    obtain ⟨t', hrun, hsize', howner', hother⟩ :=
      ih hrest t₁ (X ++ [c]) Y (by rw [hsize]; exact howner) hlist₁ hname₁
    refine ⟨t', ?_, hsize'.trans hsize, ?_, ?_⟩
    · rw [insertChildren, bind_of_ok hstep]
      rw [List.length_append] at hrun
      exact hrun
    · rw [howner', hnode]
      simp
    · intro x hx
      rw [hother x hx, reparent_cons, node_reparent, node_reparent, hnode, size_reparent, hsize]
      simp [hx]

/-- A child is found behind entries that differ from it. -/
theorem idxOf?_append_cons {X Y : List Child} {c : Child} (hX : c ∉ X) :
    (X ++ c :: Y).idxOf? c = some X.length := by
  induction X with
  | nil => simp [List.idxOf?_cons]
  | cons first X ih =>
    have hfirst : first ≠ c := fun h => hX (by simp [h])
    have hrest : c ∉ X := fun h => hX (List.mem_cons_of_mem first h)
    simp [List.idxOf?_cons, ih hrest, hfirst]

/-- A node gives its place to its children: its parent lists them instead of it, they have that
parent, and the node is left detached and empty. -/
theorem replaceWithChildren_eq {t : Tree} {id owner : NodeId} {X Y : List Child}
    (hid : id < t.size) (hparent : t.parent id = some owner)
    (hlist : t.children owner = X ++ .node id :: Y) (hX : .node id ∉ X) (hne : owner ≠ id)
    (hself : .node id ∉ t.children id) (hcycle : .node owner ∉ t.children id)
    (hname : t.name owner ≠ .separator) :
    ∃ t', replaceWithChildren id t = .ok () t' ∧ t'.size = t.size ∧
      t'.node owner = { t.node owner with children := X ++ t.children id ++ Y } ∧
      t'.node id = { t.node id with children := [], parent := none } ∧
      ∀ x, x ≠ owner → x ≠ id →
        t'.node x = (t.reparent (t.children id) (some owner)).node x := by
  have howner : owner < t.size := lt_size_of_children_ne_nil (by rw [hlist]; simp)
  let t₁ := (t.setChildren id []).reparent (t.children id) none
  have hsize₁ : t₁.size = t.size := by rw [size_reparent, size_setChildren]
  have hnode₁ : ∀ x, .node x ∉ t.children id →
      t₁.node x = if x = id then { t.node x with children := [] } else t.node x := by
    intro x hx
    rw [node_reparent_of_notMem _ _ _ _ hx, node_setChildren _ _ _ _ hid]
  have hlist₁ : t₁.children owner = X ++ .node id :: Y := by
    rw [children_eq, hnode₁ owner hcycle]
    simp [hne, ← children_eq, hlist]
  let t₂ := (t₁.setChildren owner (X ++ Y)).reparent [.node id] none
  have hremove : removeChild owner X.length t₁ = .ok (.node id) t₂ := by
    simp [removeChild, hlist₁, t₂, List.eraseIdx_append_of_length_le]
  have hsize₂ : t₂.size = t.size := by rw [size_reparent, size_setChildren, hsize₁]
  have hnode₂ : ∀ x, t₂.node x =
      if x = id then { t₁.node x with parent := none }
      else if x = owner then { t₁.node x with children := X ++ Y } else t₁.node x := by
    intro x
    rw [node_reparent, node_setChildren _ _ _ _ (by rw [hsize₁]; exact howner), size_setChildren,
      hsize₁]
    by_cases hx : x = id
    · subst hx
      simp [hid, Ne.symm hne]
    · simp [hx]
  have hown₂ : t₂.node owner = { t.node owner with children := X ++ Y } := by
    rw [hnode₂, hnode₁ owner hcycle]
    simp [hne]
  obtain ⟨t', hrun, hsize', howner', hother⟩ :=
    insertChildren_eq owner (t.children id) hcycle t₂ X Y (by rw [hsize₂]; exact howner)
      (by rw [children_eq, hown₂]) (by rw [name_eq, hown₂]; exact hname)
  refine ⟨t', ?_, hsize'.trans hsize₂, ?_, ?_, ?_⟩
  · have hposition : (t.children owner).idxOf? (.node id) = some X.length := by
      rw [hlist]
      exact idxOf?_append_cons hX
    have hclear : clearChildren id t = .ok (t.children id) t₁ := rfl
    simp only [replaceWithChildren, hparent, hposition]
    rw [bind_of_ok hclear, bind_of_ok hremove]
    exact hrun
  · rw [howner', hown₂]
  · rw [hother id (Ne.symm hne), node_reparent_of_notMem _ _ _ _ hself, hnode₂, hnode₁ id hself]
    simp
  · intro x hx hxid
    have hx₂ : t₂.node x = (t.reparent (t.children id) none).node x := by
      rw [hnode₂, node_reparent, node_reparent, node_setChildren _ _ _ _ hid, size_setChildren]
      simp [hx, hxid]
    rw [hother x hx, node_reparent, hx₂, hsize₂, node_reparent, node_reparent]
    split <;> rfl

end HtmlMarkdown.Document.Tree
