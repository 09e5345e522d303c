import HtmlMarkdown.Document.Passes

/-!
Forests: siblings in order, each with all that lies below it, as a finite tree with the numbers
of its nodes. A document tree is a table; what its root spans is a forest, and the theory of the
passes is about forests.
-/
namespace HtmlMarkdown.Document

inductive Forest where
  | nil
  | text (contents : String) (rest : Forest)
  | node (id : NodeId) (kind : Kind) (below rest : Forest)
deriving DecidableEq

namespace Forest

def append : Forest → Forest → Forest
  | nil, G => G
  | text s rest, G => text s (append rest G)
  | node id k below rest, G => node id k below (append rest G)

instance : Append Forest := ⟨append⟩

@[simp] theorem nil_append (G : Forest) : nil ++ G = G := rfl

@[simp] theorem text_append (s : String) (F G : Forest) : text s F ++ G = text s (F ++ G) := rfl

@[simp] theorem node_append (id : NodeId) (k : Kind) (below F G : Forest) :
    node id k below F ++ G = node id k below (F ++ G) := rfl

@[simp] theorem append_nil (F : Forest) : F ++ nil = F := by
  induction F with
  | nil => rfl
  | text s rest ih => rw [text_append, ih]
  | node id k below rest _ ih => rw [node_append, ih]

theorem append_assoc (F G H : Forest) : F ++ G ++ H = F ++ (G ++ H) := by
  induction F with
  | nil => rfl
  | text s rest ih => simp only [text_append, ih]
  | node id k below rest _ ih => simp only [node_append, ih]

theorem append_text_append (F G : Forest) (s : String) :
    F ++ text s nil ++ G = F ++ text s G := by
  rw [append_assoc]
  rfl

theorem append_node_append (F G below : Forest) (id : NodeId) (k : Kind) :
    F ++ node id k below nil ++ G = F ++ node id k below G := by
  rw [append_assoc]
  rfl

/-- The entries of the top level, as a list of children shows them. -/
def children : Forest → List Child
  | nil => []
  | text s rest => .text s :: children rest
  | node id _ _ rest => .node id :: children rest

/-- The kinds of the nodes of the top level. -/
def topKinds : Forest → List Kind
  | nil => []
  | text _ rest => topKinds rest
  | node _ k _ rest => k :: topKinds rest

/-- The numbers of all nodes in preorder. -/
def ids : Forest → List NodeId
  | nil => []
  | text _ rest => ids rest
  | node id _ below rest => id :: (ids below ++ ids rest)

/-- How many entries all lists of the forest have. -/
def entries : Forest → Nat
  | nil => 0
  | text _ rest => entries rest + 1
  | node _ _ below rest => entries below + entries rest + 1

/-- The length of the longest way down. -/
def depth : Forest → Nat
  | nil => 0
  | text _ rest => depth rest
  | node _ _ below rest => max (depth below + 1) (depth rest)

@[simp] theorem children_append (F G : Forest) :
    (F ++ G).children = F.children ++ G.children := by
  induction F with
  | nil => rfl
  | text s rest ih => simp [children, ih]
  | node id k below rest _ ih => simp [children, ih]

@[simp] theorem ids_append (F G : Forest) : (F ++ G).ids = F.ids ++ G.ids := by
  induction F with
  | nil => rfl
  | text s rest ih => simp [ids, ih]
  | node id k below rest _ ih => simp [ids, ih]

@[simp] theorem entries_append (F G : Forest) : (F ++ G).entries = F.entries + G.entries := by
  induction F with
  | nil => simp [entries]
  | text s rest ih =>
    simp only [text_append, entries, ih]
    omega
  | node id k below rest _ ih =>
    simp only [node_append, entries, ih]
    omega

@[simp] theorem depth_append (F G : Forest) : (F ++ G).depth = max F.depth G.depth := by
  induction F with
  | nil => simp [depth]
  | text s rest ih => simp [depth, ih]
  | node id k below rest _ ih => simp [depth, ih, Nat.max_assoc]

theorem depth_le_length_ids (F : Forest) : F.depth ≤ F.ids.length := by
  induction F with
  | nil => simp [depth]
  | text s rest ih => simpa [depth, ids] using ih
  | node id k below rest ihb ihr =>
    simp only [depth, ids, List.length_cons, List.length_append]
    omega

theorem nodup_ids_node {id : NodeId} {k : Kind} {below rest : Forest} :
    (node id k below rest).ids.Nodup ↔ id ∉ below.ids ∧ id ∉ rest.ids ∧ below.ids.Nodup ∧
      rest.ids.Nodup ∧ ∀ x ∈ below.ids, x ∉ rest.ids := by
  simp only [ids, List.nodup_cons, List.mem_append, not_or, List.nodup_append, and_assoc]
  refine and_congr_right fun _ => and_congr_right fun _ => and_congr_right fun _ =>
    and_congr_right fun _ => ?_
  exact ⟨fun h x hx hx' => h x hx x hx' rfl, fun h x hx y hy he => h x hx (he ▸ hy)⟩

theorem mem_ids_of_mem_children {F : Forest} {id : NodeId} (h : .node id ∈ F.children) :
    id ∈ F.ids := by
  induction F with
  | nil => simp [children] at h
  | text s rest ih => exact ih (by simpa [children] using h)
  | node other k below rest _ ih =>
    simp only [children, List.mem_cons, Child.node.injEq] at h
    rcases h with rfl | h
    · simp [ids]
    · simp [ids, ih h]

theorem sublist_children_ids (F : Forest) :
    (F.children.filterMap Child.node?).Sublist F.ids := by
  induction F with
  | nil => exact List.Sublist.refl _
  | text s rest ih => exact ih
  | node id k below rest _ ih =>
    exact (ih.trans (List.sublist_append_right below.ids rest.ids)).cons_cons id

theorem eq_nil_of_children_eq_nil {F : Forest} (h : F.children = []) : F = nil := by
  cases F with
  | nil => rfl
  | text s rest => simp [children] at h
  | node id k below rest => simp [children] at h

/-- `Q` holds of every node's kind together with what lies below it. -/
def Everywhere (Q : Kind → Forest → Prop) : Forest → Prop
  | nil => True
  | text _ rest => Everywhere Q rest
  | node _ k below rest => Q k below ∧ Everywhere Q below ∧ Everywhere Q rest

variable {Q : Kind → Forest → Prop}

@[simp] theorem everywhere_append (F G : Forest) :
    (F ++ G).Everywhere Q ↔ F.Everywhere Q ∧ G.Everywhere Q := by
  induction F with
  | nil => simp [Everywhere]
  | text s rest ih => simpa [Everywhere] using ih
  | node id k below rest _ ih => simp [Everywhere, ih, and_assoc]

theorem Everywhere.mono {R : Kind → Forest → Prop} (hQR : ∀ k F, Q k F → R k F) {F : Forest}
    (h : F.Everywhere Q) : F.Everywhere R := by
  induction F with
  | nil => trivial
  | text s rest ih => exact ih h
  | node id k below rest ihb ihr => exact ⟨hQR k below h.1, ihb h.2.1, ihr h.2.2⟩

theorem Everywhere.and {R : Kind → Forest → Prop} {F : Forest} (hQ : F.Everywhere Q)
    (hR : F.Everywhere R) : F.Everywhere fun k below => Q k below ∧ R k below := by
  induction F with
  | nil => trivial
  | text s rest ih => exact ih hQ hR
  | node id k below rest ihb ihr =>
    exact ⟨⟨hQ.1, hR.1⟩, ihb hQ.2.1 hR.2.1, ihr hQ.2.2 hR.2.2⟩

theorem everywhere_of_forall (h : ∀ k F, Q k F) (F : Forest) : F.Everywhere Q := by
  induction F with
  | nil => trivial
  | text s rest ih => exact ih
  | node id k below rest ihb ihr => exact ⟨h k below, ihb, ihr⟩

/-- Separators have nothing below them. -/
def SeparatorsChildless : Forest → Prop := Everywhere fun k below => k = .separator → below = nil

end Forest
end HtmlMarkdown.Document
