import HtmlMarkdown.Proofs.Edits
import HtmlMarkdown.Proofs.Forest
import Mathlib.Data.List.Nodup

/-!
When a table of nodes holds a forest: every node of the forest stands in the table with its kind,
with its children as the list of entries below it, and with the right back reference. What an edit
leaves alone is then still held.
-/
namespace HtmlMarkdown.Document
namespace Tree

/-- The nodes of the forest are in the table. Those of its top level have the parent `above`. -/
def Holds (t : Tree) (above : Option NodeId) : Forest → Prop
  | .nil => True
  | .text _ rest => t.Holds above rest
  | .node id k below rest =>
    (id < t.size ∧ t.node id = ⟨k, below.children, above⟩) ∧
      t.Holds (some id) below ∧ t.Holds above rest

instance decidableHolds (t : Tree) :
    (above : Option NodeId) → (F : Forest) → Decidable (t.Holds above F)
  | _, .nil => isTrue trivial
  | above, .text _ rest => decidableHolds t above rest
  | above, .node id k below rest =>
    have := decidableHolds t (some id) below
    have := decidableHolds t above rest
    inferInstanceAs (Decidable ((id < t.size ∧ t.node id = ⟨k, below.children, above⟩) ∧
      t.Holds (some id) below ∧ t.Holds above rest))

variable {t t' : Tree} {above : Option NodeId} {F F' G G' : Forest}

@[simp] theorem holds_append : t.Holds above (F ++ G) ↔ t.Holds above F ∧ t.Holds above G := by
  induction F with
  | nil => simp [Holds]
  | text s rest ih => simpa [Holds] using ih
  | node id k below rest _ ih => simp [Holds, ih, and_assoc]

theorem Holds.lt_size (h : t.Holds above F) : ∀ x ∈ F.ids, x < t.size := by
  induction F generalizing above with
  | nil => simp [Forest.ids]
  | text s rest ih => exact ih h
  | node id k below rest ihb ihr =>
    intro x hx
    simp only [Forest.ids, List.mem_cons, List.mem_append] at hx
    rcases hx with rfl | hx | hx
    · exact h.1.1
    · exact ihb h.2.1 x hx
    · exact ihr h.2.2 x hx

/-- A forest stays held where none of its nodes changes. -/
theorem Holds.of_node_eq (h : t.Holds above F) (hsize : t.size ≤ t'.size)
    (hnode : ∀ x ∈ F.ids, t'.node x = t.node x) : t'.Holds above F := by
  induction F generalizing above with
  | nil => trivial
  | text s rest ih => exact ih h hnode
  | node id k below rest ihb ihr =>
    simp only [Forest.ids, List.mem_cons, List.mem_append] at hnode
    refine ⟨⟨Nat.lt_of_lt_of_le h.1.1 hsize, ?_⟩, ?_, ?_⟩
    · rw [hnode id (Or.inl rfl), h.1.2]
    · exact ihb h.2.1 fun x hx => hnode x (Or.inr (Or.inl hx))
    · exact ihr h.2.2 fun x hx => hnode x (Or.inr (Or.inr hx))

theorem Holds.reparent_of_iff (h : t.Holds above F) (hnd : F.ids.Nodup) (cs : List Child)
    (above' : Option NodeId) (hcs : ∀ x ∈ F.ids, .node x ∈ cs ↔ .node x ∈ F.children) :
    (t.reparent cs above').Holds above' F := by
  induction F generalizing above with
  | nil => trivial
  | text s rest ih =>
    exact ih h hnd fun x hx => by simpa [Forest.children] using hcs x hx
  | node id k below rest _ ihr =>
    obtain ⟨hidb, hidr, -, hndr, hdisj⟩ := Forest.nodup_ids_node.1 hnd
    have hid : .node id ∈ cs := (hcs id (by simp [Forest.ids])).2 (by simp [Forest.children])
    refine ⟨⟨by rw [size_reparent]; exact h.1.1, ?_⟩, ?_, ihr h.2.2 hndr ?_⟩
    · rw [node_reparent, if_pos ⟨hid, h.1.1⟩, h.1.2]
    · refine h.2.1.of_node_eq (Nat.le_of_eq (size_reparent ..).symm) fun x hx => ?_
      apply node_reparent_of_notMem
      rw [hcs x (by simp [Forest.ids, hx])]
      simp only [Forest.children, List.mem_cons, Child.node.injEq, not_or]
      exact ⟨fun he => hidb (he ▸ hx),
        fun hmem => hdisj x hx (Forest.mem_ids_of_mem_children hmem)⟩
    · intro x hx
      rw [hcs x (by simp [Forest.ids, hx])]
      simp only [Forest.children, List.mem_cons, Child.node.injEq, or_iff_right_iff_imp]
      intro he
      exact absurd (he ▸ hx) hidr

/-- Giving the top level of a forest another parent. -/
theorem Holds.reparent (h : t.Holds above F) (hnd : F.ids.Nodup) (above' : Option NodeId) :
    (t.reparent F.children above').Holds above' F :=
  h.reparent_of_iff hnd F.children above' fun _ _ => Iff.rfl

/-- What has become of a forest in a later table: the nodes now in it are distinct, each was in
it before or is new, and outside it nothing has changed. -/
structure Becomes (t : Tree) (F : Forest) (t' : Tree) (F' : Forest) : Prop where
  size_le : t.size ≤ t'.size
  nodup : F'.ids.Nodup
  mem_or_new : ∀ x ∈ F'.ids, x ∈ F.ids ∨ t.size ≤ x
  frame : ∀ x, x < t.size → x ∉ F.ids → t'.node x = t.node x

namespace Becomes

theorem refl (t : Tree) (hnd : F.ids.Nodup) : Becomes t F t F :=
  ⟨Nat.le_refl _, hnd, fun _ hx => Or.inl hx, fun _ _ _ => rfl⟩

/-- Nodes of the table that are not in the forest do not get into it. -/
theorem notMem (h : Becomes t F t' F') {x : NodeId} (hx : x < t.size) (hxF : x ∉ F.ids) :
    x ∉ F'.ids := by
  intro hmem
  rcases h.mem_or_new x hmem with hmem | hnew
  · exact hxF hmem
  · exact Nat.not_lt.2 hnew hx

theorem trans {t₁ : Tree} {F₁ : Forest} (h : Becomes t F t₁ F₁) (h' : Becomes t₁ F₁ t' F') :
    Becomes t F t' F' := by
  refine ⟨Nat.le_trans h.size_le h'.size_le, h'.nodup, ?_, ?_⟩
  · intro x hx
    rcases h'.mem_or_new x hx with hx | hx
    · exact h.mem_or_new x hx
    · exact Or.inr (Nat.le_trans h.size_le hx)
  · intro x hx hxF
    rw [h'.frame x (Nat.lt_of_lt_of_le hx h.size_le) (h.notMem hx hxF), h.frame x hx hxF]

/-- A forest next to the one that has changed is still held. -/
theorem holds (h : Becomes t F t' F') (hG : t.Holds above G) (hdisj : ∀ x ∈ G.ids, x ∉ F.ids) :
    t'.Holds above G :=
  hG.of_node_eq h.size_le fun x hx => h.frame x (hG.lt_size x hx) (hdisj x hx)

/-- The same change, seen as a change of a forest around. -/
theorem within {X Y : List NodeId} (h : Becomes t F t' F') (hG : G.ids = X ++ F.ids ++ Y)
    (hG' : G'.ids = X ++ F'.ids ++ Y) (hnd : G.ids.Nodup) (hlt : ∀ x ∈ G.ids, x < t.size) :
    Becomes t G t' G' := by
  rw [hG] at hnd hlt
  simp only [List.nodup_append, List.mem_append] at hnd hlt
  obtain ⟨⟨hndX, -, hXF⟩, hndY, hXFY⟩ := hnd
  refine ⟨h.size_le, ?_, ?_, ?_⟩
  · have hX : ∀ x ∈ X, x ∉ F'.ids := fun x hx =>
      h.notMem (hlt x (Or.inl (Or.inl hx))) fun hmem => hXF x hx x hmem rfl
    have hY : ∀ x ∈ Y, x ∉ F'.ids := fun x hx =>
      h.notMem (hlt x (Or.inr hx)) fun hmem => hXFY x (Or.inr hmem) x hx rfl
    rw [hG']
    simp only [List.nodup_append, List.mem_append]
    refine ⟨⟨hndX, h.nodup, fun a ha b hb he => hX a ha (he ▸ hb)⟩, hndY, ?_⟩
    rintro a (ha | ha) b hb he
    · exact hXFY a (Or.inl ha) b hb he
    · exact hY b hb (he ▸ ha)
  · intro x hx
    rw [hG'] at hx
    rw [hG]
    simp only [List.mem_append] at hx ⊢
    rcases hx with (hx | hx) | hx
    · exact Or.inl (Or.inl (Or.inl hx))
    · exact (h.mem_or_new x hx).imp_left fun hx => Or.inl (Or.inr hx)
    · exact Or.inl (Or.inr hx)
  · intro x hx hxG
    rw [hG] at hxG
    simp only [List.mem_append, not_or] at hxG
    exact h.frame x hx hxG.1.2

/-- What lies below a node changes, but for the entries of the node's own list. -/
theorem inside {id : NodeId} {k : Kind} {below below' : Forest}
    (h : t.Holds above (.node id k below .nil)) (hnd : (Forest.node id k below .nil).ids.Nodup)
    (hbelow : t'.Holds (some id) below') (hb : Becomes t below t' below')
    (hchildren : below'.children = below.children) :
    t'.Holds above (.node id k below' .nil) ∧
      Becomes t (.node id k below .nil) t' (.node id k below' .nil) := by
  have hid : id ∉ below.ids := (Forest.nodup_ids_node.1 hnd).1
  refine ⟨⟨⟨Nat.lt_of_lt_of_le h.1.1 hb.size_le, ?_⟩, hbelow, trivial⟩, ?_⟩
  · rw [hb.frame id h.1.1 hid, h.1.2, hchildren]
  · exact hb.within (X := [id]) (Y := []) (by simp [Forest.ids]) (by simp [Forest.ids]) hnd
      h.lt_size

/-- A node changes by itself, and then what stands behind it. -/
theorem siblings {t₁ : Tree} {id : NodeId} {k : Kind} {below below' rest rest' : Forest}
    (h : t.Holds above (.node id k below rest)) (hnd : (Forest.node id k below rest).ids.Nodup)
    (hhead : t₁.Holds above (.node id k below' .nil))
    (hfirst : Becomes t (.node id k below .nil) t₁ (.node id k below' .nil))
    (htail : t'.Holds above rest') (hsecond : Becomes t₁ rest t' rest') :
    t'.Holds above (.node id k below' rest') ∧
      Becomes t (.node id k below rest) t' (.node id k below' rest') := by
  obtain ⟨-, hidr, -, -, hdisj⟩ := Forest.nodup_ids_node.1 hnd
  have hapart : ∀ x ∈ (Forest.node id k below' .nil).ids, x ∉ rest.ids := by
    intro x hx hmem
    refine hfirst.notMem (h.2.2.lt_size x hmem) ?_ hx
    simp only [Forest.ids, List.append_nil, List.mem_cons, not_or]
    exact ⟨fun he => hidr (he ▸ hmem), fun hb => hdisj x hb hmem⟩
  have hkept := hsecond.holds hhead hapart
  have hwhole : Becomes t (.node id k below rest) t₁ (.node id k below' rest) :=
    hfirst.within (X := []) (Y := rest.ids) (by simp [Forest.ids]) (by simp [Forest.ids]) hnd
      h.lt_size
  have hlt : ∀ x ∈ (Forest.node id k below' rest).ids, x < t₁.size := by
    intro x hx
    simp only [Forest.ids, List.mem_cons, List.mem_append] at hx
    rcases hx with rfl | hx | hx
    · exact hhead.1.1
    · exact hhead.2.1.lt_size x hx
    · exact Nat.lt_of_lt_of_le (h.2.2.lt_size x hx) hfirst.size_le
  refine ⟨⟨hkept.1, hkept.2.1, htail⟩, hwhole.trans ?_⟩
  exact hsecond.within (X := id :: below'.ids) (Y := []) (by simp [Forest.ids])
    (by simp [Forest.ids]) hwhole.nodup hlt

end Becomes
end Tree
end HtmlMarkdown.Document
