import HtmlMarkdown.Proofs.Walk
import Mathlib.Data.Fintype.EquivFin
import Mathlib.Order.WellFounded

/-!
Well-formed document trees, said of the table alone: what can be reached from the root is in
exactly one list of children, has the back reference that belongs there, and is not below itself.
The main statement is that these are exactly the tables that span a forest.
-/
namespace HtmlMarkdown.Document.Tree

open Relation

/-- A node lists another among its children. -/
def Lists (t : Tree) (owner id : NodeId) : Prop := .node id ∈ t.children owner

/-- A node is the root or can be reached from it. -/
def Attached (t : Tree) (id : NodeId) : Prop := ReflTransGen t.Lists root id

structure WellFormed (t : Tree) : Prop where
  root_kind : t.kind root = .document
  root_in_use : root < t.size
  in_use : ∀ {owner id}, t.Attached owner → t.Lists owner id → id < t.size
  /-- With this, no two lists have a node in common. -/
  parent_eq : ∀ {owner id}, t.Attached owner → t.Lists owner id → t.parent id = some owner
  once : ∀ {owner}, t.Attached owner → ((t.children owner).filterMap Child.node?).Nodup
  acyclic : ∀ {id}, t.Attached id → ¬ TransGen t.Lists id id
  separator_childless : ∀ {id}, t.Attached id → t.name id = .separator → t.children id = []

variable {t : Tree} {above : Option NodeId} {F : Forest} {owner id x y : NodeId}

/-! From a forest to its nodes. -/

/-- What lies below a node of a held forest, with all that holds of the whole forest. -/
theorem Holds.exists_branch (h : t.Holds above F) (hx : x ∈ F.ids) :
    ∃ above' k D, t.Holds above' (.node x k D .nil) ∧
      (Forest.node x k D .nil).ids.Sublist F.ids ∧
      ∀ Q, F.Everywhere Q → (Forest.node x k D .nil).Everywhere Q := by
  induction F generalizing above with
  | nil => simp [Forest.ids] at hx
  | text s rest ih => exact ih h hx
  | node id k below rest ihb ihr =>
    simp only [Forest.ids, List.mem_cons, List.mem_append] at hx
    rcases hx with rfl | hx | hx
    · refine ⟨above, k, below, ⟨h.1, h.2.1, trivial⟩, ?_, fun Q hQ => ⟨hQ.1, hQ.2.1, trivial⟩⟩
      simp [Forest.ids]
    · obtain ⟨above', k', D, hD, hsub, hQ⟩ := ihb h.2.1 hx
      exact ⟨above', k', D, hD,
        (hsub.trans (List.sublist_append_left below.ids rest.ids)).cons id,
        fun Q hall => hQ Q hall.2.1⟩
    · obtain ⟨above', k', D, hD, hsub, hQ⟩ := ihr h.2.2 hx
      exact ⟨above', k', D, hD,
        (hsub.trans (List.sublist_append_right below.ids rest.ids)).cons id,
        fun Q hall => hQ Q hall.2.2⟩

theorem Holds.parent_of_mem (h : t.Holds above F) (hx : .node x ∈ F.children) :
    t.parent x = above := by
  induction F with
  | nil => simp [Forest.children] at hx
  | text s rest ih => exact ih h (by simpa [Forest.children] using hx)
  | node id k below rest _ ih =>
    simp only [Forest.children, List.mem_cons, Child.node.injEq] at hx
    rcases hx with rfl | hx
    · rw [Tree.parent_eq, h.1.2]
    · exact ih h.2.2 hx

theorem Holds.mem_of_lists (h : t.Holds above F) (hy : y ∈ F.ids) (hlists : t.Lists y x) :
    x ∈ F.ids ∧ t.parent x = some y := by
  obtain ⟨above', k, D, hD, hsub, -⟩ := h.exists_branch hy
  have hx : .node x ∈ D.children := by rwa [Lists, hD.children_eq] at hlists
  refine ⟨hsub.subset ?_, hD.2.1.parent_of_mem hx⟩
  simp [Forest.ids, Forest.mem_ids_of_mem_children hx]

theorem Holds.mem_of_reach (h : t.Holds above F) (hy : y ∈ F.ids)
    (hreach : ReflTransGen t.Lists y x) : x ∈ F.ids := by
  induction hreach with
  | refl => exact hy
  | tail _ hlists ih => exact (h.mem_of_lists ih hlists).1

/-- Every node of a held forest can be reached from its top level. -/
theorem Holds.exists_reach (h : t.Holds above F) (hx : x ∈ F.ids) :
    ∃ c, .node c ∈ F.children ∧ ReflTransGen t.Lists c x := by
  induction F generalizing above with
  | nil => simp [Forest.ids] at hx
  | text s rest ih =>
    obtain ⟨c, hc, hreach⟩ := ih h hx
    exact ⟨c, List.mem_cons_of_mem _ hc, hreach⟩
  | node id k below rest ihb ihr =>
    simp only [Forest.ids, List.mem_cons, List.mem_append] at hx
    rcases hx with rfl | hx | hx
    · exact ⟨x, List.mem_cons_self .., .refl⟩
    · obtain ⟨c, hc, hreach⟩ := ihb h.2.1 hx
      have hlists : t.Lists id c := by rwa [Lists, h.children_eq]
      exact ⟨id, List.mem_cons_self .., .head hlists hreach⟩
    · obtain ⟨c, hc, hreach⟩ := ihr h.2.2 hx
      exact ⟨c, List.mem_cons_of_mem _ hc, hreach⟩

theorem Holds.not_below_itself (h : t.Holds above F) (hnd : F.ids.Nodup) (hx : x ∈ F.ids) :
    ¬ TransGen t.Lists x x := by
  intro hcycle
  obtain ⟨above', k, D, hD, hsub, -⟩ := h.exists_branch hx
  obtain ⟨hxD, -⟩ := Forest.nodup_ids_node.1 (hsub.nodup hnd)
  obtain ⟨c, hlists, hreach⟩ := TransGen.head'_iff.1 hcycle
  have hc : .node c ∈ D.children := by rwa [Lists, hD.children_eq] at hlists
  exact hxD (hD.2.1.mem_of_reach (Forest.mem_ids_of_mem_children hc) hreach)

theorem Spans.attached_iff (h : t.Spans F) :
    t.Attached x ↔ x ∈ (Forest.node root .document F .nil).ids := by
  constructor
  · exact h.holds.mem_of_reach (by simp [Forest.ids])
  · intro hx
    obtain ⟨c, hc, hreach⟩ := h.holds.exists_reach hx
    obtain rfl : c = root := by simpa [Forest.children] using hc
    exact hreach

theorem Spans.wellFormed (h : t.Spans F) : t.WellFormed := by
  have hholds := h.holds
  have hmem : ∀ {x}, t.Attached x → x ∈ (Forest.node root .document F .nil).ids :=
    fun hx => h.attached_iff.1 hx
  refine ⟨?_, hholds.1.1, ?_, ?_, ?_, ?_, ?_⟩
  · rw [kind_eq, hholds.1.2]
  · intro owner id howner hlists
    exact hholds.lt_size id (hholds.mem_of_lists (hmem howner) hlists).1
  · intro owner id howner hlists
    exact (hholds.mem_of_lists (hmem howner) hlists).2
  · intro owner howner
    obtain ⟨above, k, D, hD, hsub, -⟩ := hholds.exists_branch (hmem howner)
    have hnd := (Forest.nodup_ids_node.1 (hsub.nodup h.nodup)).2.2.1
    rw [hD.children_eq]
    exact (Forest.sublist_children_ids D).nodup hnd
  · intro id hid
    exact hholds.not_below_itself h.nodup (hmem hid)
  · intro id hid hname
    obtain ⟨above, k, D, hD, -, hQ⟩ := hholds.exists_branch (hmem hid)
    have hk : k = .separator := by rwa [hD.name_eq, Kind.eq_separator_iff] at hname
    have hsep : (Forest.node root .document F .nil).SeparatorsChildless :=
      ⟨by simp, h.separators, trivial⟩
    rw [hD.children_eq, (hQ _ hsep).1 hk]
    rfl

/-! From the nodes of a table to its forest. -/

namespace WellFormed

variable {a b : NodeId}

theorem attached_of_reach (ha : t.Attached a) (hreach : ReflTransGen t.Lists a x) :
    t.Attached x :=
  ReflTransGen.trans ha hreach

/-- Of two nodes above a third, one is above the other. -/
theorem reach_or_reach (hwf : t.WellFormed) (ha : t.Attached a) (hb : t.Attached b)
    (hax : ReflTransGen t.Lists a x) (hbx : ReflTransGen t.Lists b x) :
    ReflTransGen t.Lists a b ∨ ReflTransGen t.Lists b a := by
  induction hax with
  | refl => exact Or.inr hbx
  | @tail y x hay hyx ih =>
    rcases hbx.cases_tail with rfl | ⟨y', hby, hyx'⟩
    · exact Or.inl (hay.tail hyx)
    · have hy := hwf.parent_eq (attached_of_reach ha hay) hyx
      have hy' := hwf.parent_eq (attached_of_reach hb hby) hyx'
      obtain rfl : y = y' := Option.some.inj (hy.symm.trans hy')
      exact ih hby

/-- No child is below another child of the same owner. -/
theorem eq_of_siblings (hwf : t.WellFormed) (howner : t.Attached owner) (ha : t.Lists owner a)
    (hb : t.Lists owner b) (hab : ReflTransGen t.Lists a b) : a = b := by
  rcases hab.cases_tail with rfl | ⟨y, hay, hyb⟩
  · rfl
  · have hy := hwf.parent_eq (attached_of_reach (howner.tail ha) hay) hyb
    obtain rfl : y = owner := Option.some.inj (hy.symm.trans (hwf.parent_eq howner hb))
    exact absurd (TransGen.head' ha hay) (hwf.acyclic howner)

theorem nodup_ids (hwf : t.WellFormed) (howner : t.Attached owner) (h : t.Holds (some owner) F)
    (hlists : ∀ x, .node x ∈ F.children → t.Lists owner x)
    (honce : (F.children.filterMap Child.node?).Nodup) : F.ids.Nodup := by
  induction F generalizing owner with
  | nil => exact List.nodup_nil
  | text s rest ih =>
    exact ih howner h (fun x hx => hlists x (List.mem_cons_of_mem _ hx)) honce
  | node id k below rest ihb ihr =>
    have hid : t.Lists owner id := hlists id (List.mem_cons_self ..)
    have hatt : t.Attached id := howner.tail hid
    have hbelow : ∀ x, .node x ∈ below.children → t.Lists id x := fun x hx => by
      rwa [Lists, h.children_eq]
    have hrest : ∀ x, .node x ∈ rest.children → t.Lists owner x := fun x hx =>
      hlists x (List.mem_cons_of_mem _ hx)
    obtain ⟨hidr, hnd⟩ := List.nodup_cons.1 honce
    have hne : ∀ c, .node c ∈ rest.children → id ≠ c := by
      rintro c hc rfl
      exact hidr (List.mem_filterMap.2 ⟨.node id, hc, rfl⟩)
    -- a node both below `id` and in `rest` would put one sibling above another
    have hapart : ∀ x, ReflTransGen t.Lists id x → x ∉ rest.ids := by
      intro x hx hmem
      obtain ⟨c, hc, hcx⟩ := h.2.2.exists_reach hmem
      have hcl := hrest c hc
      rcases hwf.reach_or_reach hatt (howner.tail hcl) hx hcx with hreach | hreach
      · exact hne c hc (hwf.eq_of_siblings howner hid hcl hreach)
      · exact hne c hc (hwf.eq_of_siblings howner hcl hid hreach).symm
    refine Forest.nodup_ids_node.2 ⟨?_, hapart id .refl, ?_, ihr howner h.2.2 hrest hnd, ?_⟩
    · intro hmem
      obtain ⟨c, hc, hreach⟩ := h.2.1.exists_reach hmem
      exact hwf.acyclic hatt (TransGen.head' (hbelow c hc) hreach)
    · have honce' := hwf.once hatt
      rw [h.children_eq] at honce'
      exact ihb hatt h.2.1 hbelow honce'
    · intro x hx
      obtain ⟨c, hc, hreach⟩ := h.2.1.exists_reach hx
      exact hapart x (.head (hbelow c hc) hreach)

theorem separatorsChildless (hwf : t.WellFormed) (h : t.Holds above F)
    (hatt : ∀ x ∈ F.ids, t.Attached x) : F.SeparatorsChildless := by
  induction F generalizing above with
  | nil => trivial
  | text s rest ih => exact ih h hatt
  | node id k below rest ihb ihr =>
    simp only [Forest.ids, List.mem_cons, List.mem_append] at hatt
    refine ⟨fun hk => ?_, ihb h.2.1 fun x hx => hatt x (Or.inr (Or.inl hx)),
      ihr h.2.2 fun x hx => hatt x (Or.inr (Or.inr hx))⟩
    have hchildren := hwf.separator_childless (hatt id (Or.inl rfl))
      (by rw [h.name_eq, hk]; rfl)
    rw [h.children_eq] at hchildren
    exact Forest.eq_nil_of_children_eq_nil hchildren

/-- A list of children of which each node has a forest is a forest itself. -/
theorem exists_forest_of_children (cs : List Child)
    (hcs : ∀ c, .node c ∈ cs → ∃ k D, t.Holds above (.node c k D .nil)) :
    ∃ F : Forest, F.children = cs ∧ t.Holds above F := by
  induction cs with
  | nil => exact ⟨.nil, rfl, trivial⟩
  | cons c rest ih =>
    obtain ⟨F, hF, hholds⟩ := ih fun c hc => hcs c (List.mem_cons_of_mem _ hc)
    cases c with
    | text s => exact ⟨.text s F, by rw [Forest.children, hF], hholds⟩
    | node id =>
      obtain ⟨k, D, hD⟩ := hcs id (List.mem_cons_self ..)
      exact ⟨.node id k D F, by rw [Forest.children, hF], hD.1, hD.2.1, hholds⟩

/-- Below each node that can be reached lies a forest. The induction goes down the tree: what is
below a node can be taken for granted, since the table is finite and has no cycles. -/
theorem exists_forest (hwf : t.WellFormed) (hid : t.Attached id) (hlt : id < t.size) :
    ∃ F, t.Holds (t.parent id) (.node id (t.kind id) F .nil) := by
  let Below (a b : { x : Fin t.size // t.Attached x.1 }) : Prop := TransGen t.Lists b.1.1 a.1.1
  have : IsTrans _ Below := ⟨fun _ _ _ hab hbc => TransGen.trans hbc hab⟩
  have : Std.Irrefl Below := ⟨fun a => hwf.acyclic a.2⟩
  have hwell : WellFounded Below := Finite.wellFounded_of_trans_of_irrefl Below
  suffices h : ∀ a : { x : Fin t.size // t.Attached x.1 }, ∃ F,
      t.Holds (t.parent a.1.1) (.node a.1.1 (t.kind a.1.1) F .nil) from h ⟨⟨id, hlt⟩, hid⟩
  intro a
  induction a using hwell.induction with
  | _ a ih =>
    have hchildren : ∀ c, .node c ∈ t.children a.1.1 →
        ∃ k D, t.Holds (some a.1.1) (.node c k D .nil) := by
      intro c hc
      have hlists : t.Lists a.1.1 c := hc
      obtain ⟨D, hD⟩ := ih ⟨⟨c, hwf.in_use a.2 hlists⟩, a.2.tail hlists⟩ (.single hlists)
      rw [hwf.parent_eq a.2 hlists] at hD
      exact ⟨_, D, hD⟩
    obtain ⟨F, hF, hholds⟩ := exists_forest_of_children _ hchildren
    refine ⟨F, ⟨a.1.2, ?_⟩, hholds, trivial⟩
    rw [hF]
    rfl

theorem exists_spans (hwf : t.WellFormed) : ∃ F, t.Spans F := by
  obtain ⟨F, hF⟩ := hwf.exists_forest .refl hwf.root_in_use
  rw [hwf.root_kind] at hF
  have hroot : t.Attached root := .refl
  have hlists : ∀ x, .node x ∈ F.children → t.Lists root x := fun x hx => by
    rwa [Lists, hF.children_eq]
  have honce := hwf.once hroot
  rw [hF.children_eq] at honce
  have hbelow : ∀ x ∈ F.ids, TransGen t.Lists root x := by
    intro x hx
    obtain ⟨c, hc, hreach⟩ := hF.2.1.exists_reach hx
    exact TransGen.head' (hlists c hc) hreach
  refine ⟨F, hF, Forest.nodup_ids_node.2 ⟨?_, by simp [Forest.ids],
    hwf.nodup_ids hroot hF.2.1 hlists honce, by simp [Forest.ids], by simp [Forest.ids]⟩, ?_⟩
  · exact fun hmem => hwf.acyclic hroot (hbelow root hmem)
  · exact hwf.separatorsChildless hF.2.1 fun x hx => (hbelow x hx).to_reflTransGen

end WellFormed

/-- A table is well formed exactly if what can be reached from its root is a forest. -/
theorem wellFormed_iff_spans : t.WellFormed ↔ ∃ F, t.Spans F :=
  ⟨WellFormed.exists_spans, fun ⟨_, h⟩ => h.wellFormed⟩

/-! The forest of a table, computed. -/

/-- The forest of a list of children, down to the given depth. -/
def forestTo (t : Tree) : (depth : Nat) → List Child → Forest
  | 0, _ => .nil
  | depth + 1, cs =>
    cs.foldr (fun child rest =>
      match child with
      | .text s => .text s rest
      | .node id => .node id (t.kind id) (t.forestTo depth (t.children id)) rest) .nil

/-- What lies below the root. -/
def forest (t : Tree) : Forest := t.forestTo t.size (t.children root)

theorem Holds.forestTo_eq {d : Nat} (h : t.Holds above F) (hd : F.depth < d) :
    t.forestTo d F.children = F := by
  induction F generalizing above d with
  | nil => cases d <;> rfl
  | text s rest ih =>
    cases d with
    | zero => omega
    | succ d => exact congrArg (Forest.text s) (ih h hd)
  | node id k below rest ihb ihr =>
    simp only [Forest.depth] at hd
    cases d with
    | zero => omega
    | succ d =>
      have hkind : t.kind id = k := by rw [kind_eq, h.1.2]
      change Forest.node id (t.kind id) (t.forestTo d (t.children id))
        (t.forestTo (d + 1) rest.children) = _
      rw [hkind, h.children_eq, ihb h.2.1 (by omega), ihr h.2.2 (by omega)]

theorem Spans.forest_eq (h : t.Spans F) : t.forest = F := by
  rw [forest, h.holds.children_eq, h.holds.2.1.forestTo_eq h.depth_lt]

theorem WellFormed.spans_forest (h : t.WellFormed) : t.Spans t.forest := by
  obtain ⟨F, hF⟩ := h.exists_spans
  rwa [hF.forest_eq]

end HtmlMarkdown.Document.Tree
