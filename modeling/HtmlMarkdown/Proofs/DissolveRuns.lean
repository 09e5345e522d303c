import HtmlMarkdown.Proofs.PassRuns

/-!
The passes that let nodes give their place to what lies below them. The walk along a list goes on
at the same place after a node has been dissolved; what is left to do is measured by the entries
of the forest from there on.
-/
namespace HtmlMarkdown.Document
namespace Tree

/-- No node is new, and the nodes that are no longer in the forest have the given name and are left
detached and empty. -/
structure Vacates (name : Kind.Name) (t : Tree) (F : Forest) (t' : Tree) (F' : Forest) : Prop where
  size_eq : t'.size = t.size
  gone : ∀ x ∈ F.ids, x ∉ F'.ids → t'.name x = name ∧ t'.children x = [] ∧ t'.parent x = none

namespace Vacates

variable {name : Kind.Name} {t t₁ t' : Tree} {F F₁ F' G G' : Forest}

theorem of_ids_eq (hsize : t'.size = t.size) (hids : F'.ids = F.ids) : Vacates name t F t' F' :=
  ⟨hsize, fun _ hx hx' => absurd (hids ▸ hx) hx'⟩

theorem trans (h : Vacates name t F t₁ F₁) (h' : Vacates name t₁ F₁ t' F')
    (hframe : ∀ x, x < t₁.size → x ∉ F₁.ids → t'.node x = t₁.node x)
    (hlt : ∀ x ∈ F.ids, x < t.size) : Vacates name t F t' F' := by
  refine ⟨h'.size_eq.trans h.size_eq, fun x hx hx' => ?_⟩
  by_cases hx₁ : x ∈ F₁.ids
  · exact h'.gone x hx₁ hx'
  · have hnode := hframe x (h.size_eq ▸ hlt x hx) hx₁
    simpa only [name_eq, children_eq, parent_eq, hnode] using h.gone x hx hx₁

/-- The same change, seen as a change of a forest around. -/
theorem within {X Y : List NodeId} (h : Vacates name t F t' F') (hG : G.ids = X ++ F.ids ++ Y)
    (hG' : G'.ids = X ++ F'.ids ++ Y) : Vacates name t G t' G' := by
  refine ⟨h.size_eq, fun x hx hx' => ?_⟩
  rw [hG, List.mem_append, List.mem_append] at hx
  rw [hG', List.mem_append, List.mem_append, not_or, not_or] at hx'
  exact h.gone x ((hx.resolve_right hx'.2).resolve_left hx'.1.1) hx'.1.2

end Vacates

variable {t : Tree} {above : Option NodeId} {owner id : NodeId} {k : Kind} {F F' : Forest}

/-- Dissolving one node of a held forest. -/
theorem Holds.replaceWithChildren {P D R : Forest} {inner : Kind}
    (h : t.Holds above (.node owner k (P ++ .node id inner D R) .nil))
    (hnd : (Forest.node owner k (P ++ .node id inner D R) .nil).ids.Nodup)
    (hk : k ≠ .separator) :
    ∃ t', Tree.replaceWithChildren id t = .ok () t' ∧
      t'.Holds above (.node owner k (P ++ (D ++ R)) .nil) ∧
      Becomes t (.node owner k (P ++ .node id inner D R) .nil) t'
        (.node owner k (P ++ (D ++ R)) .nil) ∧
      Vacates inner.name t (.node owner k (P ++ .node id inner D R) .nil) t'
        (.node owner k (P ++ (D ++ R)) .nil) := by
  obtain ⟨hown, hlist⟩ := h.1
  obtain ⟨hP, hid, hD, hR⟩ := holds_append.1 h.2.1
  have hnd' := hnd
  simp only [Forest.ids, Forest.ids_append, List.append_nil, List.nodup_cons, List.mem_append,
    List.mem_cons, not_or, List.nodup_append] at hnd'
  obtain ⟨⟨howP, hne, howD, howR⟩, hndP, ⟨⟨hidD, hidR⟩, hndD, hndR, hDR⟩, hPid⟩ := hnd'
  have hidP : id ∉ P.ids := fun hmem => hPid id hmem id (Or.inl rfl) rfl
  have hnotP : ∀ x, .node x ∈ D.children → x ∉ P.ids := fun x hx hmem =>
    hPid x hmem x (Or.inr (Or.inl (Forest.mem_ids_of_mem_children hx))) rfl
  have hidc : t.children id = D.children := by rw [Tree.children_eq, hid.2]
  obtain ⟨t', hrun, hsize, howner', hid', hother⟩ :=
    replaceWithChildren_eq (X := P.children) (Y := R.children) hid.1 (by rw [Tree.parent_eq, hid.2])
      (by rw [Tree.children_eq, hlist, Forest.children_append]; rfl)
      (fun hmem => hidP (Forest.mem_ids_of_mem_children hmem)) hne
      (by rw [hidc]; exact fun hmem => hidD (Forest.mem_ids_of_mem_children hmem))
      (by rw [hidc]; exact fun hmem => howD (Forest.mem_ids_of_mem_children hmem))
      (by rw [h.name_eq, Ne, Kind.eq_separator_iff]; exact hk)
  rw [hidc] at howner' hother
  have hframe : ∀ x, x ≠ owner → x ≠ id → .node x ∉ D.children → t'.node x = t.node x :=
    fun x hx hxid hxD => by rw [hother x hx hxid, node_reparent_of_notMem _ _ _ _ hxD]
  refine ⟨t', hrun, ⟨⟨by rw [hsize]; exact hown, ?_⟩, ?_, trivial⟩, ?_, hsize, fun x hx hx' => ?_⟩
  · rw [howner', hlist]
    simp
  · refine holds_append.2 ⟨?_, holds_append.2 ⟨?_, ?_⟩⟩
    · refine hP.of_node_eq (Nat.le_of_eq hsize.symm) fun x hx => ?_
      exact hframe x (fun he => howP (he ▸ hx)) (fun he => hidP (he ▸ hx))
        fun hmem => hnotP x hmem hx
    · refine (hD.reparent hndD (some owner)).of_node_eq
        (by rw [size_reparent, hsize]) fun x hx => ?_
      exact hother x (fun he => howD (he ▸ hx)) (fun he => hidD (he ▸ hx))
    · refine hR.of_node_eq (Nat.le_of_eq hsize.symm) fun x hx => ?_
      exact hframe x (fun he => howR (he ▸ hx)) (fun he => hidR (he ▸ hx))
        fun hmem => hDR x (Forest.mem_ids_of_mem_children hmem) x hx rfl
  · have hsub : (Forest.node owner k (P ++ (D ++ R)) .nil).ids.Sublist
        (Forest.node owner k (P ++ .node id inner D R) .nil).ids := by
      simp only [Forest.ids, Forest.ids_append, List.append_nil]
      exact ((List.sublist_cons_self id _).append_left P.ids).cons_cons owner
    refine ⟨Nat.le_of_eq hsize.symm, hsub.nodup hnd, fun x hx => Or.inl (hsub.subset hx), ?_⟩
    intro x _ hx
    simp only [Forest.ids, Forest.ids_append, List.append_nil, List.mem_cons, List.mem_append,
      not_or] at hx
    exact hframe x hx.1 hx.2.2.1 fun hmem => hx.2.2.2.1 (Forest.mem_ids_of_mem_children hmem)
  · obtain rfl : x = id := by
      simp only [Forest.ids, Forest.ids_append, List.append_nil, List.mem_cons, List.mem_append,
        not_or] at hx hx'
      tauto
    simp only [Tree.name_eq, Tree.children_eq, Tree.parent_eq, hid', hid.2, and_self]

section Dissolve

variable {name : Kind.Name} {prepare : NodeId → Tree → Tree}
  {keeps : ∀ id t, (prepare id t).edgeCount = t.edgeCount} {position : Nat}

theorem dissolveFrom_of_none (h : (t.children owner)[position]? = none) :
    dissolveFrom name prepare keeps owner position t = .ok () t := by
  rw [dissolveFrom]
  split <;> simp_all

theorem dissolveFrom_of_text {s : String} (h : (t.children owner)[position]? = some (.text s)) :
    dissolveFrom name prepare keeps owner position t =
      dissolveFrom name prepare keeps owner (position + 1) t := by
  rw [dissolveFrom]
  split <;> simp_all

theorem dissolveFrom_of_ne (h : (t.children owner)[position]? = some (.node id))
    (hname : t.name id ≠ name) :
    dissolveFrom name prepare keeps owner position t =
      dissolveFrom name prepare keeps owner (position + 1) t := by
  rw [dissolveFrom]
  split <;> simp_all

theorem dissolveFrom_of_eq {t' : Tree} (h : (t.children owner)[position]? = some (.node id))
    (hname : t.name id = name) (hrun : Tree.replaceWithChildren id (prepare id t) = .ok () t') :
    dissolveFrom name prepare keeps owner position t =
      dissolveFrom name prepare keeps owner position t' := by
  rw [dissolveFrom]
  split
  · simp_all
  · simp_all
  · rename_i other hother
    obtain rfl : id = other := by simp_all
    rw [if_pos hname]
    split <;> simp_all

theorem dissolveFrom_of_error {fault : Fault}
    (h : (t.children owner)[position]? = some (.node id)) (hname : t.name id = name)
    (hrun : Tree.replaceWithChildren id (prepare id t) = .error fault t') :
    dissolveFrom name prepare keeps owner position t = .error fault t' := by
  rw [dissolveFrom]
  split <;> grind

/-- A node in the midst of a list may change by itself. -/
theorem Holds.focus {t' : Tree} {P D D' R : Forest} {inner inner' : Kind}
    (h : t.Holds above (.node owner k (P ++ .node id inner D R) .nil))
    (hnd : (Forest.node owner k (P ++ .node id inner D R) .nil).ids.Nodup)
    (h' : t'.Holds (some owner) (.node id inner' D' .nil))
    (hbecomes : Becomes t (.node id inner D .nil) t' (.node id inner' D' .nil)) :
    t'.Holds above (.node owner k (P ++ .node id inner' D' R) .nil) ∧
      Becomes t (.node owner k (P ++ .node id inner D R) .nil) t'
        (.node owner k (P ++ .node id inner' D' R) .nil) := by
  obtain ⟨hP, -, hD, hR⟩ := holds_append.1 h.2.1
  have hnd' := hnd
  simp only [Forest.ids, Forest.ids_append, List.append_nil, List.nodup_cons, List.mem_append,
    List.mem_cons, not_or, List.nodup_append] at hnd'
  obtain ⟨⟨-, hne, howD, -⟩, -, ⟨⟨-, hidR⟩, -, -, hDR⟩, hPid⟩ := hnd'
  have hown : owner ∉ (Forest.node id inner D .nil).ids := by
    simp [Forest.ids, hne, howD]
  refine ⟨⟨⟨Nat.lt_of_lt_of_le h.1.1 hbecomes.size_le, ?_⟩, ?_, trivial⟩, ?_⟩
  · rw [hbecomes.frame owner h.1.1 hown, h.1.2]
    simp [Forest.children]
  · refine holds_append.2 ⟨hbecomes.holds hP ?_, h'.1, h'.2.1, hbecomes.holds hR ?_⟩
    · intro x hx hmem
      simp only [Forest.ids, List.append_nil, List.mem_cons] at hmem
      exact hPid x hx x (hmem.imp_right Or.inl) rfl
    · intro x hx hmem
      simp only [Forest.ids, List.append_nil, List.mem_cons] at hmem
      rcases hmem with rfl | hmem
      · exact hidR hx
      · exact hDR x hmem x hx rfl
  · exact hbecomes.within (X := owner :: P.ids) (Y := R.ids) (by simp [Forest.ids])
      (by simp [Forest.ids]) hnd h.lt_size

/-- What is done to a node before it is dissolved, in the table and in the forest. -/
structure Prepares (prepare : NodeId → Tree → Tree) (ready : Forest → Forest) : Prop where
  entries_eq : ∀ D, (ready D).entries = D.entries
  ids_eq : ∀ D, (ready D).ids = D.ids
  size_eq : ∀ id t, (prepare id t).size = t.size
  holds : ∀ {t : Tree} {above : Option NodeId} {id : NodeId} {k : Kind} {D : Forest},
    t.Holds above (.node id k D .nil) → (Forest.node id k D .nil).ids.Nodup →
    (prepare id t).Holds above (.node id k (ready D) .nil) ∧
      Becomes t (.node id k D .nil) (prepare id t) (.node id k (ready D) .nil)

variable {ready : Forest → Forest}

/-- One node among others is prepared and dissolved. -/
theorem Holds.dissolve {P D R : Forest} {inner : Kind} (hready : Prepares prepare ready)
    (h : t.Holds above (.node owner k (P ++ .node id inner D R) .nil))
    (hnd : (Forest.node owner k (P ++ .node id inner D R) .nil).ids.Nodup)
    (hk : k ≠ .separator) :
    ∃ t', Tree.replaceWithChildren id (prepare id t) = .ok () t' ∧
      t'.Holds above (.node owner k (P ++ (ready D ++ R)) .nil) ∧
      Becomes t (.node owner k (P ++ .node id inner D R) .nil) t'
        (.node owner k (P ++ (ready D ++ R)) .nil) ∧
      Vacates inner.name t (.node owner k (P ++ .node id inner D R) .nil) t'
        (.node owner k (P ++ (ready D ++ R)) .nil) := by
  obtain ⟨-, hid, hD, -⟩ := holds_append.1 h.2.1
  have hone : (Forest.node id inner D .nil).ids.Nodup := by
    have hnd' := hnd
    simp only [Forest.ids, Forest.ids_append, List.append_nil, List.nodup_cons,
      List.nodup_append] at hnd'
    simp only [Forest.ids, List.append_nil, List.nodup_cons]
    exact ⟨fun hmem => hnd'.2.2.1.1 (List.mem_append_left _ hmem), hnd'.2.2.1.2.1⟩
  obtain ⟨hprep, hprepB⟩ := hready.holds ⟨hid, hD, trivial⟩ hone
  obtain ⟨h₁, hb₁⟩ := h.focus hnd hprep hprepB
  obtain ⟨t', hrun, h₂, hb₂, hv₂⟩ := h₁.replaceWithChildren hb₁.nodup hk
  have hv₁ : Vacates inner.name t (.node owner k (P ++ .node id inner D R) .nil) (prepare id t)
      (.node owner k (P ++ .node id inner (ready D) R) .nil) :=
    .of_ids_eq (hready.size_eq id t) (by simp [Forest.ids, hready.ids_eq])
  exact ⟨t', hrun, h₂, hb₁.trans hb₂, hv₁.trans hv₂ hb₂.frame h.lt_size⟩

/-- Along a list, from the node that stands behind `P`. -/
theorem dissolveFrom_runs (hready : Prepares prepare ready) (hk : k ≠ .separator) (m : Nat) :
    ∀ (t : Tree) (P F : Forest), F.entries ≤ m → t.Holds above (.node owner k (P ++ F) .nil) →
      (Forest.node owner k (P ++ F) .nil).ids.Nodup →
      ∃ t' G, dissolveFrom name prepare keeps owner P.children.length t = .ok () t' ∧
        Forest.Dissolved name ready F G ∧ t'.Holds above (.node owner k (P ++ G) .nil) ∧
        Becomes t (.node owner k (P ++ F) .nil) t' (.node owner k (P ++ G) .nil) ∧
        Vacates name t (.node owner k (P ++ F) .nil) t' (.node owner k (P ++ G) .nil) := by
  induction m with
  | zero =>
    intro t P F hm h hnd
    obtain rfl : F = .nil := by cases F <;> simp [Forest.entries] at hm ⊢
    refine ⟨t, .nil, dissolveFrom_of_none ?_, .nil, h, Becomes.refl t hnd, .of_ids_eq rfl rfl⟩
    rw [h.children_eq, Forest.append_nil, List.getElem?_length]
  | succ m ih =>
    intro t P F hm h hnd
    have hlist : (t.children owner)[P.children.length]? = F.children[0]? := by
      rw [h.children_eq, Forest.children_append, List.getElem?_append_right (Nat.le_refl _),
        Nat.sub_self]
    cases F with
    | nil =>
      exact ⟨t, .nil, dissolveFrom_of_none hlist, .nil, h, Becomes.refl t hnd, .of_ids_eq rfl rfl⟩
    | text s rest =>
      rw [← Forest.append_text_append] at h hnd
      simp only [Forest.entries, Nat.add_le_add_iff_right] at hm
      obtain ⟨t', G, hrun, hstep, hkept⟩ := ih t (P ++ .text s .nil) rest hm h hnd
      simp only [Forest.append_text_append] at hkept
      refine ⟨t', .text s G, ?_, hstep.text s, by simpa only [Forest.append_text_append]⟩
      rw [dissolveFrom_of_text hlist]
      simpa [Forest.children] using hrun
    | node id inner D rest =>
      have hid : t.name id = inner.name := (holds_append.1 h.2.1).2.name_eq
      by_cases hname : inner.name = name
      · have hm' : (ready D ++ rest).entries ≤ m := by
          rw [Forest.entries_append, hready.entries_eq]
          simpa [Forest.entries] using hm
        obtain ⟨t₁, hone, h₁, hb₁, hv₁⟩ := h.dissolve hready hnd hk
        obtain ⟨t', G, hrun, hstep, hholds, hbecomes, hvacates⟩ :=
          ih t₁ P (ready D ++ rest) hm' h₁ hb₁.nodup
        refine ⟨t', G, ?_, hstep.dissolve id inner D hname, hholds, hb₁.trans hbecomes,
          (hname ▸ hv₁).trans hvacates hbecomes.frame h.lt_size⟩
        rw [dissolveFrom_of_eq hlist (hid.trans hname) hone]
        exact hrun
      · rw [← Forest.append_node_append] at h hnd
        have hm' : rest.entries ≤ m := by
          simp only [Forest.entries] at hm
          omega
        obtain ⟨t', G, hrun, hstep, hkept⟩ := ih t (P ++ .node id inner D .nil) rest hm' h hnd
        simp only [Forest.append_node_append] at hkept
        refine ⟨t', .node id inner D G, ?_, hstep.keep id inner D hname,
          by simpa only [Forest.append_node_append]⟩
        rw [dissolveFrom_of_ne hlist (hid.trans_ne hname)]
        simpa [Forest.children] using hrun

/-- The whole list of a node. -/
theorem Holds.dissolveAll (hready : Prepares prepare ready) (h : t.Holds above (.node id k F .nil))
    (hnd : (Forest.node id k F .nil).ids.Nodup) (hsep : k = .separator → F = .nil) :
    ∃ t' F', dissolveFrom name prepare keeps id 0 t = .ok () t' ∧
      Forest.Dissolved name ready F F' ∧ t'.Holds above (.node id k F' .nil) ∧
      Becomes t (.node id k F .nil) t' (.node id k F' .nil) ∧
      Vacates name t (.node id k F .nil) t' (.node id k F' .nil) := by
  by_cases hk : k = .separator
  · obtain rfl := hsep hk
    refine ⟨t, .nil, dissolveFrom_of_none ?_, .nil, h, Becomes.refl t hnd, .of_ids_eq rfl rfl⟩
    rw [h.children_eq]
    rfl
  · exact dissolveFrom_runs hready hk F.entries t .nil F (Nat.le_refl _) h hnd

theorem realizes_dissolveFrom (n : NodeId) (hready : Prepares prepare ready) :
    Realizes n (fun owner => dissolveFrom name prepare keeps owner 0) fun _ F F' =>
      Forest.Dissolved name ready F F' := by
  intro t above id k F _ h hnd hsep
  obtain ⟨t', F', hrun, hstep, hholds, hbecomes, -⟩ := h.dissolveAll hready hnd hsep
  exact ⟨t', F', hrun, hstep, hholds, hbecomes⟩

end Dissolve

theorem realizes_removeLinks (n : NodeId) :
    Realizes n removeLinks fun _ F F' => Forest.Dissolved .link (fun D => D) F F' :=
  realizes_dissolveFrom n ⟨fun _ => rfl, fun _ => rfl, fun _ _ => rfl,
    fun h hnd => ⟨h, Becomes.refl _ hnd⟩⟩

/-- Numbering the items of a list changes their kinds and nothing else. -/
theorem Holds.numberItems (h : t.Holds above F) (hnd : F.ids.Nodup) (i : Nat) :
    (t.numberItems i F.children).Holds above (F.numberFrom i) ∧
      (t.numberItems i F.children).size = t.size ∧
      ∀ x, x ∉ F.ids → (t.numberItems i F.children).node x = t.node x := by
  induction F generalizing t i with
  | nil => exact ⟨trivial, rfl, fun _ _ => rfl⟩
  | text s rest ih => exact ih h hnd i
  | node id k below rest _ ih =>
    obtain ⟨hidb, hidr, -, hndr, hdisj⟩ := Forest.nodup_ids_node.1 hnd
    simp only [Forest.children, Tree.numberItems, Forest.numberFrom, h.name_eq,
      Kind.eq_listItem_iff]
    split
    · have hnode := fun x => node_setKind t id x (.numberedItem i) h.1.1
      have hframe : ∀ x, x ≠ id → (t.setKind id (.numberedItem i)).node x = t.node x :=
        fun x hx => by rw [hnode, if_neg hx]
      obtain ⟨hrest, hsize, hother⟩ := ih (t := t.setKind id (.numberedItem i))
        (h.2.2.of_node_eq (Nat.le_of_eq (size_setKind ..).symm)
          fun x hx => hframe x fun he => hidr (he ▸ hx)) hndr (i + 1)
      rw [size_setKind] at hsize
      refine ⟨⟨⟨by rw [hsize]; exact h.1.1, ?_⟩, ?_, hrest⟩, hsize, fun x hx => ?_⟩
      · rw [hother id hidr, hnode, if_pos rfl, h.1.2]
      · refine h.2.1.of_node_eq (Nat.le_of_eq hsize.symm) fun x hx => ?_
        rw [hother x (hdisj x hx), hframe x fun he => hidb (he ▸ hx)]
      · simp only [Forest.ids, List.mem_cons, List.mem_append, not_or] at hx
        rw [hother x hx.2.2, hframe x hx.1]
    · obtain ⟨hrest, hsize, hother⟩ := ih h.2.2 hndr i
      refine ⟨⟨⟨by rw [hsize]; exact h.1.1, ?_⟩, ?_, hrest⟩, hsize, fun x hx => ?_⟩
      · rw [hother id hidr, h.1.2]
      · exact h.2.1.of_node_eq (Nat.le_of_eq hsize.symm) fun x hx => hother x (hdisj x hx)
      · simp only [Forest.ids, List.mem_cons, List.mem_append, not_or] at hx
        exact hother x hx.2.2

theorem size_numberItems (number : Nat) (items : List Child) (t : Tree) :
    (t.numberItems number items).size = t.size := by
  fun_induction numberItems number items t with
  | case1 => rfl
  | case2 _ _ _ _ ih => exact ih
  | case3 _ _ _ _ _ ih => rw [ih, size_setKind]
  | case4 _ _ _ _ _ ih => exact ih

theorem prepares_numberItems :
    Prepares (fun list t => t.numberItems 1 (t.children list)) (Forest.numberFrom 1) := by
  refine ⟨Forest.entries_numberFrom 1, Forest.ids_numberFrom 1,
    fun list t => size_numberItems 1 (t.children list) t, fun {t above id k D} h hnd => ?_⟩
  obtain ⟨hid, -, hndD, -, -⟩ := Forest.nodup_ids_node.1 hnd
  rw [h.children_eq]
  obtain ⟨hD, hsize, hother⟩ := h.2.1.numberItems hndD 1
  refine ⟨⟨⟨by rw [hsize]; exact h.1.1, ?_⟩, hD, trivial⟩, Nat.le_of_eq hsize.symm, ?_,
    fun x hx => Or.inl (by simpa [Forest.ids] using hx), fun x _ hx => ?_⟩
  · rw [hother id hid, h.1.2, Forest.children_numberFrom]
  · simpa [Forest.ids] using hnd
  · simp only [Forest.ids, List.append_nil, List.mem_cons, not_or] at hx
    exact hother x hx.2

theorem Holds.numberLists (h : t.Holds above (.node id k F .nil))
    (hnd : (Forest.node id k F .nil).ids.Nodup) (hsep : k = .separator → F = .nil) :
    ∃ t' F', Tree.numberLists id t = .ok () t' ∧
      Forest.Dissolved .orderedList (Forest.numberFrom 1) F F' ∧
      t'.Holds above (.node id k F' .nil) ∧ Becomes t (.node id k F .nil) t' (.node id k F' .nil) ∧
      Vacates .orderedList t (.node id k F .nil) t' (.node id k F' .nil) :=
  h.dissolveAll prepares_numberItems hnd hsep

theorem realizes_numberLists (n : NodeId) :
    Realizes n numberLists fun _ F F' =>
      Forest.Dissolved .orderedList (Forest.numberFrom 1) F F' :=
  realizes_dissolveFrom n prepares_numberItems

theorem realizes_collapseCodeInsidePre (n : NodeId) :
    Realizes n collapseCodeInsidePre fun k F F' => F' = F.collapseCode k := by
  intro t above owner k F _ h hnd _
  simp only [Tree.collapseCodeInsidePre, h.children_eq, h.name_eq]
  fun_cases Forest.collapseCode k F with
  | case1 id inner D hpre =>
    have hinner : t.name id = inner.name := h.2.1.name_eq
    have hk : k ≠ .separator := by
      rintro rfl
      simp [Kind.name] at hpre
    obtain ⟨t', hrun, hholds, hbecomes, -⟩ := Holds.replaceWithChildren (P := .nil) h hnd hk
    simp only [Forest.nil_append, Forest.append_nil] at hholds hbecomes
    refine ⟨t', D, ?_, rfl, hholds, hbecomes⟩
    simp only [Forest.children, hinner, if_pos hpre, hrun]
  | case2 id inner D hpre =>
    have hinner : t.name id = inner.name := h.2.1.name_eq
    refine ⟨t, .node id inner D .nil, ?_, rfl, h, Becomes.refl t hnd⟩
    simp only [Forest.children, hinner, if_neg hpre]
  | case3 _ hF =>
    refine ⟨t, F, ?_, rfl, h, Becomes.refl t hnd⟩
    split
    · rename_i code hcode
      cases F with
      | nil => simp [Forest.children] at hcode
      | text s rest => simp [Forest.children] at hcode
      | node id inner D rest =>
        simp only [Forest.children, List.cons.injEq] at hcode
        obtain rfl := Forest.eq_nil_of_children_eq_nil hcode.2
        exact absurd rfl (hF id inner D)
    · rfl

end Tree
end HtmlMarkdown.Document
