import HtmlMarkdown.Proofs.Held
import HtmlMarkdown.Proofs.Steps

/-!
Each pass, run on one node of a table that holds a forest, succeeds and takes its step on what
lies below that node. The table then holds the outcome, and nothing else in it has changed.
-/
namespace HtmlMarkdown.Document
namespace Tree

/-- On every node of a held forest the pass succeeds and takes a step. Only tables with at least
`n` nodes count, and separators have nothing below them. -/
def Realizes (n : NodeId) (pass : NodeId → Edit Unit) (Step : Kind → Forest → Forest → Prop) :
    Prop :=
  ∀ (t : Tree) (above : Option NodeId) (id : NodeId) (k : Kind) (F : Forest), n ≤ t.size →
    t.Holds above (.node id k F .nil) → (Forest.node id k F .nil).ids.Nodup →
    (k = .separator → F = .nil) →
    ∃ t' F', pass id t = .ok () t' ∧ Step k F F' ∧ t'.Holds above (.node id k F' .nil) ∧
      Becomes t (.node id k F .nil) t' (.node id k F' .nil)

variable {t : Tree} {above : Option NodeId} {owner id : NodeId} {k : Kind} {F F' : Forest}

theorem Holds.name_eq (h : t.Holds above (.node id k F F')) : t.name id = k.name := by
  rw [Tree.name_eq, h.1.2]

theorem Holds.children_eq (h : t.Holds above (.node id k F F')) : t.children id = F.children := by
  rw [Tree.children_eq, h.1.2]

/-- Giving a node another list, of nodes it has already. -/
theorem Holds.setChildren (h : t.Holds above (.node owner k F .nil))
    (hnd : (Forest.node owner k F .nil).ids.Nodup) (hF' : t.Holds (some owner) F')
    (hsub : F'.ids.Sublist F.ids) :
    (t.setChildren owner F'.children).Holds above (.node owner k F' .nil) ∧
      Becomes t (.node owner k F .nil) (t.setChildren owner F'.children)
        (.node owner k F' .nil) := by
  obtain ⟨hown, -, hndF, -, -⟩ := Forest.nodup_ids_node.1 hnd
  have hown' : owner ∉ F'.ids := fun hmem => hown (hsub.subset hmem)
  have hnode := fun x => node_setChildren t owner x F'.children h.1.1
  refine ⟨⟨⟨by rw [size_setChildren]; exact h.1.1, ?_⟩, ?_, trivial⟩, ?_⟩
  · rw [hnode, h.1.2]
    simp
  · refine hF'.of_node_eq (Nat.le_of_eq (size_setChildren ..).symm) fun x hx => ?_
    have hne : x ≠ owner := fun he => hown' (he ▸ hx)
    rw [hnode, if_neg hne]
  · refine ⟨Nat.le_of_eq (size_setChildren ..).symm, ?_, ?_, ?_⟩
    · exact Forest.nodup_ids_node.2 ⟨hown', by simp [Forest.ids], hsub.nodup hndF, by simp [Forest.ids],
        by simp [Forest.ids]⟩
    · intro x hx
      simp only [Forest.ids, List.append_nil, List.mem_cons] at hx ⊢
      exact Or.inl (hx.imp_right fun hx => hsub.subset hx)
    · intro x _ hx
      rw [hnode, if_neg fun he => hx (by simp [he, Forest.ids])]

/-! Texts. -/

theorem realizes_rewriteTexts (n : NodeId) {f : List Child → List Child} {g : Forest → Forest}
    (hnil : f [] = []) (hchildren : ∀ F, (g F).children = f F.children)
    (hids : ∀ F, (g F).ids = F.ids)
    (hholds : ∀ {t : Tree} {above} {F}, t.Holds above F → t.Holds above (g F)) :
    Realizes n (rewriteTexts f) fun _ F F' => F' = g F := by
  intro t above id k F _ h hnd hsep
  have hset := h.setChildren hnd (hholds h.2.1) (by rw [hids])
  simp only [rewriteTexts, h.children_eq]
  split
  · rename_i hsame
    refine ⟨t, g F, rfl, rfl, ⟨⟨h.1.1, ?_⟩, hholds h.2.1, trivial⟩, ?_⟩
    · rw [hchildren, hsame, h.1.2]
    · have := Becomes.refl t hnd
      exact ⟨this.size_le, by simpa [Forest.ids, hids] using hnd,
        fun x hx => Or.inl (by simpa [Forest.ids, hids] using hx), this.frame⟩
  · rename_i hchange
    have hname : t.name id ≠ .separator := by
      rw [h.name_eq, Ne, Kind.eq_separator_iff]
      intro hk
      rw [hsep hk] at hchange
      exact hchange hnil
    refine ⟨t.setChildren id (g F).children, g F, ?_, rfl, hset.1, hset.2⟩
    rw [if_neg hname, hchildren]

theorem holds_joinTexts (h : t.Holds above F) : t.Holds above F.joinTexts := by
  induction F generalizing above with
  | nil => trivial
  | node id k below rest _ ih => exact ⟨h.1, h.2.1, ih h.2.2⟩
  | text s rest ih =>
    have hrest := ih h
    simp only [Forest.joinTexts]
    cases hj : rest.joinTexts with
    | nil => trivial
    | text u more => rwa [hj] at hrest
    | node id k below more => rwa [hj] at hrest

theorem ids_joinTexts (F : Forest) : F.joinTexts.ids = F.ids := by
  induction F with
  | nil => rfl
  | node id k below rest _ ih => simp [Forest.joinTexts, Forest.ids, ih]
  | text s rest ih =>
    simp only [Forest.joinTexts, Forest.ids]
    rw [← ih]
    cases rest.joinTexts <;> rfl

theorem realizes_concatenateStrings (n : NodeId) :
    Realizes n concatenateStrings fun _ F F' => F' = F.joinTexts :=
  realizes_rewriteTexts n rfl Forest.children_joinTexts ids_joinTexts holds_joinTexts

theorem holds_spellTexts (h : t.Holds above F) : t.Holds above F.spellTexts := by
  induction F generalizing above with
  | nil => trivial
  | text s rest ih => exact ih h
  | node id k below rest _ ih => exact ⟨h.1, h.2.1, ih h.2.2⟩

theorem ids_spellTexts (F : Forest) : F.spellTexts.ids = F.ids := by
  induction F with
  | nil => rfl
  | text s rest ih => simpa [Forest.spellTexts, Forest.ids] using ih
  | node id k below rest _ ih => simp [Forest.spellTexts, Forest.ids, ih]

theorem realizes_replaceEmDashes (n : NodeId) :
    Realizes n replaceEmDashes fun _ F F' => F' = F.spellTexts :=
  realizes_rewriteTexts n rfl Forest.children_spellTexts ids_spellTexts holds_spellTexts

/-! Empty links. -/

theorem sublist_ids_dropEmptyLinks (F : Forest) : F.dropEmptyLinks.ids.Sublist F.ids := by
  induction F with
  | nil => exact List.Sublist.refl _
  | text s rest ih => exact ih
  | node id k below rest _ ih =>
    simp only [Forest.dropEmptyLinks]
    split
    · exact (ih.trans (List.sublist_append_right below.ids rest.ids)).cons id
    · exact (ih.append_left below.ids).cons_cons id

theorem holds_dropEmptyLinks (h : t.Holds above F) : t.Holds above F.dropEmptyLinks := by
  induction F with
  | nil => trivial
  | text s rest ih => exact ih h
  | node id k below rest _ ih =>
    simp only [Forest.dropEmptyLinks]
    split
    · exact ih h.2.2
    · exact ⟨h.1, h.2.1, ih h.2.2⟩

theorem Holds.isEmptyLink (h : t.Holds above (.node id k F F')) :
    t.isEmptyLink (.node id) = true ↔ k.name = .link ∧ F = .nil := by
  have hnil : F.children = [] ↔ F = .nil :=
    ⟨Forest.eq_nil_of_children_eq_nil, fun he => by rw [he]; rfl⟩
  simp [Tree.isEmptyLink, h.name_eq, h.children_eq, hnil]

theorem Holds.children_dropEmptyLinks (h : t.Holds above F) :
    F.dropEmptyLinks.children = F.children.filter fun child => !t.isEmptyLink child := by
  induction F with
  | nil => rfl
  | text s rest ih =>
    simpa [Forest.dropEmptyLinks, Forest.children, Tree.isEmptyLink] using ih h
  | node id k below rest _ ih =>
    have hlink := h.isEmptyLink
    simp only [Forest.dropEmptyLinks, Forest.children]
    split
    · rename_i hempty
      rw [ih h.2.2, List.filter_cons_of_neg (by simp [hlink.2 hempty])]
    · rename_i hfull
      rw [List.filter_cons_of_pos (by simpa using fun hl => hfull (hlink.1 hl)), ← ih h.2.2]
      rfl

/-- An empty link that stands in the list is no longer in what is left of the forest. -/
theorem Holds.notMem_dropEmptyLinks (h : t.Holds above F) (hnd : F.ids.Nodup) {x : NodeId}
    (hx : .node x ∈ F.children) (hlink : t.isEmptyLink (.node x) = true) :
    x ∉ F.dropEmptyLinks.ids := by
  induction F with
  | nil => simp [Forest.children] at hx
  | text s rest ih => exact ih h hnd (by simpa [Forest.children] using hx)
  | node id k below rest _ ih =>
    obtain ⟨-, hidr, -, hndr, hdisj⟩ := Forest.nodup_ids_node.1 hnd
    have hsub := (sublist_ids_dropEmptyLinks rest).subset
    simp only [Forest.children, List.mem_cons, Child.node.injEq] at hx
    simp only [Forest.dropEmptyLinks]
    rcases hx with rfl | hx
    · rw [if_pos (h.isEmptyLink.1 hlink)]
      exact fun hmem => hidr (hsub hmem)
    · have hrest := ih h.2.2 hndr hx
      have hxr := Forest.mem_ids_of_mem_children hx
      split
      · exact hrest
      · simp only [Forest.ids, List.mem_cons, List.mem_append, not_or]
        exact ⟨fun he => hidr (he ▸ hxr), fun hb => hdisj x hb hxr, hrest⟩

theorem realizes_removeEmptyLinks (n : NodeId) :
    Realizes n removeEmptyLinks fun _ F F' => F' = F.dropEmptyLinks := by
  intro t above id k F _ h hnd _
  obtain ⟨hid, -, hndF, -, -⟩ := Forest.nodup_ids_node.1 hnd
  obtain ⟨hset, hbecomes⟩ :=
    h.setChildren hnd (holds_dropEmptyLinks h.2.1) (sublist_ids_dropEmptyLinks F)
  have hgone : ∀ x, x ∈ (Forest.node id k F.dropEmptyLinks .nil).ids →
      .node x ∉ F.children.filter t.isEmptyLink := by
    intro x hx hmem
    obtain ⟨hmem, hlink⟩ := List.mem_filter.1 hmem
    simp only [Forest.ids, List.append_nil, List.mem_cons] at hx
    rcases hx with rfl | hx
    · exact hid (Forest.mem_ids_of_mem_children hmem)
    · exact h.2.1.notMem_dropEmptyLinks hndF hmem hlink hx
  have hkept : t.dropChildren t.isEmptyLink id =
      (t.setChildren id F.dropEmptyLinks.children).reparent
        (F.children.filter t.isEmptyLink) none := by
    simp only [dropChildren, h.children_eq, h.2.1.children_dropEmptyLinks]
  refine ⟨t.dropChildren t.isEmptyLink id, F.dropEmptyLinks, rfl, rfl, ?_, ?_⟩
  · rw [hkept]
    refine hset.of_node_eq (Nat.le_of_eq (size_reparent ..).symm) fun x hx => ?_
    exact node_reparent_of_notMem _ _ _ _ (hgone x hx)
  · rw [hkept]
    refine ⟨?_, hbecomes.nodup, hbecomes.mem_or_new, fun x hx hxF => ?_⟩
    · rw [size_reparent]
      exact hbecomes.size_le
    · rw [node_reparent_of_notMem, hbecomes.frame x hx hxF]
      intro hmem
      have := Forest.mem_ids_of_mem_children (List.mem_filter.1 hmem).1
      exact hxF (by simp [Forest.ids, this])

end Tree
end HtmlMarkdown.Document
