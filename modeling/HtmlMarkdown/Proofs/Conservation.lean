import HtmlMarkdown.Proofs.NormalForm
import HtmlMarkdown.Proofs.Survival

/-!
What normal form keeps of a document: the text, the nodes of lasting kinds, the order of all that
is left, and the place of each node that is left below the nearest node above it that is left too.
-/
namespace HtmlMarkdown.Document
namespace Tree

variable {n : NodeId} {t t' : Tree} {above : Option NodeId} {owner id near : NodeId}
  {F : Forest} {alive : NodeId → Bool}

/-- The root and all nodes below it in preorder. -/
def attached (t : Tree) : List NodeId := root :: t.forest.ids

/-- The nodes of lasting kinds that are below the root and not below a line break, in preorder. -/
def lasting (t : Tree) : List NodeId := (t.forest.lasting t.size).map Prod.fst

/-- Of the nodes above the given one, the nearest that satisfies `alive`. -/
def nearestAbove? (t : Tree) (alive : NodeId → Bool) (id : NodeId) : Option NodeId :=
  (t.lineage t.size id).tail.find? alive

/-! Rows of survivors, read in a table. -/

theorem lineage_of_parent (h : t.parent id = some owner) (m : Nat) :
    t.lineage (m + 1) id = id :: t.lineage m owner := by
  rw [lineage, h]

/-- The nearest survivor above a node of the forest is the first on the way up. The way from the
owner of the forest is long enough from `d` steps on. -/
theorem Holds.find?_lineage {d : Nat} (h : t.Holds (some owner) F)
    (hnear : ∀ m, d ≤ m → (t.lineage m owner).find? alive = some near) :
    ∀ row ∈ F.survivors alive near, ∀ m, d + F.depth ≤ m →
      (t.lineage m row.1).tail.find? alive = some row.2 := by
  induction F generalizing owner near d with
  | nil => simp [Forest.survivors]
  | text s rest ih => exact ih h hnear
  | node id k below rest ihb ihr =>
    have hparent : t.parent id = some owner := by rw [parent_eq, h.1.2]
    have hbelow : ∀ near', near' = (if alive id then id else near) →
        ∀ row ∈ below.survivors alive near', ∀ m, d + 1 + below.depth ≤ m →
          (t.lineage m row.1).tail.find? alive = some row.2 := by
      rintro near' rfl
      refine ihb h.2.1 fun m hm => ?_
      obtain ⟨m, rfl⟩ : ∃ m', m = m' + 1 := ⟨m - 1, by omega⟩
      rw [lineage_of_parent hparent, List.find?_cons]
      cases alive id with
      | true => rfl
      | false => exact hnear m (by omega)
    intro row hrow m hm
    simp only [Forest.depth] at hm
    simp only [Forest.survivors, List.mem_append] at hrow
    rcases hrow with hrow | hrow
    · split at hrow
      · rename_i hid
        rcases List.mem_cons.1 hrow with rfl | hrow
        · obtain ⟨m, rfl⟩ : ∃ m', m = m' + 1 := ⟨m - 1, by omega⟩
          rw [lineage_of_parent hparent]
          exact hnear m (by omega)
        · exact hbelow id (by rw [if_pos hid]) row hrow m (by omega)
      · rename_i hid
        exact hbelow near (by rw [if_neg hid]) row hrow m (by omega)
    · exact ihr h.2.2 hnear row hrow m (by omega)

/-- Where all old nodes survive and new nodes are separators, it is the parent. -/
theorem Holds.parent_of_survivors (h : t.Holds (some near) F) (hnew : F.NewSeparators n)
    (hold : ∀ x ∈ F.ids, x < n → alive x) :
    ∀ row ∈ F.survivors alive near, t.parent row.1 = some row.2 := by
  induction F generalizing near with
  | nil => simp [Forest.survivors]
  | text s rest ih => exact ih h hnew hold
  | node id k below rest ihb ihr =>
    simp only [Forest.ids, List.mem_cons, List.mem_append] at hold
    intro row hrow
    simp only [Forest.survivors, List.mem_append] at hrow
    rcases hrow with hrow | hrow
    · split at hrow
      · rcases List.mem_cons.1 hrow with rfl | hrow
        · rw [parent_eq, h.1.2]
        · exact ihb h.2.1 hnew.2.1 (fun x hx => hold x (Or.inr (Or.inl hx))) row hrow
      · rename_i hid
        have hle : n ≤ id := Nat.not_lt.1 fun hlt => hid (hold id (Or.inl rfl) hlt)
        rw [(hnew.1 hle).2] at hrow
        simp [Forest.survivors] at hrow
    · exact ihr h.2.2 hnew.2.2 (fun x hx => hold x (Or.inr (Or.inr hx))) row hrow

theorem Holds.kind_of_mem_lasting (h : t.Holds above F) :
    ∀ row ∈ F.lasting n, t.kind row.1 = row.2 := by
  induction F generalizing above with
  | nil => simp [Forest.lasting]
  | text s rest ih => exact ih h
  | node id k below rest ihb ihr =>
    intro row hrow
    simp only [Forest.lasting, List.mem_append] at hrow
    rcases hrow with (hrow | hrow) | hrow
    · split at hrow
      · obtain rfl := List.mem_singleton.1 hrow
        rw [kind_eq, h.1.2]
      · simp at hrow
    · split at hrow
      · simp at hrow
      · exact ihb h.2.1 row hrow
    · exact ihr h.2.2 row hrow

theorem Holds.name_of_new (h : t.Holds above F) (hnew : F.NewSeparators n) :
    ∀ x ∈ F.ids, n ≤ x → t.name x = .separator := by
  induction F generalizing above with
  | nil => simp [Forest.ids]
  | text s rest ih => exact ih h hnew
  | node id k below rest ihb ihr =>
    intro x hx hle
    simp only [Forest.ids, List.mem_cons, List.mem_append] at hx
    rcases hx with rfl | hx | hx
    · rw [h.name_eq, (hnew.1 hle).1]
      rfl
    · exact ihb h.2.1 hnew.2.1 x hx hle
    · exact ihr h.2.2 hnew.2.2 x hx hle

/-- The survivors of a run, with what is nearest above them, before and after. -/
theorem Spans.survivors_eq {F' : Forest} (hF : t.Spans F)
    (hrun : Forest.Rewrites t.size F F') :
    F'.survivors (fun x => x ∈ root :: F'.ids ∧ x < t.size) root =
      F.survivors (fun x => x ∈ root :: F'.ids) root := by
  obtain ⟨hroot, -, hnd, -, -⟩ := Forest.nodup_ids_node.1 hF.nodup
  have hlt := hF.holds.2.1.lt_size
  have hcongr : F.survivors (fun x => x ∈ root :: F'.ids) root =
      F.survivors (fun x => x ∈ root :: F'.ids ∧ x < t.size) root :=
    Forest.survivors_congr root fun x hx => by simp [hlt x hx]
  rw [hcongr]
  refine hrun.survivors (by simp) ?_ root
  rw [List.countP_eq_length_filter, List.countP_eq_length_filter]
  refine (List.subperm_of_subset (hnd.filter _) fun x hx => ?_).length_le
  obtain ⟨hx, halive⟩ := List.mem_filter.1 hx
  refine List.mem_filter.2 ⟨?_, halive⟩
  rcases List.mem_cons.1 (of_decide_eq_true halive).1 with rfl | hx'
  · exact absurd hx hroot
  · exact hx'

theorem Spans.parent_eq_nearestAbove {F' : Forest} (hF : t.Spans F) (hF' : t'.Spans F')
    (hrun : Forest.Rewrites t.size F F') (hx : id ∈ F.ids) (hx' : id ∈ root :: F'.ids) :
    t'.parent id = t.nearestAbove? (fun above => above ∈ root :: F'.ids) id := by
  have hrows := hF.survivors_eq hrun
  have hmem : id ∈ (F.survivors (fun x => x ∈ root :: F'.ids) root).map Prod.fst := by
    rw [Forest.map_fst_survivors]
    exact List.mem_filter.2 ⟨hx, decide_eq_true hx'⟩
  obtain ⟨row, hrow, rfl⟩ := List.mem_map.1 hmem
  have hroot : ∀ m, 1 ≤ m →
      (t.lineage m root).find? (fun x => x ∈ root :: F'.ids) = some root := by
    intro m hm
    obtain ⟨m, rfl⟩ : ∃ m', m = m' + 1 := ⟨m - 1, by omega⟩
    simp [lineage]
  have hdepth := hF.depth_lt
  rw [nearestAbove?, hF.holds.2.1.find?_lineage hroot row hrow t.size (by omega)]
  have hnew := hrun.newSeparators (Forest.newSeparators_of_lt hF.holds.2.1.lt_size)
  rw [← hrows] at hrow
  refine hF'.holds.2.1.parent_of_survivors hnew (fun x hx hlt => ?_) row hrow
  exact decide_eq_true ⟨List.mem_cons_of_mem _ hx, hlt⟩

theorem Spans.order_eq {F' : Forest} (hF : t.Spans F)
    (hrun : Forest.Rewrites t.size F F') :
    ((root :: F.ids).filter fun x => x ∈ root :: F'.ids) =
      (root :: F'.ids).filter fun x => x < t.size := by
  have hrows := congrArg (List.map Prod.fst) (hF.survivors_eq hrun)
  rw [Forest.map_fst_survivors, Forest.map_fst_survivors] at hrows
  rw [List.filter_cons_of_pos (by simp), List.filter_cons_of_pos (by simpa using hF.holds.1.1),
    ← hrows]
  refine congrArg (root :: ·) (List.filter_congr fun x hx => ?_)
  simp [hx]

/-! The laws together. -/

/-- What a tree in normal form has kept of the tree that it has been. -/
structure Conserves (t t' : Tree) : Prop where
  /-- The text is that outside line breaks, with its dashes spelled. -/
  text_eq : t'.forest.wholeText = spellDashes t.forest.shownText
  nodup : t'.attached.Nodup
  /-- The lasting nodes are all there, in their order. -/
  lasting_sublist : t.lasting.Sublist t'.attached
  kind_becomes : ∀ id ∈ t.lasting, (t.kind id).Becomes (t'.kind id)
  /-- All nodes that are left stand in the order in which they stood. -/
  order_eq : (t.attached.filter fun id => id ∈ t'.attached) =
    t'.attached.filter fun id => id < t.size
  parent_eq : ∀ id ∈ t.forest.ids, id ∈ t'.attached →
    t'.parent id = t.nearestAbove? (fun above => above ∈ t'.attached) id
  name_of_new : ∀ id ∈ t'.attached, id ∉ t.attached → t'.name id = .separator

/-- Bringing a well-formed tree into normal form conserves it. -/
theorem normalize_conserves (h : t.WellFormed) (withoutLinks : Bool) :
    ∃ t', normalize withoutLinks t = .ok () t' ∧ t'.WellFormed ∧ t.Conserves t' := by
  have hF := h.spans_forest
  obtain ⟨t', F', hrun, -, hvisit, hF', hbecomes⟩ := normalize_runs hF withoutLinks
  obtain ⟨G, hG, hrewrites⟩ := hvisit.rewrites_steps.below_document
  obtain rfl : F' = G := by simpa using hG
  have hlasting := hrewrites.lasting
  have hnew := hrewrites.newSeparators (Forest.newSeparators_of_lt hF.holds.2.1.lt_size)
  refine ⟨t', hrun, hF'.wellFormed, ?_, ?_, ?_, ?_, ?_, ?_, ?_⟩
  all_goals simp only [attached, lasting, hF'.forest_eq]
  · have hbreak := (hvisit.noLineBreak (by simp [Forest.topKinds])).2.1
    have hdash := (hvisit.noDash (by simp [Forest.children])).1
    rw [Forest.wholeText_eq_shownText hbreak, ← hrewrites.spellDashes_shownText,
      (Forest.noDash_shownText hdash).spellDashes_eq]
  · simpa [Forest.ids] using hF'.nodup
  · rw [← Forest.map_fst_of_sameNode hlasting]
    exact (Forest.lasting_sublist _ F').cons root
  · intro id hid
    obtain ⟨row, hrow, rfl⟩ := List.mem_map.1 hid
    obtain ⟨row', hrow', hsame, hkind⟩ := Forest.exists_sameNode hlasting hrow
    rw [hF.holds.2.1.kind_of_mem_lasting row hrow, ← hsame,
      hF'.holds.2.1.kind_of_mem_lasting row' hrow']
    exact hkind
  · exact hF.order_eq hrewrites
  · exact fun id hid hid' => hF.parent_eq_nearestAbove hF' hrewrites hid hid'
  · intro id hid hold
    simp only [List.mem_cons, not_or] at hid hold
    have hmem := hid.resolve_left hold.1
    have hle := (hbecomes.mem_or_new id (by simp [Forest.ids, hmem])).resolve_left
      (by simp [Forest.ids, hold.1, hold.2])
    exact hF'.holds.2.1.name_of_new hnew id hmem hle

theorem normalize_conserves_mixed : mixed.WellFormed ∧
    ∃ t', normalize false mixed = .ok () t' ∧ t'.WellFormed ∧ mixed.Conserves t' :=
  ⟨mixed_wellFormed, normalize_conserves mixed_wellFormed false⟩

end Tree
end HtmlMarkdown.Document
