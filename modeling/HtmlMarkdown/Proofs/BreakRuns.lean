import HtmlMarkdown.Proofs.PassRuns

/-!
The pass that makes separators of line breaks. It is the only one that puts new nodes into the
table: as many as there are pairs of neighbouring breaks, with the next free numbers.
-/
namespace HtmlMarkdown.Document
namespace Tree

variable {t t' : Tree} {above : Option NodeId} {owner id fresh : NodeId} {k : Kind}
  {F F' : Forest}

/-! The separators that are put behind the other nodes. -/

theorem size_addSeparators (t : Tree) (m : Nat) : (t.addSeparators m).size = t.size + m := by
  induction m generalizing t with
  | zero => rfl
  | succ m ih =>
    rw [addSeparators, ih, size_add]
    omega

theorem lt_size_addSeparators (hid : id < t.size) (m : Nat) : id < (t.addSeparators m).size := by
  rw [size_addSeparators]
  exact Nat.lt_add_right m hid

theorem node_addSeparators (t : Tree) (m x : Nat) :
    (t.addSeparators m).node x =
      if t.size ≤ x ∧ x < t.size + m then { kind := .separator } else t.node x := by
  induction m generalizing t with
  | zero =>
    rw [addSeparators, if_neg (by omega)]
  | succ m ih =>
    rw [addSeparators, ih, size_add, node_add]
    by_cases h : x = t.size
    · simp [h]
    · by_cases h₁ : t.size ≤ x ∧ x < t.size + (m + 1)
      · rw [if_pos (by omega), if_pos h₁]
      · rw [if_neg (by omega), if_neg h, if_neg h₁]

/-! The list after the pass. -/

theorem Holds.isNamed (h : t.Holds above (.node id k F F')) :
    t.isNamed (.node id) .lineBreak = true ↔ k = .lineBreak := by
  simp only [Tree.isNamed, h.name_eq, beq_iff_eq, Kind.eq_lineBreak_iff]

theorem pairBreaks_cons_of_not {isBreak : Child → Bool} {c : Child} (hc : isBreak c = false)
    (fresh : NodeId) (rest : List Child) :
    Document.Tree.pairBreaks isBreak fresh (c :: rest) =
      c :: Document.Tree.pairBreaks isBreak fresh rest := by
  cases rest <;> simp [Document.Tree.pairBreaks, hc]

theorem Holds.children_pairBreaks (h : t.Holds above F) (fresh : NodeId) :
    (F.pairBreaks fresh).children =
      Document.Tree.pairBreaks (fun child => t.isNamed child .lineBreak) fresh F.children := by
  fun_induction Forest.pairBreaks fresh F with
  | case1 => rfl
  | case2 fresh s rest ih =>
    simp only [Forest.children]
    rw [pairBreaks_cons_of_not rfl, ih h]
  | case3 fresh i F j G rest ih =>
    have hi := h.isNamed.2 rfl
    have hj := h.2.2.isNamed.2 rfl
    simp only [Forest.children, Document.Tree.pairBreaks, hi, hj, ih h.2.2.2.2]
    rfl
  | case4 fresh i F rest hrest ih =>
    have hi := h.isNamed.2 rfl
    rw [ih h.2.2]
    cases rest with
    | nil => simp [Forest.children, Document.Tree.pairBreaks, hi]
    | text s rest =>
      have hs : t.isNamed (.text s) .lineBreak = false := rfl
      simp [Forest.children, Document.Tree.pairBreaks, hi, hs]
    | node j k G rest =>
      have hj : t.isNamed (.node j) .lineBreak = false := by
        rw [Bool.eq_false_iff, Ne, h.2.2.isNamed]
        rintro rfl
        exact hrest j G rest rfl
      simp [Forest.children, Document.Tree.pairBreaks, hi, hj]
  | case5 fresh id k below rest _ hk ih =>
    have hid : t.isNamed (.node id) .lineBreak = false := by
      rw [Bool.eq_false_iff, Ne, h.isNamed]
      exact fun he => hk he
    simp only [Forest.children]
    rw [pairBreaks_cons_of_not hid, ih h.2.2]

/-! The nodes of the list after the pass. -/

theorem mem_or_new_of_mem_pairBreaks (fresh : NodeId) (F : Forest) :
    ∀ x ∈ (F.pairBreaks fresh).ids,
      x ∈ F.ids ∨ fresh ≤ x ∧ .node x ∈ (F.pairBreaks fresh).children := by
  fun_induction Forest.pairBreaks fresh F with
  | case1 => simp [Forest.ids]
  | case2 fresh s rest ih =>
    intro x hx
    exact (ih x hx).imp_right fun hnew => ⟨hnew.1, List.mem_cons_of_mem _ hnew.2⟩
  | case3 fresh i F j G rest ih =>
    intro x hx
    simp only [Forest.ids, List.nil_append, List.mem_cons, List.mem_append] at hx ⊢
    rcases hx with rfl | hx
    · exact Or.inr ⟨Nat.le_refl _, List.mem_cons_self ..⟩
    · rcases ih x hx with hmem | hnew
      · exact Or.inl (Or.inr (Or.inr (Or.inr (Or.inr hmem))))
      · exact Or.inr ⟨Nat.le_of_succ_le hnew.1, List.mem_cons_of_mem _ hnew.2⟩
  | case4 fresh i F rest _ ih =>
    intro x hx
    simp only [Forest.ids, List.mem_cons, List.mem_append]
    exact (ih x hx).imp_left fun hmem => Or.inr (Or.inr hmem)
  | case5 fresh id k below rest _ _ ih =>
    intro x hx
    simp only [Forest.ids, List.mem_cons, List.mem_append] at hx ⊢
    rcases hx with rfl | hx | hx
    · exact Or.inl (Or.inl rfl)
    · exact Or.inl (Or.inr (Or.inl hx))
    · exact (ih x hx).imp (fun hmem => Or.inr (Or.inr hmem))
        fun hnew => ⟨hnew.1, List.mem_cons_of_mem _ hnew.2⟩

theorem notMem_pairBreaks_of_notMem {x : NodeId} (hx : x < fresh) (hxF : x ∉ F.ids) :
    x ∉ (F.pairBreaks fresh).ids := by
  intro hmem
  rcases mem_or_new_of_mem_pairBreaks fresh F x hmem with hmem | hnew
  · exact hxF hmem
  · exact Nat.not_lt.2 hnew.1 hx

theorem nodup_pairBreaks (fresh : NodeId) (F : Forest) (hnd : F.ids.Nodup)
    (hlt : ∀ x ∈ F.ids, x < fresh) : (F.pairBreaks fresh).ids.Nodup := by
  fun_induction Forest.pairBreaks fresh F with
  | case1 => exact hnd
  | case2 fresh s rest ih => exact ih hnd hlt
  | case3 fresh i F j G rest ih =>
    simp only [Forest.ids, List.mem_cons, List.mem_append] at hlt
    have hrest : ∀ x ∈ rest.ids, x < fresh := fun x hx =>
      hlt x (Or.inr (Or.inr (Or.inr (Or.inr hx))))
    have hndr := (Forest.nodup_ids_node.1 (Forest.nodup_ids_node.1 hnd).2.2.2.1).2.2.2.1
    simp only [Forest.ids, List.nil_append, List.nodup_cons]
    refine ⟨fun hmem => ?_, ih hndr fun x hx => Nat.lt_succ_of_lt (hrest x hx)⟩
    rcases mem_or_new_of_mem_pairBreaks (fresh + 1) rest fresh hmem with hmem | hnew
    · exact Nat.lt_irrefl _ (hrest fresh hmem)
    · exact Nat.lt_irrefl _ hnew.1
  | case4 fresh i F rest _ ih =>
    exact ih (Forest.nodup_ids_node.1 hnd).2.2.2.1 fun x hx => hlt x (by simp [Forest.ids, hx])
  | case5 fresh id k below rest _ _ ih =>
    obtain ⟨hidb, hidr, hndb, hndr, hdisj⟩ := Forest.nodup_ids_node.1 hnd
    simp only [Forest.ids, List.mem_cons, List.mem_append] at hlt
    exact Forest.nodup_ids_node.2 ⟨hidb, notMem_pairBreaks_of_notMem (hlt id (Or.inl rfl)) hidr,
      hndb, ih hndr fun x hx => hlt x (Or.inr (Or.inr hx)),
      fun x hx => notMem_pairBreaks_of_notMem (hlt x (Or.inr (Or.inl hx))) (hdisj x hx)⟩

/-- A line break that stands in the list is no longer in what is left of the forest. -/
theorem Holds.notMem_pairBreaks (h : t.Holds above F) (hnd : F.ids.Nodup)
    (hlt : ∀ x ∈ F.ids, x < fresh) {x : NodeId} (hx : .node x ∈ F.children)
    (hbreak : t.isNamed (.node x) .lineBreak = true) : x ∉ (F.pairBreaks fresh).ids := by
  have hxF := hlt x (Forest.mem_ids_of_mem_children hx)
  fun_induction Forest.pairBreaks fresh F with
  | case1 => simp [Forest.children] at hx
  | case2 fresh s rest ih => exact ih h hnd hlt (by simpa [Forest.children] using hx) hxF
  | case3 fresh i F j G rest ih =>
    obtain ⟨hiF, hi, -, hnd', -⟩ := Forest.nodup_ids_node.1 hnd
    obtain ⟨-, hj, -, hndr, -⟩ := Forest.nodup_ids_node.1 hnd'
    simp only [Forest.ids, List.mem_cons, List.mem_append, not_or] at hi hlt
    have hrest : ∀ y, y < fresh → y ∉ rest.ids → y ∉ (rest.pairBreaks (fresh + 1)).ids :=
      fun y hy => notMem_pairBreaks_of_notMem (Nat.lt_succ_of_lt hy)
    simp only [Forest.ids, List.nil_append, List.mem_cons, not_or]
    refine ⟨Nat.ne_of_lt hxF, ?_⟩
    simp only [Forest.children, List.mem_cons, Child.node.injEq] at hx
    rcases hx with rfl | rfl | hx
    · exact hrest x hxF hi.2.2
    · exact hrest x hxF hj
    · exact ih h.2.2.2.2 hndr
        (fun y hy => Nat.lt_succ_of_lt (hlt y (Or.inr (Or.inr (Or.inr (Or.inr hy)))))) hx
        (Nat.lt_succ_of_lt hxF)
  | case4 fresh i F rest _ ih =>
    obtain ⟨-, hi, -, hndr, -⟩ := Forest.nodup_ids_node.1 hnd
    simp only [Forest.children, List.mem_cons, Child.node.injEq] at hx
    rcases hx with rfl | hx
    · exact notMem_pairBreaks_of_notMem hxF hi
    · exact ih h.2.2 hndr (fun y hy => hlt y (by simp [Forest.ids, hy])) hx hxF
  | case5 fresh id k below rest _ hk ih =>
    obtain ⟨-, hidr, -, hndr, hdisj⟩ := Forest.nodup_ids_node.1 hnd
    simp only [Forest.children, List.mem_cons, Child.node.injEq] at hx
    rcases hx with rfl | hx
    · exact absurd (h.isNamed.1 hbreak) fun he => hk he
    · have hxr := Forest.mem_ids_of_mem_children hx
      simp only [Forest.ids, List.mem_cons, List.mem_append, not_or]
      exact ⟨fun he => hidr (he ▸ hxr), fun hb => hdisj x hb hxr,
        ih h.2.2 hndr (fun y hy => hlt y (by simp [Forest.ids, hy])) hx hxF⟩

/-- The new numbers in the list follow one another. -/
theorem filter_isFresh_pairBreaks (hF : ∀ x ∈ F.ids, x < t.size) (hfresh : t.size ≤ fresh) :
    ∃ m, (F.pairBreaks fresh).children.filter t.isFresh =
      (List.range' fresh m).map Child.node := by
  fun_induction Forest.pairBreaks fresh F with
  | case1 => exact ⟨0, rfl⟩
  | case2 fresh s rest ih => exact ih hF hfresh
  | case3 fresh i F j G rest ih =>
    obtain ⟨m, hm⟩ := ih (fun x hx => hF x (by simp [Forest.ids, hx])) (Nat.le_succ_of_le hfresh)
    refine ⟨m + 1, ?_⟩
    rw [Forest.children, List.filter_cons_of_pos (by simpa [isFresh] using hfresh), hm,
      List.range'_succ, List.map_cons]
  | case4 fresh i F rest _ ih =>
    exact ih (fun x hx => hF x (by simp [Forest.ids, hx])) hfresh
  | case5 fresh id k below rest _ _ ih =>
    obtain ⟨m, hm⟩ := ih (fun x hx => hF x (by simp [Forest.ids, hx])) hfresh
    have hid : id < t.size := hF id (by simp [Forest.ids])
    refine ⟨m, ?_⟩
    rw [Forest.children, List.filter_cons_of_neg (by simpa [isFresh] using hid), hm]

/-- A table holds the forest after the pass if it has all old nodes as they were and separators
at the new numbers. -/
theorem Holds.pairBreaks (h : t.Holds above F) (hsize : t.size ≤ t'.size) {low : NodeId}
    (hlow : ∀ x ∈ F.ids, x < low) (hfresh : low ≤ fresh)
    (hold : ∀ x ∈ (F.pairBreaks fresh).ids, x < low → t'.node x = t.node x)
    (hnew : ∀ x ∈ (F.pairBreaks fresh).ids, low ≤ x →
      x < t'.size ∧ t'.node x = ⟨.separator, [], above⟩) :
    t'.Holds above (F.pairBreaks fresh) := by
  fun_induction Forest.pairBreaks fresh F with
  | case1 => trivial
  | case2 fresh s rest ih => exact ih h hlow hfresh hold hnew
  | case3 fresh i F j G rest ih =>
    simp only [Forest.ids, List.nil_append, List.mem_cons, List.mem_append] at hold hnew hlow
    refine ⟨hnew fresh (Or.inl rfl) hfresh, trivial, ih h.2.2.2.2
      (fun x hx => hlow x (Or.inr (Or.inr (Or.inr (Or.inr hx))))) (Nat.le_succ_of_le hfresh)
      (fun x hx => hold x (Or.inr hx)) (fun x hx => hnew x (Or.inr hx))⟩
  | case4 fresh i F rest _ ih =>
    exact ih h.2.2 (fun x hx => hlow x (by simp [Forest.ids, hx])) hfresh hold hnew
  | case5 fresh id k below rest _ _ ih =>
    simp only [Forest.ids, List.mem_cons, List.mem_append] at hold hnew hlow
    refine ⟨⟨Nat.lt_of_lt_of_le h.1.1 hsize, ?_⟩, ?_, ?_⟩
    · rw [hold id (Or.inl rfl) (hlow id (Or.inl rfl)), h.1.2]
    · exact h.2.1.of_node_eq hsize fun x hx =>
        hold x (Or.inr (Or.inl hx)) (hlow x (Or.inr (Or.inl hx)))
    · exact ih h.2.2 (fun x hx => hlow x (Or.inr (Or.inr hx))) hfresh
        (fun x hx => hold x (Or.inr (Or.inr hx))) (fun x hx => hnew x (Or.inr (Or.inr hx)))

/-- The table after the pass: `m` separators are new, the breaks are detached. -/
def afterPairing (t : Tree) (owner : NodeId) (paired breaks : List Child) (m : Nat) : Tree :=
  (((t.addSeparators m).setChildren owner paired).reparent breaks none).reparent
    ((List.range' t.size m).map .node) (some owner)

section AfterPairing

variable {paired breaks : List Child} {m : Nat}

theorem size_afterPairing (t : Tree) (owner : NodeId) (paired breaks : List Child) (m : Nat) :
    (t.afterPairing owner paired breaks m).size = t.size + m := by
  simp only [afterPairing, size_reparent, size_setChildren, size_addSeparators]

/-- Neither a break nor a separator: nothing but the list of the owner has changed. -/
theorem node_afterPairing_of_lt (howner : owner < t.size) {x : Nat} (hx : x < t.size)
    (hxb : .node x ∉ breaks) : (t.afterPairing owner paired breaks m).node x =
      if x = owner then { t.node x with children := paired } else t.node x := by
  have hlt := lt_size_addSeparators howner m
  have hgrown : (t.addSeparators m).node x = t.node x := by
    rw [node_addSeparators, if_neg (by omega)]
  have hnew : .node x ∉ (List.range' t.size m).map Child.node := by
    simp only [List.mem_map, Child.node.injEq, exists_eq_right, List.mem_range'_1]
    omega
  rw [afterPairing, node_reparent_of_notMem _ _ _ _ hnew, node_reparent_of_notMem _ _ _ _ hxb,
    node_setChildren _ _ _ _ hlt, hgrown]

theorem node_afterPairing_of_new (howner : owner < t.size) {x : Nat} (hle : t.size ≤ x)
    (hx : x < t.size + m) (hxb : .node x ∉ breaks) :
    (t.afterPairing owner paired breaks m).node x = ⟨.separator, [], some owner⟩ := by
  have hlt := lt_size_addSeparators howner m
  have hne : x ≠ owner := fun he => Nat.not_lt.2 hle (he ▸ howner)
  have hnew : .node x ∈ (List.range' t.size m).map Child.node := by
    simp only [List.mem_map, Child.node.injEq, exists_eq_right, List.mem_range'_1]
    exact ⟨hle, hx⟩
  rw [afterPairing, node_reparent, if_pos ⟨hnew, by
      simpa only [size_reparent, size_setChildren, size_addSeparators] using hx⟩,
    node_reparent_of_notMem _ _ _ _ hxb, node_setChildren _ _ _ _ hlt, if_neg hne,
    node_addSeparators, if_pos ⟨hle, hx⟩]

theorem node_afterPairing_of_break (howner : owner < t.size) {x : Nat} (hx : x < t.size)
    (hne : x ≠ owner) (hxb : .node x ∈ breaks) :
    (t.afterPairing owner paired breaks m).node x = { t.node x with parent := none } := by
  have hlt := lt_size_addSeparators howner m
  have hgrown : x < t.size + m := Nat.lt_add_right m hx
  have hnew : .node x ∉ (List.range' t.size m).map Child.node := by
    simp only [List.mem_map, Child.node.injEq, exists_eq_right, List.mem_range'_1]
    omega
  rw [afterPairing, node_reparent_of_notMem _ _ _ _ hnew, node_reparent,
    if_pos ⟨hxb, by rwa [size_setChildren, size_addSeparators]⟩, node_setChildren _ _ _ _ hlt,
    if_neg hne, node_addSeparators, if_neg (by omega)]

end AfterPairing

theorem twoBreaksMakeOneSeparator_eq (h : t.Holds above (.node owner k F .nil))
    (hsep : k = .separator → F = .nil) {m : Nat}
    (hm : (F.pairBreaks t.size).children.filter t.isFresh =
      (List.range' t.size m).map Child.node) :
    twoBreaksMakeOneSeparator owner t = .ok () (t.afterPairing owner (F.pairBreaks t.size).children
      (F.children.filter fun child => t.isNamed child .lineBreak) m) := by
  simp only [twoBreaksMakeOneSeparator, h.children_eq, h.name_eq]
  rw [← h.2.1.children_pairBreaks, hm, List.length_map, List.length_range']
  split
  · rename_i hname hpair
    rw [hsep ((Kind.eq_separator_iff k).1 hname)] at hpair
    simp [Forest.children, firstPair?] at hpair
  · rfl

theorem realizes_twoBreaksMakeOneSeparator (n : NodeId) :
    Realizes n twoBreaksMakeOneSeparator fun _ F F' =>
      ∃ fresh, n ≤ fresh ∧ F' = F.pairBreaks fresh := by
  intro t above owner k F hn h hnd hsep
  obtain ⟨hown, -, hndF, -, -⟩ := Forest.nodup_ids_node.1 hnd
  have hlt := h.2.1.lt_size
  obtain ⟨m, hm⟩ := filter_isFresh_pairBreaks hlt (Nat.le_refl t.size)
  let breaks := F.children.filter fun child => t.isNamed child .lineBreak
  let t' := t.afterPairing owner (F.pairBreaks t.size).children breaks m
  have hsize : t'.size = t.size + m := size_afterPairing ..
  have hbreaks : ∀ x, .node x ∈ breaks → x ∈ F.ids ∧ x ∉ (F.pairBreaks t.size).ids := by
    intro x hx
    obtain ⟨hmem, hbreak⟩ := List.mem_filter.1 hx
    exact ⟨Forest.mem_ids_of_mem_children hmem, h.2.1.notMem_pairBreaks hndF hlt hmem hbreak⟩
  have hownb : .node owner ∉ breaks := fun hb => hown (hbreaks owner hb).1
  have hnew : ∀ x ∈ (F.pairBreaks t.size).ids, t.size ≤ x →
      x < t'.size ∧ t'.node x = ⟨.separator, [], some owner⟩ := by
    intro x hx hle
    have hxF : x ∉ F.ids := fun hmem => Nat.not_lt.2 hle (hlt x hmem)
    obtain ⟨-, hmem⟩ := (mem_or_new_of_mem_pairBreaks t.size F x hx).resolve_left hxF
    have hfilter := List.mem_filter.2 ⟨hmem, show t.isFresh (.node x) = true by
      simpa [isFresh] using hle⟩
    rw [hm] at hfilter
    have hx' : x < t.size + m := by
      simpa only [List.mem_map, Child.node.injEq, exists_eq_right, List.mem_range'_1, hle,
        true_and] using hfilter
    exact ⟨by rwa [hsize], node_afterPairing_of_new h.1.1 hle hx' fun hb => hxF (hbreaks x hb).1⟩
  refine ⟨t', F.pairBreaks t.size, twoBreaksMakeOneSeparator_eq h hsep hm, ⟨t.size, hn, rfl⟩,
    ⟨⟨?_, ?_⟩, ?_, trivial⟩, ?_⟩
  · rw [hsize]
    exact Nat.lt_add_right m h.1.1
  · rw [node_afterPairing_of_lt h.1.1 h.1.1 hownb, if_pos rfl, h.1.2]
  · refine h.2.1.pairBreaks (by rw [hsize]; exact Nat.le_add_right ..) hlt (Nat.le_refl _) ?_ hnew
    intro x hx hxt
    have hne : x ≠ owner := fun he => notMem_pairBreaks_of_notMem h.1.1 hown (he ▸ hx)
    rw [node_afterPairing_of_lt h.1.1 hxt fun hb => (hbreaks x hb).2 hx, if_neg hne]
  · refine ⟨by rw [hsize]; exact Nat.le_add_right .., ?_, ?_, ?_⟩
    · exact Forest.nodup_ids_node.2 ⟨notMem_pairBreaks_of_notMem h.1.1 hown, by simp [Forest.ids],
        nodup_pairBreaks t.size F hndF hlt, by simp [Forest.ids], by simp [Forest.ids]⟩
    · intro x hx
      simp only [Forest.ids, List.append_nil, List.mem_cons] at hx ⊢
      rcases hx with hx | hx
      · exact Or.inl (Or.inl hx)
      · exact (mem_or_new_of_mem_pairBreaks t.size F x hx).imp Or.inr And.left
    · intro x hx hxF
      simp only [Forest.ids, List.append_nil, List.mem_cons, not_or] at hxF
      rw [node_afterPairing_of_lt h.1.1 hx fun hb => hxF.2 (hbreaks x hb).1, if_neg hxF.1]

end Tree
end HtmlMarkdown.Document
