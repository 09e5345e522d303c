import HtmlMarkdown.Proofs.Condensed
import HtmlMarkdown.Proofs.Normalize
import Mathlib.Algebra.Group.Nat.Defs

/-!
Numbering the lists of a whole tree. The walk meets some lists inside items and others among the
children of lists that have just been dissolved, and items come to stand in the list of a node
further up. In the end, each item has the number of its place in the list that it stood in, and
each list has been replaced by what its own children have become.
-/
namespace HtmlMarkdown.Document

namespace Forest

variable {F G : Forest}

/-- The forest when the walk is over: no ordered list is left at any depth. If the forest stands in
such a list itself, `next` is the number of its next item. -/
def numbered : (next : Option Nat) → Forest → Forest
  | _, nil => nil
  | next, text s rest => text s (numbered next rest)
  | next, node id k below rest =>
    if k.name = .orderedList then numbered (some 1) below ++ numbered next rest
    else if k = .listItem then
      node id (next.elim .listItem .numberedItem) (numbered none below)
        (numbered (next.map (· + 1)) rest)
    else node id k (numbered none below) (numbered next rest)

/-- What lies below each node of the top level, changed by `f`. -/
def mapBelow (f : Forest → Forest) : Forest → Forest
  | nil => nil
  | text s rest => text s (mapBelow f rest)
  | node id k below rest => node id k (f below) (mapBelow f rest)

theorem mapBelow_append (f : Forest → Forest) (F G : Forest) :
    (F ++ G).mapBelow f = F.mapBelow f ++ G.mapBelow f := by
  induction F with
  | nil => rfl
  | text s rest ih => simp only [text_append, mapBelow, ih]
  | node id k below rest _ ih => simp only [node_append, mapBelow, ih]

/-- The lists of one level first, and then those below what is left of it. -/
theorem mapBelow_unlisted (next : Option Nat) (F : Forest) :
    (F.unlisted next).mapBelow (numbered none) = F.numbered next := by
  induction F generalizing next with
  | nil => rfl
  | text s rest ih => simp only [unlisted, numbered, mapBelow, ih]
  | node id k below rest ihb ihr =>
    rw [unlisted, numbered]
    split
    · rw [mapBelow_append, ihb, ihr]
    · split <;> simp only [mapBelow, ihr]

theorem Visited.eq_mapBelow (h : Visited NumbersLists F G) : G = F.mapBelow (numbered none) := by
  induction h with
  | nil => rfl
  | text s _ ih => rw [mapBelow, ih]
  | @node below mid below' rest rest' id k hstep _ _ ihb ihr =>
    obtain rfl : mid = below.unlisted none := Dissolved.eq_unlisted hstep
    rw [mapBelow, ihr, ihb, mapBelow_unlisted]

end Forest

namespace Tree

variable {t t' : Tree} {above above' : Option NodeId} {F : Forest} {next : Option Nat}
  {id item : NodeId}

/-! The walk. -/

/-- Besides its step, a walk that numbers lists leaves the lists detached and empty. -/
theorem Walks.vacates {cs : List Child} (h : Walks numberLists cs t t') (hF : F.children = cs)
    (hholds : t.Holds above F) (hnd : F.ids.Nodup) (hsep : F.SeparatorsChildless) :
    ∃ F', F.Visited Forest.NumbersLists F' ∧ t'.Holds above F' ∧ Becomes t F t' F' ∧
      Vacates .orderedList t F t' F' := by
  induction h generalizing F above with
  | nil t =>
    obtain rfl := Forest.eq_nil_of_children_eq_nil hF
    exact ⟨.nil, .nil, trivial, Becomes.refl t hnd, .of_ids_eq rfl rfl⟩
  | text s _ ih =>
    cases F with
    | nil | node => simp [Forest.children] at hF
    | text u rest =>
      obtain ⟨rfl, hrest⟩ : u = s ∧ rest.children = _ := by simpa [Forest.children] using hF
      obtain ⟨F', hvisit, hholds', hbecomes, hvacates⟩ := ih hrest hholds hnd hsep
      exact ⟨.text u F', hvisit.text u, hholds',
        ⟨hbecomes.size_le, hbecomes.nodup, hbecomes.mem_or_new, hbecomes.frame⟩,
        hvacates.size_eq, hvacates.gone⟩
  | @node cs t t₁ t₂ t₃ id hrun _ _ ihb ihr =>
    cases F with
    | nil | text => simp [Forest.children] at hF
    | node x k below rest =>
      obtain ⟨rfl, hrest⟩ : x = id ∧ rest.children = cs := by simpa [Forest.children] using hF
      obtain ⟨hidb, hidr, hndb, hndr, hdisj⟩ := Forest.nodup_ids_node.1 hnd
      have hone : (Forest.node x k below .nil).ids.Nodup := by
        simpa [Forest.ids] using ⟨hidb, hndb⟩
      -- the node by itself
      obtain ⟨t₁', mid, hpass, hstep, hmid, hbecomes₁, hvacates₁⟩ :=
        Holds.numberLists ⟨hholds.1, hholds.2.1, trivial⟩ hone hsep.1
      obtain rfl : t₁' = t₁ := by
        rw [hrun] at hpass
        cases hpass
        rfl
      have hstep' : Forest.NumbersLists k below mid := hstep
      have hrewrites : Forest.Rewrites 0 below mid := hstep'.rewrites
      obtain ⟨-, -, hndm, -, -⟩ := Forest.nodup_ids_node.1 hbecomes₁.nodup
      -- what is below it then
      obtain ⟨below', hvisit, hbelow, hbecomes₂, hvacates₂⟩ :=
        ihb hmid.children_eq.symm hmid.2.1 hndm (hrewrites.separatorsChildless hsep.2.1)
      obtain ⟨hfirst, hinside⟩ :=
        Becomes.inside hmid hbecomes₁.nodup hbelow hbecomes₂ hvisit.children_eq
      have hfirstB := hbecomes₁.trans hinside
      -- and what stands behind it
      have hapart : ∀ y ∈ rest.ids, y ∉ (Forest.node x k below .nil).ids := by
        intro y hy hmem
        simp only [Forest.ids, List.append_nil, List.mem_cons] at hmem
        rcases hmem with rfl | hmem
        · exact hidr hy
        · exact hdisj y hmem hy
      obtain ⟨rest', hvisit', hrest', hbecomes₃, hvacates₃⟩ :=
        ihr hrest (hfirstB.holds hholds.2.2 hapart) hndr hsep.2.2
      obtain ⟨hall, hallB⟩ := Becomes.siblings hholds hnd hfirst hfirstB hrest' hbecomes₃
      refine ⟨.node x k below' rest', .node x k hstep hvisit hvisit', hall, hallB, ?_⟩
      have hat : Vacates .orderedList t (.node x k below rest) t₁' (.node x k mid rest) :=
        hvacates₁.within (X := []) (Y := rest.ids) (by simp [Forest.ids]) (by simp [Forest.ids])
      have hin : Vacates .orderedList t₁' (.node x k mid rest) t₂ (.node x k below' rest) :=
        hvacates₂.within (X := [x]) (Y := rest.ids) (by simp [Forest.ids]) (by simp [Forest.ids])
      have hbehind : Vacates .orderedList t₂ (.node x k below' rest) t₃ (.node x k below' rest') :=
        hvacates₃.within (X := x :: below'.ids) (Y := []) (by simp [Forest.ids])
          (by simp [Forest.ids])
      refine (hat.trans hin (fun y hy hnot => ?_) hholds.lt_size).trans hbehind
        (fun y hy hnot => ?_) hholds.lt_size
      · exact hbecomes₂.frame y hy fun hmem => hnot (by simp [Forest.ids, hmem])
      · exact hbecomes₃.frame y hy fun hmem => hnot (by simp [Forest.ids, hmem])

/-! The nodes of a numbered forest. -/

/-- What becomes of a list of children when each ordered list in it, and in what takes its place,
gives its place to its own children. -/
inductive Spliced (t : Tree) : List Child → List Child → Prop
  | nil : Spliced t [] []
  | text {cs cs' : List Child} (s : String) (h : Spliced t cs cs') :
      Spliced t (.text s :: cs) (.text s :: cs')
  | keep {cs cs' : List Child} (id : NodeId) (hname : t.name id ≠ .orderedList)
      (h : Spliced t cs cs') : Spliced t (.node id :: cs) (.node id :: cs')
  | list {cs cs' inner : List Child} (id : NodeId) (hname : t.name id = .orderedList)
      (hinner : Spliced t (t.children id) inner) (h : Spliced t cs cs') :
      Spliced t (.node id :: cs) (inner ++ cs')

theorem Holds.spliced (h : t.Holds above F) (next : Option Nat) :
    t.Spliced F.children (F.numbered next).children := by
  induction F generalizing above next with
  | nil => exact .nil
  | text s rest ih => exact (ih h next).text s
  | node id k below rest ihb ihr =>
    have hname := h.name_eq
    rw [Forest.numbered]
    split
    · rename_i hk
      have hbelow := ihb h.2.1 (some 1)
      rw [← h.children_eq] at hbelow
      rw [Forest.children_append]
      exact .list id (hname.trans hk) hbelow (ihr h.2.2 next)
    · rename_i hk
      split <;> exact .keep id (hname.trans_ne hk) (ihr h.2.2 _)

theorem Holds.mem_ids_numbered (h : t.Holds above F) (next : Option Nat) :
    id ∈ (F.numbered next).ids ↔ id ∈ F.ids ∧ t.name id ≠ .orderedList := by
  induction F generalizing above next with
  | nil => simp [Forest.numbered, Forest.ids]
  | text s rest ih => exact ih h next
  | node x k below rest ihb ihr =>
    have hname := h.name_eq
    rw [Forest.numbered]
    split
    · rename_i hk
      rw [Forest.ids_append, List.mem_append, ihb h.2.1, ihr h.2.2, Forest.ids, List.mem_cons,
        List.mem_append]
      have hx : id = x → t.name id = .orderedList := fun he => he ▸ hname.trans hk
      tauto
    · rename_i hk
      have hx : id = x → t.name id ≠ .orderedList := fun he => he ▸ hname.trans_ne hk
      split <;>
        (simp only [Forest.ids, List.mem_cons, List.mem_append, ihb h.2.1, ihr h.2.2]; tauto)

/-- What becomes of the list of one of the nodes. -/
theorem Holds.exists_numbered_branch (h : t.Holds above F) (h' : t'.Holds above' (F.numbered next))
    (hid : id ∈ F.ids) :
    ∃ D, t.Holds (some id) D ∧ t.children id = D.children ∧
      (t.name id ≠ .orderedList → t'.children id = (D.numbered none).children) ∧
      ∃ above₁, t'.Holds above₁ (D.numbered (if t.name id = .orderedList then some 1 else none)) := by
  induction F generalizing above above' next with
  | nil => simp [Forest.ids] at hid
  | text s rest ih => exact ih h h' hid
  | node x k below rest ihb ihr =>
    have hname := h.name_eq
    rw [Forest.ids, List.mem_cons, List.mem_append] at hid
    rw [Forest.numbered] at h'
    split at h'
    · rename_i hk
      obtain ⟨hb', hr'⟩ := holds_append.1 h'
      rcases hid with rfl | hid | hid
      · refine ⟨below, h.2.1, h.children_eq, fun hne => absurd (hname.trans hk) hne, above', ?_⟩
        rwa [if_pos (hname.trans hk)]
      · exact ihb h.2.1 hb' hid
      · exact ihr h.2.2 hr' hid
    · rename_i hk
      have hkeep : ∀ {k' more}, t'.Holds above' (.node x k' (below.numbered none) more) → id = x →
          ∃ D, t.Holds (some id) D ∧ t.children id = D.children ∧
            (t.name id ≠ .orderedList → t'.children id = (D.numbered none).children) ∧
            ∃ above₁, t'.Holds above₁
              (D.numbered (if t.name id = .orderedList then some 1 else none)) := by
        rintro k' more hx rfl
        refine ⟨below, h.2.1, h.children_eq, fun _ => hx.children_eq, some id, ?_⟩
        rw [if_neg (hname.trans_ne hk)]
        exact hx.2.1
      split at h' <;> rcases hid with hid | hid | hid
      · exact hkeep h' hid
      · exact ihb h.2.1 h'.2.1 hid
      · exact ihr h.2.2 h'.2.2 hid
      · exact hkeep h' hid
      · exact ihb h.2.1 h'.2.1 hid
      · exact ihr h.2.2 h'.2.2 hid

/-- An item of a list has the number of its place among the items. -/
theorem Holds.kind_of_item {i : Nat} (h : t.Holds above F)
    (h' : t'.Holds above' (F.numbered (some i))) {X Y : List Child}
    (hF : F.children = X ++ .node item :: Y) (hitem : t.kind item = .listItem) :
    t'.kind item = .numberedItem (i + X.countP (t.isNamed · .listItem)) := by
  induction F generalizing i X with
  | nil => simp [Forest.children] at hF
  | text s rest ih =>
    cases X with
    | nil => simp [Forest.children] at hF
    | cons c X =>
      obtain ⟨rfl, hrest⟩ : c = .text s ∧ rest.children = X ++ .node item :: Y := by
        simpa [Forest.children, eq_comm] using hF
      rw [List.countP_cons_of_neg (by simp [Tree.isNamed])]
      exact ih h h' hrest
  | node x k below rest _ ih =>
    have hname := h.name_eq
    have hkind : t.kind x = k := by rw [kind_eq, h.1.2]
    rw [Forest.numbered] at h'
    cases X with
    | nil =>
      obtain ⟨rfl, -⟩ : x = item ∧ rest.children = Y := by simpa [Forest.children] using hF
      obtain rfl : k = .listItem := hkind.symm.trans hitem
      rw [if_neg (by simp [Kind.name]), if_pos rfl] at h'
      rw [kind_eq, h'.1.2]
      rfl
    | cons c X =>
      obtain ⟨rfl, hrest⟩ : c = .node x ∧ rest.children = X ++ .node item :: Y := by
        simpa [Forest.children, eq_comm] using hF
      have hnamed : t.isNamed (.node x) .listItem = true ↔ k = .listItem := by
        simp [Tree.isNamed, hname, Kind.eq_listItem_iff]
      by_cases hk : k = .listItem
      · rw [if_neg (by simp [hk, Kind.name]), if_pos hk] at h'
        have hmore := ih h.2.2 (i := i + 1) h'.2.2 hrest
        rw [hmore, List.countP_cons_of_pos (p := (t.isNamed · .listItem)) (hnamed.2 hk)]
        congr 1
        omega
      · rw [List.countP_cons_of_neg (p := (t.isNamed · .listItem)) (mt hnamed.1 hk)]
        split at h'
        · exact ih h.2.2 (holds_append.1 h').2 hrest
        · exact ih h.2.2 h'.2.2 hrest

/-- No other node of the list gets another kind. -/
theorem Holds.kind_of_other (h : t.Holds above F) (h' : t'.Holds above' (F.numbered next))
    (hid : .node id ∈ F.children) (hname : t.name id ≠ .orderedList)
    (hother : next = none ∨ t.kind id ≠ .listItem) : t'.kind id = t.kind id := by
  induction F generalizing next with
  | nil => simp [Forest.children] at hid
  | text s rest ih => exact ih h h' (by simpa [Forest.children] using hid) hother
  | node x k below rest _ ih =>
    have hkind : t.kind x = k := by rw [kind_eq, h.1.2]
    rw [Forest.children, List.mem_cons, Child.node.injEq] at hid
    rw [Forest.numbered] at h'
    split at h'
    · rename_i hk
      refine ih h.2.2 (holds_append.1 h').2 (hid.resolve_left ?_) hother
      rintro rfl
      exact hname (h.name_eq.trans hk)
    · split at h'
      · rename_i hk
        rcases hid with rfl | hid
        · obtain rfl := hother.resolve_right fun hne => hne (hkind.trans hk)
          rw [kind_eq, h'.1.2, hkind, hk]
          rfl
        · refine ih h.2.2 h'.2.2 hid (hother.imp_left ?_)
          rintro rfl
          rfl
      · rcases hid with rfl | hid
        · rw [kind_eq, h'.1.2, hkind]
        · exact ih h.2.2 h'.2.2 hid hother

/-! Trees. -/

/-- What becomes of a tree when all its ordered lists are numbered and dissolved. -/
structure NumbersAll (t t' : Tree) : Prop where
  size_eq : t'.size = t.size
  /-- An item has the number of its place among the items of its list. A counter with 32 bits has
  room for it and for the next number if the list has fewer than `2 ^ 32 - 1` items. -/
  item : ∀ list item X Y, t.Attached list → t.name list = .orderedList →
    t.children list = X ++ .node item :: Y → t.kind item = .listItem →
    t'.kind item = .numberedItem (X.countP (t.isNamed · .listItem) + 1) ∧
      ((t.children list).countP (t.isNamed · .listItem) < 2 ^ 32 - 1 →
        X.countP (t.isNamed · .listItem) + 1 + 1 < 2 ^ 32)
  kind_eq : ∀ id, (∀ list, t.Attached list → t.name list = .orderedList → t.Lists list id →
    t.kind id ≠ .listItem) → t'.kind id = t.kind id
  spliced : ∀ id, t.Attached id → t.name id ≠ .orderedList →
    t'.Attached id ∧ t.Spliced (t.children id) (t'.children id)
  list : ∀ id, t.Attached id → t.name id = .orderedList →
    ¬ t'.Attached id ∧ t'.children id = [] ∧ t'.parent id = none
  untouched : ∀ id, ¬ t.Attached id → t'.node id = t.node id

/-- There are at least as many items in the list as stand up to one of them. -/
theorem countP_lt_of_item {list : NodeId} {X Y : List Child}
    (hlist : t.children list = X ++ .node item :: Y) (hitem : t.kind item = .listItem) :
    X.countP (t.isNamed · .listItem) < (t.children list).countP (t.isNamed · .listItem) := by
  rw [hlist, List.countP_append, List.countP_cons_of_pos (by simp [isNamed, name, hitem, Kind.name])]
  omega

theorem Spans.numbersAll (h : t.Spans F) (h' : t'.Spans (F.numbered none))
    (hframe : ∀ x, x < t.size → x ∉ (Forest.node root .document F .nil).ids → t'.node x = t.node x)
    (hvacates : Vacates .orderedList t (.node root .document F .nil) t'
      (.node root .document (F.numbered none) .nil)) : t.NumbersAll t' := by
  have hnumbered : t'.Holds (t'.parent root)
      ((Forest.node root .document F .nil).numbered none) := h'.holds
  have hattached : ∀ {id}, t'.Attached id ↔ t.Attached id ∧ t.name id ≠ .orderedList := by
    intro id
    rw [h.attached_iff, h'.attached_iff]
    exact h.holds.mem_ids_numbered none
  have hbranch := fun {id : NodeId} (hid : t.Attached id) =>
    h.holds.exists_numbered_branch hnumbered (h.attached_iff.1 hid)
  have hgone := fun {id : NodeId} (hid : t.Attached id) (hname : t.name id = .orderedList) =>
    hvacates.gone id (h.attached_iff.1 hid) fun hmem =>
      (hattached.1 (h'.attached_iff.2 hmem)).2 hname
  have huntouched : ∀ id, ¬ t.Attached id → t'.node id = t.node id := by
    intro id hid
    by_cases hlt : id < t.size
    · exact hframe id hlt fun hmem => hid (h.attached_iff.2 hmem)
    · have hlt' : ¬ id < t'.size := hvacates.size_eq ▸ hlt
      rw [node_of_not_lt hlt, node_of_not_lt hlt']
  constructor
  case size_eq => exact hvacates.size_eq
  case item =>
    intro list item X Y hlist hname hchildren hitem
    obtain ⟨D, hD, hlisted, -, above₁, hD'⟩ := hbranch hlist
    rw [if_pos hname] at hD'
    have hlt := countP_lt_of_item hchildren hitem
    rw [hD.kind_of_item hD' (hlisted.symm.trans hchildren) hitem, Nat.add_comm 1]
    exact ⟨rfl, fun hfew => by omega⟩
  case kind_eq =>
    intro id hother
    by_cases hid : t.Attached id
    · by_cases hname : t.name id = .orderedList
      · have hname' := (hgone hid hname).1
        rw [name, Kind.eq_orderedList_iff] at hname hname'
        rw [hname, hname']
      · rcases Relation.ReflTransGen.cases_tail hid with rfl | ⟨owner, howner, hlists⟩
        · rw [h.wellFormed.root_kind, h'.wellFormed.root_kind]
        · obtain ⟨D, hD, hlisted, -, above₁, hD'⟩ := hbranch howner
          refine hD.kind_of_other hD' (hlisted ▸ hlists) hname ?_
          by_cases howner' : t.name owner = .orderedList
          · exact Or.inr (hother owner howner howner' hlists)
          · exact Or.inl (if_neg howner')
    · rw [Tree.kind_eq, Tree.kind_eq, huntouched id hid]
  case spliced =>
    intro id hid hname
    obtain ⟨D, hD, hlisted, hkept, -⟩ := hbranch hid
    refine ⟨hattached.2 ⟨hid, hname⟩, ?_⟩
    rw [hlisted, hkept hname]
    exact hD.spliced none
  case list =>
    intro id hid hname
    exact ⟨fun hid' => (hattached.1 hid').2 hname, (hgone hid hname).2⟩
  case untouched => exact huntouched

/-- In a well-formed tree, all ordered lists are numbered and dissolved. The walk ends by itself.
Each item of a list gets the number of its place among the items of that list, which the counter
can hold; all other nodes keep their kinds, and what cannot be reached from the root does not change
at all. The list of each node becomes what it was with the ordered lists, also those that stand
directly in others, replaced by their own children in order. -/
theorem visit_numberLists (h : t.WellFormed) :
    ∃ t', visit numberLists root t = .ok () t' ∧ Walks numberLists [.node root] t t' ∧
      t'.WellFormed ∧ t.NumbersAll t' := by
  obtain ⟨F, hF⟩ := h.exists_spans
  obtain ⟨t', F', hrun, hwalk, hvisit, hF', hbecomes⟩ :=
    visit_runs (realizes_numberLists 0) (fun k F F' (hstep : Forest.NumbersLists k F F') =>
      hstep.rewrites) (Nat.zero_le t.size) hF
  refine ⟨t', hrun, hwalk, hF'.wellFormed, ?_⟩
  have hsep : (Forest.node root .document F .nil).SeparatorsChildless :=
    ⟨by simp, hF.separators, trivial⟩
  obtain ⟨G, hvisit', -, -, hvacates⟩ := hwalk.vacates rfl hF.holds hF.nodup hsep
  obtain rfl : F' = F.numbered none := by simpa [Forest.mapBelow] using hvisit.eq_mapBelow
  obtain rfl : G = .node root .document (F.numbered none) .nil := hvisit'.eq_mapBelow
  exact hF.numbersAll hF' hbecomes.frame hvacates

/-- A list directly in another list, and one in an item, with a text between the items. -/
def nested : Tree :=
  ⟨#[{ kind := .document, children := [.node 1, .node 8] },
    { kind := .orderedList, children := [.node 2, .node 3, .text "a", .node 5], parent := some 0 },
    { kind := .listItem, children := [.text "b"], parent := some 1 },
    { kind := .orderedList, children := [.node 4], parent := some 1 },
    { kind := .listItem, children := [.text "c"], parent := some 3 },
    { kind := .listItem, children := [.node 6], parent := some 1 },
    { kind := .orderedList, children := [.node 7], parent := some 5 },
    { kind := .listItem, children := [.text "d"], parent := some 6 },
    { kind := .listItem, children := [.text "e"], parent := some 0 }]⟩

theorem nested_wellFormed : nested.WellFormed := by
  refine wellFormed_iff_spans.2 ⟨.node 1 .orderedList (.node 2 .listItem (.text "b" .nil)
    (.node 3 .orderedList (.node 4 .listItem (.text "c" .nil) .nil) (.text "a"
    (.node 5 .listItem (.node 6 .orderedList (.node 7 .listItem (.text "d" .nil) .nil) .nil) .nil))))
    (.node 8 .listItem (.text "e" .nil) .nil), ?_, ?_, ?_⟩
  · decide
  · decide
  · simp [Forest.SeparatorsChildless, Forest.Everywhere]

theorem visit_numberLists_nested : nested.WellFormed ∧
    ∃ t', visit numberLists root nested = .ok () t' ∧
      Walks numberLists [.node root] nested t' ∧ t'.WellFormed ∧ nested.NumbersAll t' :=
  ⟨nested_wellFormed, visit_numberLists nested_wellFormed⟩

end Tree
end HtmlMarkdown.Document
