import HtmlMarkdown.Document.OfHtml
import HtmlMarkdown.Proofs.WellFormed

/-!
Conversion never fails, and what it makes of a document is a forest that can be read off the
document: the elements that become nodes, numbered in document order, and the texts, without lone
newlines outside preformatted elements.
-/
namespace HtmlMarkdown.Document

theorem HeadingLevel.ofTag_ok {tag : String} (h : tag ∈ ["H1", "H2", "H3", "H4", "H5", "H6"]) :
    ∃ level, HeadingLevel.ofTag tag = .ok level := by
  simp only [List.mem_cons, List.not_mem_nil, or_false] at h
  rcases h with rfl | rfl | rfl | rfl | rfl | rfl <;> exact ⟨_, rfl⟩

/-- Every element has a meaning or none, and no element means a separator. -/
theorem kindOfElement_ok (tag : String) (attributes : List Html.Attribute) :
    ∃ kind?, kindOfElement tag attributes = .ok kind? ∧ ∀ k ∈ kind?, k ≠ .separator := by
  have hheading : ∀ upper ∈ ["H1", "H2", "H3", "H4", "H5", "H6"], ∃ kind?,
      (HeadingLevel.ofTag upper).map (fun level => some (Kind.heading level)) = .ok kind? ∧
        ∀ k ∈ kind?, k ≠ .separator := by
    intro upper h
    obtain ⟨level, hlevel⟩ := HeadingLevel.ofTag_ok h
    exact ⟨_, by rw [hlevel]; rfl, by simp⟩
  simp only [kindOfElement]
  generalize tag.map Char.toUpper = upper
  split
  case h_13 =>
    split
    · split
      · exact ⟨_, rfl, by simp⟩
      · exact ⟨_, rfl, by simp⟩
    · exact ⟨_, rfl, by simp⟩
  all_goals first
    | exact hheading _ (by simp)
    | exact ⟨_, rfl, by simp⟩

/-- The kind of node that an element becomes, if any. -/
def elementKind? (tag : String) (attributes : List Html.Attribute) : Option Kind :=
  (kindOfElement tag attributes).toOption.join

theorem kindOfElement_eq (tag : String) (attributes : List Html.Attribute) :
    kindOfElement tag attributes = .ok (elementKind? tag attributes) := by
  obtain ⟨kind?, hkind, -⟩ := kindOfElement_ok tag attributes
  simp [elementKind?, hkind, Except.toOption]

theorem elementKind?_ne_separator {tag : String} {attributes : List Html.Attribute} {k : Kind}
    (h : elementKind? tag attributes = some k) : k ≠ .separator := by
  obtain ⟨kind?, hkind, hne⟩ := kindOfElement_ok tag attributes
  rw [kindOfElement_eq, h, Except.ok.injEq] at hkind
  exact hne k (by simp [← hkind])

theorem elementKind?_eq_lineBreak_iff (tag : String) (attributes : List Html.Attribute) :
    elementKind? tag attributes = some .lineBreak ↔ tag.map Char.toUpper = "BR" := by
  simp only [elementKind?, kindOfElement]
  generalize tag.map Char.toUpper = upper
  split
  case h_13 =>
    cases Html.attribute? attributes "href" with
    | none => simp [Except.toOption]
    | some href => by_cases hempty : href = "" <;> simp [Except.toOption, hempty]
  case h_22 hne => simpa [Except.toOption] using hne
  all_goals simp [HeadingLevel.ofTag, Except.toOption, Except.map]

/-- An `a` element becomes a link or nothing. -/
theorem elementKind?_of_anchor {tag : String} (htag : tag.map Char.toUpper = "A")
    {attributes : List Html.Attribute} {k : Kind} (h : elementKind? tag attributes = some k) :
    k.name = .link := by
  simp only [elementKind?, kindOfElement, htag] at h
  cases hhref : Html.attribute? attributes "href" with
  | none => simp [hhref, Except.toOption] at h
  | some href =>
    by_cases hempty : href = ""
    · simp [hhref, hempty, Except.toOption] at h
    · simp only [hhref, hempty, Except.toOption, if_false, Option.join_some, Option.some.injEq] at h
      rw [← h, Kind.name]

/-- Only an `a` element with a target becomes a link, with the first attribute of that name. -/
theorem elementKind?_eq_link_iff (tag : String) (attributes : List Html.Attribute)
    (href : String) : elementKind? tag attributes = some (.link href) ↔
      tag.map Char.toUpper = "A" ∧ Html.attribute? attributes "href" = some href ∧ href ≠ "" := by
  simp only [elementKind?, kindOfElement]
  generalize tag.map Char.toUpper = upper
  split
  case h_13 =>
    cases Html.attribute? attributes "href" with
    | none => simp [Except.toOption]
    | some target =>
      by_cases hempty : target = ""
      · simp [Except.toOption, hempty]
      · simpa [Except.toOption, hempty] using fun h : target = href => h ▸ hempty
  case h_22 hne => simpa [Except.toOption] using fun h => absurd h (by assumption)
  all_goals simp [HeadingLevel.ofTag, Except.toOption, Except.map]

namespace Forest

mutual

/-- What an HTML node becomes, with numbers from `n` on, inside a preformatted element or not. -/
def ofNode (pre : Bool) (n : NodeId) : Html.Node → Forest
  | .text contents => if contents != "\n" || pre then text contents nil else nil
  | .element _ tag attributes children =>
    match elementKind? tag attributes with
    | some kind => node n kind (ofNodes (pre || kind.name == .preformatted) (n + 1) children) nil
    | none => ofNodes pre n children
  | .comment _ | .doctype _ | .instruction _ _ | .document _ => nil

def ofNodes (pre : Bool) (n : NodeId) : List Html.Node → Forest
  | [] => nil
  | first :: rest => ofNode pre n first ++ ofNodes pre (n + (ofNode pre n first).ids.length) rest

end

/-- What a document becomes below the root. -/
def ofDocument (quote : Bool) (document : List Html.Node) : Forest :=
  if quote then node 1 (.blockquote true) (ofNodes false 2 document) nil
  else ofNodes false 1 document

mutual

/-- What holds of the kind of every element holds of all kinds of nodes. -/
theorem allKinds_ofNode {p : Kind → Prop}
    (hp : ∀ {tag attributes k}, elementKind? tag attributes = some k → p k) (pre : Bool)
    (n : NodeId) : ∀ x : Html.Node, (ofNode pre n x).AllKinds p
  | .text contents => by
    rw [ofNode]
    split <;> trivial
  | .element _ tag attributes children => by
    rw [ofNode]
    split
    · rename_i kind hkind
      exact ⟨hp hkind, allKinds_ofNodes hp _ _ children, trivial⟩
    · exact allKinds_ofNodes hp pre n children
  | .comment _ | .doctype _ | .instruction _ _ | .document _ => by
    rw [ofNode]
    trivial

theorem allKinds_ofNodes {p : Kind → Prop}
    (hp : ∀ {tag attributes k}, elementKind? tag attributes = some k → p k) (pre : Bool)
    (n : NodeId) : ∀ xs : List Html.Node, (ofNodes pre n xs).AllKinds p
  | [] => trivial
  | first :: rest => by
    rw [ofNodes]
    exact (everywhere_append _ _).2 ⟨allKinds_ofNode hp pre n first, allKinds_ofNodes hp pre _ rest⟩

end

theorem separator_notMem_ofDocument (quote : Bool) (document : List Html.Node) :
    (ofDocument quote document).AllKinds (· ≠ .separator) := by
  rw [ofDocument]
  split
  · exact ⟨by simp, allKinds_ofNodes elementKind?_ne_separator _ _ _, trivial⟩
  · exact allKinds_ofNodes elementKind?_ne_separator _ _ _

end Forest

namespace Tree

variable {t t₁ t' : Tree} {owner id : NodeId} {k : Kind} {F G : Forest} {pre : Bool}

/-- The table has grown by a forest, behind the children of `owner`. -/
structure Grows (t : Tree) (owner : NodeId) (F : Forest) (t' : Tree) : Prop where
  size_eq : t'.size = t.size + F.ids.length
  ids_eq : F.ids = List.range' t.size F.ids.length
  owner_eq : t'.node owner = { t.node owner with children := t.children owner ++ F.children }
  frame : ∀ x, x < t.size → x ≠ owner → t'.node x = t.node x
  holds : t'.Holds (some owner) F

namespace Grows

theorem nil (t : Tree) (owner : NodeId) : Grows t owner .nil t :=
  ⟨rfl, rfl, by simp [Forest.children, Tree.children_eq], fun _ _ _ => rfl, trivial⟩

theorem size_le_of_mem (h : Grows t owner F t') {x : NodeId} (hx : x ∈ F.ids) : t.size ≤ x := by
  rw [h.ids_eq, List.mem_range'_1] at hx
  exact hx.1

/-- What has been in the table keeps its kind and its parent. -/
theorem kept (h : Grows t owner F t') {x : NodeId} (hx : x < t.size) :
    t'.kind x = t.kind x ∧ t'.parent x = t.parent x := by
  by_cases hne : x = owner
  · subst hne
    simp [kind_eq, Tree.parent_eq, h.owner_eq]
  · simp [kind_eq, Tree.parent_eq, h.frame x hx hne]

theorem trans (h : Grows t owner F t₁) (h' : Grows t₁ owner G t') (howner : owner < t.size) :
    Grows t owner (F ++ G) t' := by
  refine ⟨?_, ?_, ?_, ?_, holds_append.2 ⟨?_, h'.holds⟩⟩
  · rw [h'.size_eq, h.size_eq, Forest.ids_append, List.length_append, Nat.add_assoc]
  · have hG := h'.ids_eq
    rw [h.size_eq] at hG
    rw [Forest.ids_append, List.length_append, ← List.range'_append_1, ← h.ids_eq, ← hG]
  · simp [h'.owner_eq, Tree.children_eq, h.owner_eq]
  · intro x hx hne
    have hlt : x < t₁.size := by rw [h.size_eq]; exact Nat.lt_add_right _ hx
    rw [h'.frame x hlt hne, h.frame x hx hne]
  · refine h.holds.of_node_eq (by rw [h'.size_eq]; exact Nat.le_add_right ..) fun x hx => ?_
    have hle := h.size_le_of_mem hx
    exact h'.frame x (h.holds.lt_size x hx) (Nat.ne_of_gt (Nat.lt_of_lt_of_le howner hle))

/-- A new node that has grown by itself. -/
theorem fill (h : Grows t owner (.node t.size k .nil .nil) t₁) (h' : Grows t₁ t.size F t')
    (howner : owner < t.size) : Grows t owner (.node t.size k F .nil) t' := by
  have hsize : t₁.size = t.size + 1 := h.size_eq
  have hids := h'.ids_eq
  rw [hsize] at hids
  have hlt : owner < t₁.size := by rw [hsize]; exact Nat.lt_succ_of_lt howner
  refine ⟨?_, ?_, ?_, ?_, ⟨?_, ?_⟩, h'.holds, trivial⟩
  · rw [h'.size_eq, hsize]
    simp only [Forest.ids, List.append_nil, List.length_cons]
    omega
  · simp only [Forest.ids, List.append_nil, List.length_cons, List.range'_succ]
    rw [← hids]
  · rw [h'.frame owner hlt (Nat.ne_of_lt howner), h.owner_eq]
    rfl
  · intro x hx hne
    rw [h'.frame x (by rw [hsize]; exact Nat.lt_succ_of_lt hx) (Nat.ne_of_lt hx),
      h.frame x hx hne]
  · rw [h'.size_eq, hsize]
    exact Nat.lt_of_lt_of_le (Nat.lt_succ_self _) (Nat.le_add_right ..)
  · have hnode := h.holds.1.2
    rw [h'.owner_eq, Tree.children_eq, hnode]
    simp [Forest.children]

end Grows

/-! What lies above a node while a document is converted. -/

/-- The way from a node up to one without a parent. -/
inductive WayUp (t : Tree) : NodeId → List NodeId → Prop
  | top {id : NodeId} (hlt : id < t.size) (h : t.parent id = none) : WayUp t id [id]
  | up {id owner : NodeId} {path : List NodeId} (hlt : id < t.size)
      (h : t.parent id = some owner) (hrest : WayUp t owner path) : WayUp t id (id :: path)

namespace WayUp

variable {path : List NodeId}

theorem lineage_eq (h : t.WayUp id path) : ∀ m, path.length ≤ m → t.lineage m id = path := by
  induction h with
  | top _ hparent =>
    rintro (_ | m) hm
    · simp at hm
    · rw [lineage, hparent]
  | up _ hparent _ ih =>
    rintro (_ | m) hm
    · simp at hm
    · rw [lineage, hparent]
      exact congrArg _ (ih m (Nat.le_of_succ_le_succ hm))

theorem grows (h : t.WayUp id path) (hgrows : Grows t owner F t') :
    t'.WayUp id path ∧ ∀ x ∈ path, t'.name x = t.name x := by
  have hsize : t.size ≤ t'.size := by rw [hgrows.size_eq]; exact Nat.le_add_right ..
  induction h with
  | top hlt hparent =>
    obtain ⟨hkind, hparent'⟩ := hgrows.kept hlt
    refine ⟨.top (Nat.lt_of_lt_of_le hlt hsize) (hparent'.trans hparent), fun x hx => ?_⟩
    rw [List.mem_singleton.1 hx, Tree.name, Tree.name, hkind]
  | up hlt hparent _ ih =>
    obtain ⟨hkind, hparent'⟩ := hgrows.kept hlt
    refine ⟨.up (Nat.lt_of_lt_of_le hlt hsize) (hparent'.trans hparent) ih.1, fun x hx => ?_⟩
    rcases List.mem_cons.1 hx with rfl | hx
    · rw [Tree.name, Tree.name, hkind]
    · exact ih.2 x hx

end WayUp

/-- Whether the node or one above it is preformatted, with a way up that the table has room
for. -/
def Inside (t : Tree) (id : NodeId) (pre : Bool) : Prop :=
  ∃ path, t.WayUp id path ∧ path.length ≤ t.size ∧
    pre = (path.map t.name).any (· == .preformatted)

namespace Inside

theorem lt_size (h : t.Inside id pre) : id < t.size := by
  obtain ⟨path, hway, -, -⟩ := h
  cases hway with
  | top hlt _ => exact hlt
  | up hlt _ _ => exact hlt

theorem isOrHasParentNamed_eq (h : t.Inside id pre) :
    t.isOrHasParentNamed id .preformatted = pre := by
  obtain ⟨path, hway, hlen, rfl⟩ := h
  rw [isOrHasParentNamed, hway.lineage_eq t.size hlen, List.any_map]
  rfl

theorem grows (h : t.Inside id pre) (hgrows : Grows t owner F t') : t'.Inside id pre := by
  obtain ⟨path, hway, hlen, rfl⟩ := h
  obtain ⟨hway', hname⟩ := hway.grows hgrows
  refine ⟨path, hway', ?_, ?_⟩
  · rw [hgrows.size_eq]
    exact Nat.le_trans hlen (Nat.le_add_right ..)
  · rw [List.map_congr_left hname]

theorem new (h : t.Inside owner pre) (hgrows : Grows t owner (.node t.size k .nil .nil) t') :
    t'.Inside t.size (pre || k.name == .preformatted) := by
  obtain ⟨path, hway, hlen, rfl⟩ := h
  obtain ⟨hway', hname⟩ := hway.grows hgrows
  obtain ⟨hlt, hnode⟩ := hgrows.holds.1
  refine ⟨t.size :: path, .up hlt (by rw [Tree.parent_eq, hnode]) hway', ?_, ?_⟩
  · rw [hgrows.size_eq]
    exact Nat.succ_le_succ hlen
  · rw [List.map_cons, List.any_cons, List.map_congr_left hname, Bool.or_comm,
      Tree.name_eq t' t.size, hnode]

end Inside

/-! Pushing. -/

theorem push_text_grows (s : String) (hname : t.name owner ≠ .separator)
    (howner : owner < t.size) :
    ∃ t', push owner (.text s) t = .ok () t' ∧ Grows t owner (.text s .nil) t' := by
  refine ⟨t.setChildren owner (t.children owner ++ [.text s]), ?_,
    by simp [size_setChildren, Forest.ids], rfl, ?_, ?_, trivial⟩
  · simp only [push, adopting, if_neg hname]
    rfl
  · simp [node_setChildren _ _ _ _ howner, Forest.children]
  · intro x _ hne
    simp [node_setChildren _ _ _ _ howner, hne]

theorem pushNew_grows (k : Kind) (hname : t.name owner ≠ .separator) (howner : owner < t.size) :
    ∃ t', pushNew owner k t = .ok t.size t' ∧ Grows t owner (.node t.size k .nil .nil) t' := by
  let t₁ := (t.add k).2
  have hne : t.size ≠ owner := Nat.ne_of_gt howner
  have hsize : t₁.size = t.size + 1 := size_add t k
  have hlt : owner < (t₁.reparent [.node t.size] (some owner)).size := by
    rw [size_reparent, hsize]
    exact Nat.lt_succ_of_lt howner
  have hnode : ∀ x, x ≠ t.size →
      (t₁.reparent [.node t.size] (some owner)).node x = t.node x := by
    intro x hx
    rw [node_reparent_of_notMem _ _ _ _ (by simpa using hx), node_add, if_neg hx]
  let t' := (t₁.reparent [.node t.size] (some owner)).setChildren owner
    (t.children owner ++ [.node t.size])
  have hsize' : t'.size = t.size + 1 := by rw [size_setChildren, size_reparent, hsize]
  refine ⟨t', ?_, hsize', rfl, ?_, ?_, ⟨?_, ?_⟩, trivial, trivial⟩
  · have hadd : (modifyGet fun t => t.add k : Edit NodeId) t = .ok t.size t₁ := rfl
    have hpush : push owner (.node t.size) t₁ = .ok () t' := by
      have hname₁ : t₁.name owner ≠ .separator := by
        rwa [name_eq, node_add, if_neg hne.symm, ← name_eq]
      simp only [push, adopting, if_neg hname₁]
      rw [Tree.children_eq, hnode owner hne.symm]
      rfl
    rw [pushNew, bind_of_ok hadd, bind_of_ok hpush]
    rfl
  · rw [node_setChildren _ _ _ _ hlt, if_pos rfl, hnode owner hne.symm]
    rfl
  · intro x hx hxo
    rw [node_setChildren _ _ _ _ hlt, if_neg hxo, hnode x (Nat.ne_of_lt hx)]
  · rw [hsize']
    exact Nat.lt_succ_self _
  · rw [node_setChildren _ _ _ _ hlt, if_neg hne, node_reparent, node_add, if_pos rfl]
    simp [hsize, Forest.children]

/-! Conversion. -/

mutual

theorem pushHtml_grows :
    ∀ (x : Html.Node) (t : Tree) (owner : NodeId) (pre : Bool), t.Inside owner pre →
      t.name owner ≠ .separator →
      ∃ t', pushHtml owner x t = .ok () t' ∧ Grows t owner (Forest.ofNode pre t.size x) t'
  | .text contents, t, owner, pre, hin, hname => by
    rw [pushHtml, Forest.ofNode, get_bind, hin.isOrHasParentNamed_eq]
    split
    · exact push_text_grows contents hname hin.lt_size
    · exact ⟨t, rfl, .nil t owner⟩
  | .element _ tag attributes children, t, owner, pre, hin, hname => by
    rw [pushHtml, Forest.ofNode, kindOfElement_eq]
    cases hkind : elementKind? tag attributes with
    | none => exact pushAllHtml_grows children t owner pre hin hname
    | some kind =>
      obtain ⟨t₁, hnew, hgrows⟩ := pushNew_grows kind hname hin.lt_size
      have hname₁ : t₁.name t.size ≠ .separator := by
        rw [Tree.name_eq t₁ t.size, hgrows.holds.1.2, Ne, Kind.eq_separator_iff]
        exact elementKind?_ne_separator hkind
      obtain ⟨t', hrun, hgrows'⟩ :=
        pushAllHtml_grows children t₁ t.size _ (hin.new hgrows) hname₁
      rw [hgrows.size_eq] at hgrows'
      exact ⟨t', (bind_of_ok hnew).trans hrun, hgrows.fill hgrows' hin.lt_size⟩
  | .comment _, t, owner, _, _, _ | .doctype _, t, owner, _, _, _
  | .instruction _ _, t, owner, _, _, _ | .document _, t, owner, _, _, _ => by
    rw [pushHtml, Forest.ofNode]
    exact ⟨t, rfl, .nil t owner⟩

theorem pushAllHtml_grows :
    ∀ (xs : List Html.Node) (t : Tree) (owner : NodeId) (pre : Bool), t.Inside owner pre →
      t.name owner ≠ .separator →
      ∃ t', pushAllHtml owner xs t = .ok () t' ∧ Grows t owner (Forest.ofNodes pre t.size xs) t'
  | [], t, owner, pre, _, _ => ⟨t, rfl, .nil t owner⟩
  | first :: rest, t, owner, pre, hin, hname => by
    obtain ⟨t₁, hrun, hgrows⟩ := pushHtml_grows first t owner pre hin hname
    have hname₁ : t₁.name owner ≠ .separator := by
      rwa [Tree.name, (hgrows.kept hin.lt_size).1]
    obtain ⟨t', hrun', hgrows'⟩ :=
      pushAllHtml_grows rest t₁ owner pre (hin.grows hgrows) hname₁
    rw [hgrows.size_eq] at hgrows'
    refine ⟨t', ?_, hgrows.trans hgrows' hin.lt_size⟩
    rw [pushAllHtml, bind_of_ok hrun, hrun']

end

theorem Grows.spans (h : Grows empty root F t) (hF : F.AllKinds (· ≠ .separator)) :
    t.Spans F := by
  have hroot : t.node root = ⟨.document, F.children, none⟩ := h.owner_eq
  have hparent : t.parent root = none := by rw [Tree.parent_eq, hroot]
  have hsize : 0 < t.size := by rw [h.size_eq]; exact Nat.lt_add_right _ Nat.one_pos
  refine ⟨⟨⟨hsize, by rw [hparent, hroot]⟩, h.holds, trivial⟩, ?_,
    Forest.Everywhere.mono (fun k D hne hk => absurd hk hne) hF⟩
  refine Forest.nodup_ids_node.2 ⟨fun hmem => ?_, by simp [Forest.ids], ?_, by simp [Forest.ids],
    by simp [Forest.ids]⟩
  · exact Nat.not_succ_le_zero 0 (h.size_le_of_mem hmem)
  · rw [h.ids_eq]
    exact List.nodup_range'

/-- Every document becomes a tree, which spans the forest that is read off the document. -/
theorem rawOfHtml_spans (document : List Html.Node) (options : ConversionOptions) :
    ∃ t, rawOfHtml document options = .ok t ∧
      t.Spans (Forest.ofDocument options.quote document) := by
  have hin : empty.Inside root false := ⟨[root], .top Nat.one_pos rfl, Nat.le_refl _, rfl⟩
  have hspans := Forest.separator_notMem_ofDocument options.quote document
  suffices h : ∃ t, pushDocument options.quote document empty = .ok () t ∧
      Grows empty root (Forest.ofDocument options.quote document) t by
    obtain ⟨t, hrun, hgrows⟩ := h
    exact ⟨t, by rw [rawOfHtml, hrun], hgrows.spans hspans⟩
  unfold pushDocument Forest.ofDocument
  cases options.quote with
  | false => exact pushAllHtml_grows document empty root false hin (by decide)
  | true =>
    have hname : empty.name root ≠ .separator := by decide
    obtain ⟨t₁, hnew, hgrows⟩ := pushNew_grows (.blockquote true) hname Nat.one_pos
    have hname₁ : t₁.name 1 ≠ .separator := by
      have hnode : t₁.node 1 = _ := hgrows.holds.1.2
      simp [Tree.name_eq, hnode, Kind.name]
    obtain ⟨t', hrun, hgrows'⟩ :=
      pushAllHtml_grows document t₁ 1 false (hin.new hgrows) hname₁
    rw [hgrows.size_eq] at hgrows'
    exact ⟨t', (bind_of_ok hnew).trans hrun, hgrows.fill hgrows' Nat.one_pos⟩

end Tree
end HtmlMarkdown.Document
