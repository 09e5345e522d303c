import HtmlMarkdown.Layout.OfOutline
import HtmlMarkdown.Proofs.Dumps
import HtmlMarkdown.Proofs.Unfolding

/-!
What a dump says about the nodes of a table. Where nothing lies below itself, two nodes of the
same or of different tables have the same dump exactly if the same lies below them: nodes of the
same kinds with the same data, and the same texts, all in the same order. Main statement: each of
the two dumps tells this, and what has the same shape is laid out in the same blocks.
-/
namespace HtmlMarkdown.Document.Tree

open Relation

/-- Nothing that is listed below the node lies below itself. -/
def Acyclic (t : Tree) (id : NodeId) : Prop :=
  ∀ {x}, ReflTransGen t.Lists id x → ¬ TransGen t.Lists x x

/-- The same is listed in two tables: the same texts one by one, and nodes of the same kinds, with
the same below them. The numbers of the nodes are not compared. -/
inductive SameShape (t t' : Tree) : List Child → List Child → Prop
  | nil : SameShape t t' [] []
  | text {rest rest' : List Child} (s : String) (h : SameShape t t' rest rest') :
      SameShape t t' (.text s :: rest) (.text s :: rest')
  | node {rest rest' : List Child} (id id' : NodeId) (hkind : t.kind id = t'.kind id')
      (hbelow : SameShape t t' (t.children id) (t'.children id'))
      (h : SameShape t t' rest rest') : SameShape t t' (.node id :: rest) (.node id' :: rest')

variable {t t' : Tree} {d d' : Nat} {id id' : NodeId} {cs cs' : List Child}

/-- A table is acyclic if its nodes can be ordered so that all come behind those that list them. -/
theorem acyclic_of_rank (rank : NodeId → Nat)
    (h : ∀ x < t.size, ∀ c ∈ (t.children x).filterMap Child.node?, rank x < rank c) :
    t.Acyclic id := by
  have hstep : ∀ x c, t.Lists x c → rank x < rank c := by
    intro x c hlists
    exact h x (lt_size_of_lists hlists) c (List.mem_filterMap.2 ⟨_, hlists, rfl⟩)
  intro x _
  exact not_transGen_of_lt hstep x

theorem Acyclic.leavesWithin (h : t.Acyclic id) : LeavesWithin t.Lists t.size t.size id :=
  Tree.leavesWithin lt_size_of_lists h

/-- An outline that goes down far enough shows all children, with all that lies below them. -/
theorem outlineTo_eq (h : LeavesWithin t.Lists t.size d id) :
    ∃ e, t.outlineTo d id = .node (t.kind id) ((t.children id).map (t.outlineOf e)) ∧
      ∀ c, t.Lists id c → LeavesWithin t.Lists t.size e c := by
  cases d with
  | zero =>
    have hnil : t.children id = [] := children_eq_nil h
    refine ⟨0, by rw [outlineTo, hnil, List.map_nil], fun c hc => ?_⟩
    exact absurd hnil (List.ne_nil_of_mem hc)
  | succ d => exact ⟨d, outlineTo_succ t d id, h⟩

theorem outlineTo_ne_text (t : Tree) (d : Nat) (id : NodeId) (s : String) :
    t.outlineTo d id ≠ .text s := by
  intro h
  cases d <;> cases h

theorem SameShape.map_outlineOf_eq (h : SameShape t t' cs cs')
    (hcs : ∀ c, .node c ∈ cs → LeavesWithin t.Lists t.size d c)
    (hcs' : ∀ c, .node c ∈ cs' → LeavesWithin t'.Lists t'.size d' c) :
    cs.map (t.outlineOf d) = cs'.map (t'.outlineOf d') := by
  induction h generalizing d d' with
  | nil => rfl
  | text s _ ih =>
    have hrest := ih (fun c hc => hcs c (List.mem_cons_of_mem _ hc))
      fun c hc => hcs' c (List.mem_cons_of_mem _ hc)
    rw [List.map_cons, List.map_cons, hrest]
    rfl
  | node id id' hkind _ _ ihb ih =>
    have hrest := ih (fun c hc => hcs c (List.mem_cons_of_mem _ hc))
      fun c hc => hcs' c (List.mem_cons_of_mem _ hc)
    obtain ⟨e, hid, hbelow⟩ := outlineTo_eq (hcs id (List.mem_cons_self ..))
    obtain ⟨e', hid', hbelow'⟩ := outlineTo_eq (hcs' id' (List.mem_cons_self ..))
    have hfirst : t.outlineTo d id = t'.outlineTo d' id' := by
      rw [hid, hid', hkind, ihb hbelow hbelow']
    rw [List.map_cons, List.map_cons, hrest, outlineOf, outlineOf, hfirst]

/-- Lists have the same shape if their outlines are the same and nodes with the same outline are
known to have the same shape. -/
theorem sameShape_of_map_eq
    (hnode : ∀ c c', .node c ∈ cs → .node c' ∈ cs' → t.outlineTo d c = t'.outlineTo d' c' →
      t.kind c = t'.kind c' ∧ SameShape t t' (t.children c) (t'.children c'))
    (h : cs.map (t.outlineOf d) = cs'.map (t'.outlineOf d')) : SameShape t t' cs cs' := by
  induction cs generalizing cs' with
  | nil =>
    rw [List.map_eq_nil_iff.1 h.symm]
    exact .nil
  | cons first rest ih =>
    cases cs' with
    | nil => cases h
    | cons first' rest' =>
      obtain ⟨hfirst, hmap⟩ := List.cons.inj h
      have hrest : SameShape t t' rest rest' := ih
        (fun c c' hc hc' => hnode c c' (List.mem_cons_of_mem _ hc) (List.mem_cons_of_mem _ hc'))
        hmap
      cases first with
      | text s =>
        cases first' with
        | text s' =>
          cases hfirst
          exact hrest.text s
        | node id' => exact absurd hfirst.symm (outlineTo_ne_text t' d' id' s)
      | node id =>
        cases first' with
        | text s' => exact absurd hfirst (outlineTo_ne_text t d id s')
        | node id' =>
          obtain ⟨hkind, hbelow⟩ :=
            hnode id id' (List.mem_cons_self ..) (List.mem_cons_self ..) hfirst
          exact .node id id' hkind hbelow hrest

/-- Nodes with the same outline have the same shape, however deep the two tables are. The induction
is on the depth of the one outline; the other one is opened along with it. -/
theorem sameShape_of_outlineTo_eq (h : LeavesWithin t.Lists t.size d id)
    (h' : LeavesWithin t'.Lists t'.size d' id') (heq : t.outlineTo d id = t'.outlineTo d' id') :
    t.kind id = t'.kind id' ∧ SameShape t t' (t.children id) (t'.children id') := by
  induction d generalizing d' id id' with
  | zero =>
    obtain ⟨e', hid', -⟩ := outlineTo_eq h'
    rw [outlineTo, hid'] at heq
    obtain ⟨hkind, hmap⟩ := Outline.node.inj heq
    rw [children_eq_nil h, List.map_eq_nil_iff.1 hmap.symm]
    exact ⟨hkind, .nil⟩
  | succ d ih =>
    obtain ⟨e', hid', hbelow'⟩ := outlineTo_eq h'
    rw [outlineTo_succ, hid'] at heq
    obtain ⟨hkind, hmap⟩ := Outline.node.inj heq
    exact ⟨hkind, sameShape_of_map_eq (fun c c' hc hc' => ih (h c hc) (hbelow' c' hc')) hmap⟩

/-- Where nothing lies below itself, the depth that outlines go down hides nothing. -/
theorem outline_eq_iff_sameShape (h : t.Acyclic id) (h' : t'.Acyclic id') :
    t.outline id = t'.outline id' ↔ SameShape t t' [.node id] [.node id'] := by
  constructor
  · intro heq
    obtain ⟨hkind, hbelow⟩ := sameShape_of_outlineTo_eq h.leavesWithin h'.leavesWithin heq
    exact .node id id' hkind hbelow .nil
  · intro hshape
    have hmap : [Child.node id].map (t.outlineOf t.size) =
        [Child.node id'].map (t'.outlineOf t'.size) :=
      hshape.map_outlineOf_eq (by simpa using h.leavesWithin) (by simpa using h'.leavesWithin)
    exact (List.cons.inj hmap).1

/-- If nothing lies below itself, each of the two dumps of a node tells all that lies below it, and
nothing else: the kinds with their data, the texts, and how many children there are in which
order. What has the same shape, and so all that has the same dump, is laid out the same. -/
theorem dump_eq_iff_sameShape (h : t.Acyclic id) (h' : t'.Acyclic id') :
    ((t.outline id).compact = (t'.outline id').compact ↔
      SameShape t t' [.node id] [.node id']) ∧
    ((t.outline id).indented = (t'.outline id').indented ↔
      SameShape t t' [.node id] [.node id']) ∧
    (SameShape t t' [.node id] [.node id'] → Layout.layTree t id = Layout.layTree t' id') := by
  have hshape := outline_eq_iff_sameShape h h'
  refine ⟨Outline.compact_inj.trans hshape, Outline.indented_inj.trans hshape, fun hsame => ?_⟩
  rw [Layout.layTree, Layout.layTree, hshape.2 hsame]

/-- A text and a target that hold what dumps write around them, and a text that is empty. -/
def quoting : Tree :=
  ⟨#[{ kind := .document, children := [.text "a\", \"b", .text "", .node 1] },
    { kind := .link "x\")[", children := [.node 2, .text "Bold\n"], parent := some 0 },
    { kind := .bold, parent := some 1 }]⟩

/-- The same nodes in another order, the document last. -/
def renumbered : Tree :=
  ⟨#[{ kind := .bold, parent := some 1 },
    { kind := .link "x\")[", children := [.node 0, .text "Bold\n"], parent := some 2 },
    { kind := .document, children := [.text "a\", \"b", .text "", .node 1] }]⟩

/-- The same nodes, but two texts that stand where there was one. -/
def parted : Tree :=
  ⟨#[{ kind := .document, children := [.text "a", .text "b", .text "", .node 1] },
    { kind := .link "x\")[", children := [.node 2, .text "Bold\n"], parent := some 0 },
    { kind := .bold, parent := some 1 }]⟩

theorem dump_eq_iff_sameShape_renumbered : quoting.Acyclic 0 ∧ renumbered.Acyclic 2 ∧
    parted.Acyclic 0 ∧ (quoting.outline 0).compact = (renumbered.outline 2).compact ∧
    SameShape quoting renumbered [.node 0] [.node 2] ∧
    Layout.layTree quoting 0 = Layout.layTree renumbered 2 ∧
    (quoting.outline 0).indented ≠ (parted.outline 0).indented ∧
    ¬ SameShape quoting parted [.node 0] [.node 0] := by
  have hquoting : quoting.Acyclic 0 := acyclic_of_rank (fun x => x) (by decide)
  have hrenumbered : renumbered.Acyclic 2 := acyclic_of_rank (fun x => 3 - x) (by decide)
  have hparted : parted.Acyclic 0 := acyclic_of_rank (fun x => x) (by decide)
  obtain ⟨hcompact, -, hlay⟩ := dump_eq_iff_sameShape hquoting hrenumbered
  obtain ⟨-, hindented, -⟩ := dump_eq_iff_sameShape hquoting hparted
  have hsame : (quoting.outline 0).compact = (renumbered.outline 2).compact := by decide +kernel
  have hother : (quoting.outline 0).indented ≠ (parted.outline 0).indented := by decide +kernel
  exact ⟨hquoting, hrenumbered, hparted, hsame, hcompact.1 hsame, hlay (hcompact.1 hsame), hother,
    fun hshape => hother (hindented.2 hshape)⟩

end HtmlMarkdown.Document.Tree
