import HtmlMarkdown.Proofs.WellFormed
import HtmlMarkdown.Proofs.Writings

/-!
What a node of a table unfolds to. The entries of a table may be listed more than once, or in a
circle, and no depth is enough to follow a circle to its end. Where nothing that is laid out lies
below itself, the depth that an outline goes down is enough to show all that is laid out.
-/
namespace HtmlMarkdown.Document.Tree

open Relation

/-- A node lists another, and what it lists is laid out. -/
def Displays (t : Tree) (owner id : NodeId) : Prop :=
  t.Lists owner id ∧ (t.kind owner).endsBlock = false

/-- Nothing that is displayed below the node is an ordered list or lies below itself. -/
structure Displayable (t : Tree) (id : NodeId) : Prop where
  no_orderedList : ∀ {x}, ReflTransGen t.Displays id x → t.name x ≠ .orderedList
  acyclic : ∀ {x}, ReflTransGen t.Displays id x → ¬ TransGen t.Displays x x

/-- The outlines show a list of children with all that is displayed below them. There is no bound
on the depth, and nothing is said about what is not laid out. -/
inductive Unfolds (t : Tree) : List Child → List Outline → Prop
  | nil : Unfolds t [] []
  | text {rest : List Child} {outlines : List Outline} (s : String)
      (h : Unfolds t rest outlines) : Unfolds t (.text s :: rest) (.text s :: outlines)
  | boundary {rest : List Child} {outlines : List Outline} (id : NodeId) (below : List Outline)
      (hk : (t.kind id).endsBlock = true) (h : Unfolds t rest outlines) :
      Unfolds t (.node id :: rest) (.node (t.kind id) below :: outlines)
  | node {rest : List Child} {below outlines : List Outline} (id : NodeId)
      (hk : (t.kind id).endsBlock = false) (hbelow : Unfolds t (t.children id) below)
      (h : Unfolds t rest outlines) :
      Unfolds t (.node id :: rest) (.node (t.kind id) below :: outlines)

variable {t : Tree} {id : NodeId}

theorem Displayable.below (h : t.Displayable id) {c : NodeId} (hc : t.Displays id c) :
    t.Displayable c :=
  ⟨fun hx => h.no_orderedList (.head hc hx), fun hx => h.acyclic (.head hc hx)⟩

theorem lt_size_of_lists {c : NodeId} (h : t.Lists id c) : id < t.size :=
  lt_size_of_children_ne_nil (List.ne_nil_of_mem h)

theorem lt_size_of_displays {c : NodeId} (h : t.Displays id c) : id < t.size :=
  lt_size_of_lists h.1

theorem Unfolds.append {cs cs' : List Child} {os os' : List Outline} (h : t.Unfolds cs os)
    (h' : t.Unfolds cs' os') : t.Unfolds (cs ++ cs') (os ++ os') := by
  induction h with
  | nil => exact h'
  | text s _ ih => exact ih.text s
  | boundary id below hk _ ih => exact ih.boundary id below hk
  | node id hk hbelow _ _ ih => exact .node id hk hbelow ih

/-- A list unfolds if its entries do. -/
theorem unfolds_of_forall {d : Nat} {cs : List Child}
    (h : ∀ c, .node c ∈ cs → t.Unfolds [.node c] [t.outlineTo d c]) :
    t.Unfolds cs (cs.map (t.outlineOf d)) := by
  induction cs with
  | nil => exact .nil
  | cons c rest ih =>
    have hrest := ih fun c' hc' => h c' (List.mem_cons_of_mem _ hc')
    rw [List.map_cons]
    cases c with
    | text s => exact hrest.text s
    | node id => exact (h id (List.mem_cons_self ..)).append hrest

/-- A node unfolds if its children do, or if they are not laid out. -/
theorem unfolds_node {d : Nat} (h : (t.kind id).endsBlock = false → ∀ c,
      .node c ∈ t.children id → t.Unfolds [.node c] [t.outlineTo d c]) :
    t.Unfolds [.node id] [.node (t.kind id) ((t.children id).map (t.outlineOf d))] := by
  cases hk : (t.kind id).endsBlock with
  | true => exact .boundary id _ hk .nil
  | false => exact .node id hk (unfolds_of_forall (h hk)) .nil

/-- Each way down along `R` has left the first `n` numbers after `d` steps. -/
def LeavesWithin (R : NodeId → NodeId → Prop) (n : Nat) : Nat → NodeId → Prop
  | 0, id => n ≤ id
  | d + 1, id => ∀ c, R id c → LeavesWithin R n d c

/-- Nodes on a way down that does not come back are all different, so with the nodes `above` on
the way, there are as many more steps as the table has other nodes. -/
theorem leavesWithin_of_acyclic {R : NodeId → NodeId → Prop} {n : Nat}
    (hR : ∀ {x c}, R x c → x < n) (d : Nat) (above : List NodeId)
    (hlen : n ≤ above.length + d) (hnd : above.Nodup)
    (habove : ∀ y ∈ above, y < n ∧ TransGen R y id)
    (h : ∀ {x}, ReflTransGen R id x → ¬ TransGen R x x) : LeavesWithin R n d id := by
  have hnew : id ∉ above := fun hmem => h .refl (habove id hmem).2
  induction d generalizing above id with
  | zero =>
    by_contra hid
    have hsub : id :: above ⊆ List.range n := by
      intro y hy
      rcases List.mem_cons.1 hy with rfl | hy
      · exact List.mem_range.2 (Nat.lt_of_not_le hid)
      · exact List.mem_range.2 (habove y hy).1
    have hle := (List.subperm_of_subset (List.nodup_cons.2 ⟨hnew, hnd⟩) hsub).length_le
    simp only [List.length_cons, List.length_range] at hle
    omega
  | succ d ih =>
    intro c hc
    have habove' : ∀ y ∈ id :: above, y < n ∧ TransGen R y c := by
      intro y hy
      rcases List.mem_cons.1 hy with rfl | hy
      · exact ⟨hR hc, .single hc⟩
      · exact ⟨(habove y hy).1, (habove y hy).2.tail hc⟩
    have hlen' : n ≤ (id :: above).length + d := by
      rw [List.length_cons]
      omega
    exact ih (id :: above) hlen' (List.nodup_cons.2 ⟨hnew, hnd⟩) habove'
      (fun hx => h (.head hc hx)) fun hmem => h (.single hc) (habove' c hmem).2

/-- Where no way down comes back, none stays in a table for more steps than the table has nodes. -/
theorem leavesWithin {R : NodeId → NodeId → Prop} {n : Nat} (hR : ∀ {x c}, R x c → x < n)
    (h : ∀ {x}, ReflTransGen R id x → ¬ TransGen R x x) : LeavesWithin R n n id :=
  leavesWithin_of_acyclic hR n [] (by simp) List.nodup_nil (by simp) h

/-- A node that is not in the table has no children. -/
theorem children_eq_nil (h : t.size ≤ id) : t.children id = [] := by
  by_contra hne
  exact Nat.not_lt.2 h (lt_size_of_children_ne_nil hne)

/-- The outline shows all that is displayed if it goes down as far as anything is displayed. -/
theorem unfolds_outlineTo (d : Nat) (h : LeavesWithin t.Displays t.size d id) :
    t.Unfolds [.node id] [t.outlineTo d id] := by
  induction d generalizing id with
  | zero =>
    have hnil : t.children id = [] := children_eq_nil h
    have houtline : t.outlineTo 0 id =
        .node (t.kind id) ((t.children id).map (t.outlineOf 0)) := by
      rw [outlineTo, hnil, List.map_nil]
    rw [houtline]
    exact unfolds_node fun _ c hc => by simp [hnil] at hc
  | succ d ih =>
    rw [outlineTo_succ]
    exact unfolds_node fun hk c hc => ih (h c ⟨hc, hk⟩)

theorem unfolds_outline (h : t.Displayable id) : t.Unfolds [.node id] [t.outline id] :=
  unfolds_outlineTo t.size (leavesWithin lt_size_of_displays h.acyclic)

/-- What is displayed holds no ordered list, to whatever depth one looks. -/
theorem Displayable.listless (h : t.Displayable id) (d : Nat) : (t.outlineTo d id).Listless := by
  induction d generalizing id with
  | zero => exact ⟨h.no_orderedList .refl, fun _ => trivial⟩
  | succ d ih =>
    rw [outlineTo_succ, Outline.Listless]
    refine ⟨h.no_orderedList .refl, fun hk => ?_⟩
    have hall : ∀ cs : List Child, (∀ c, .node c ∈ cs → t.Displays id c) →
        Outline.AllListless (cs.map (t.outlineOf d)) := by
      intro cs hcs
      induction cs with
      | nil => trivial
      | cons c rest ihcs =>
        refine ⟨?_, ihcs fun c' hc' => hcs c' (List.mem_cons_of_mem _ hc')⟩
        cases c with
        | text s => trivial
        | node c => exact ih (h.below (hcs c (List.mem_cons_self ..)))
    exact hall _ fun c hc => ⟨hc, hk⟩

/-- What grows with each step does not come back. -/
theorem not_transGen_of_lt {R : NodeId → NodeId → Prop} {rank : NodeId → Nat}
    (h : ∀ x c, R x c → rank x < rank c) (x : NodeId) : ¬ TransGen R x x := by
  have hlt : ∀ {a b}, TransGen R a b → rank a < rank b := by
    intro a b hab
    induction hab with
    | single hab => exact h _ _ hab
    | tail _ hbc ih => exact Nat.lt_trans ih (h _ _ hbc)
  exact fun hcycle => Nat.lt_irrefl _ (hlt hcycle)

/-- If all nodes come behind those that display them, none is displayed below itself. -/
theorem displayable_of_ascending (hid : t.name id ≠ .orderedList)
    (h : ∀ x < t.size, (t.kind x).endsBlock = false →
      ∀ c ∈ (t.children x).filterMap Child.node?, x < c ∧ t.name c ≠ .orderedList) :
    t.Displayable id := by
  have hstep : ∀ x c, t.Displays x c → x < c ∧ t.name c ≠ .orderedList := by
    rintro x c ⟨hlists, hk⟩
    exact h x (lt_size_of_displays ⟨hlists, hk⟩) hk c (List.mem_filterMap.2 ⟨_, hlists, rfl⟩)
  refine ⟨fun hx => ?_, fun _ => not_transGen_of_lt (fun y c hc => (hstep y c hc).1) _⟩
  rcases ReflTransGen.cases_tail hx with rfl | ⟨y, -, hy⟩
  · exact hid
  · exact (hstep _ _ hy).2

end HtmlMarkdown.Document.Tree
