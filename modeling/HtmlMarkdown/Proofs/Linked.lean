import HtmlMarkdown.Proofs.Operations

/-!
Trees whose child lists and back references are two writings of one forest. Every edit leaves them
so, whether it succeeds or fails, if it is given nodes and positions that are in use and hands over
nothing but what has no place yet: it is a run of `attach` and `detach`, and so is a splice.
-/
namespace HtmlMarkdown.Document.Tree

open Relation

/-- A child that `owner` can be given: a text, or a detached node that is not the root and does
not have `owner` below it. -/
def Free (t : Tree) (owner : NodeId) : Child → Prop
  | .text _ => True
  | .node id => id < t.size ∧ t.parent id = none ∧ id ≠ root ∧ ¬ ReflTransGen t.Lists id owner

/-- A child that `owner` can be given without a circle: a text, or a detached node that does not
have `owner` below it. -/
def Loose (t : Tree) (owner : NodeId) : Child → Prop
  | .text _ => True
  | .node id => id < t.size ∧ t.parent id = none ∧ ¬ ReflTransGen t.Lists id owner

/-- Child lists and back references say the same: each node stands in at most one list, and there
once, and no node lies below itself. -/
structure Agrees (t : Tree) : Prop where
  /-- With this, no two lists have a node in common. -/
  parent_iff : ∀ {id owner}, t.parent id = some owner ↔ t.Lists owner id
  once : ∀ owner, ((t.children owner).filterMap Child.node?).Nodup
  acyclic : ∀ id, ¬ TransGen t.Lists id id

/-- Child lists and back references say the same, and what they say is a forest. -/
structure Linked (t : Tree) : Prop where
  root_in_use : root < t.size
  root_parent : t.parent root = none
  /-- With this, no two lists have a node in common. -/
  parent_iff : ∀ {id owner}, t.parent id = some owner ↔ t.Lists owner id
  once : ∀ owner, ((t.children owner).filterMap Child.node?).Nodup
  acyclic : ∀ id, ¬ TransGen t.Lists id id

variable {t t' : Tree} {id owner : NodeId} {X Y cs : List Child} {child : Child}

/-! The nodes of a list. -/

theorem mem_filterMap_node?_iff : id ∈ cs.filterMap Child.node? ↔ .node id ∈ cs := by
  rw [List.mem_filterMap]
  constructor
  · rintro ⟨c, hc, hid⟩
    cases c with
    | node x =>
      obtain rfl : x = id := by simpa [Child.node?] using hid
      exact hc
    | text s => cases hid
  · intro hc
    exact ⟨.node id, hc, rfl⟩

theorem count_filterMap_node? (cs : List Child) (id : NodeId) :
    (cs.filterMap Child.node?).count id = cs.count (.node id) := by
  rw [List.count_filterMap, List.count_eq_countP]
  apply List.countP_congr
  intro c _
  cases c <;> simp [Child.node?]

theorem nodup_nodes_middle (honce : ((X ++ Y).filterMap Child.node?).Nodup)
    (hnew : ∀ x, child = .node x → .node x ∉ X ++ Y) :
    ((X ++ child :: Y).filterMap Child.node?).Nodup := by
  cases child with
  | text s =>
    rw [List.filterMap_append] at honce ⊢
    exact honce
  | node x =>
    have hx : x ∉ X.filterMap Child.node? ++ Y.filterMap Child.node? := by
      rw [← List.filterMap_append, mem_filterMap_node?_iff]
      exact hnew x rfl
    rw [List.filterMap_append] at honce ⊢
    change (X.filterMap Child.node? ++ x :: Y.filterMap Child.node?).Nodup
    rw [List.nodup_middle, List.nodup_cons]
    exact ⟨hx, honce⟩

/-! Children that have no place. -/

theorem Free.loose (h : t.Free owner child) : t.Loose owner child := by
  cases child with
  | text s => trivial
  | node id => exact ⟨h.1, h.2.1, h.2.2.2⟩

/-- A detached node without children can be given to any other. -/
theorem loose_of_childless (hid : id < t.size) (hparent : t.parent id = none)
    (hchildren : t.children id = []) (hne : id ≠ owner) : t.Loose owner (.node id) := by
  refine ⟨hid, hparent, fun hway => ?_⟩
  rcases hway.cases_head with heq | ⟨y, hy, -⟩
  · exact hne heq
  · rw [Lists, hchildren] at hy
    cases hy

theorem Loose.lt_size (h : t.Loose owner child) (x : NodeId) (hx : child = .node x) :
    x < t.size := by
  subst hx
  exact h.1

theorem Loose.attach {c : Child} (hc : t.Loose owner c) (howner : owner < t.size)
    (hlist : t.children owner = X ++ Y) (hloose : t.Loose owner child)
    (hne : ∀ x, child = .node x → c ≠ .node x) : (t.attach owner X child Y).Loose owner c := by
  cases c with
  | text s => trivial
  | node x =>
    obtain ⟨hlt, hparent, hbelow⟩ := hc
    refine ⟨by rw [size_attach]; exact hlt, ?_, ?_⟩
    · rw [parent_attach hloose.lt_size, if_neg fun hx => hne x hx rfl]
      exact hparent
    · intro hway
      rcases reflTransGen_iff_eq_or_transGen.1 hway with heq | hway
      · exact hbelow (heq ▸ .refl)
      · rcases way_attach howner hlist hway with hold | ⟨-, -, hold, -⟩
        · exact hbelow hold.to_reflTransGen
        · exact hbelow hold

namespace Agrees

theorem lt_size (h : t.Agrees) (hlists : t.Lists owner id) : id < t.size := by
  apply lt_size_of_parent_ne_none
  rw [h.parent_iff.2 hlists]
  exact Option.some_ne_none owner

theorem owner_eq (h : t.Agrees) {other : NodeId} (hlists : t.Lists owner id)
    (hlists' : t.Lists other id) : other = owner := by
  have howner := h.parent_iff.2 hlists
  have hother := h.parent_iff.2 hlists'
  exact Option.some.inj (hother.symm.trans howner)

theorem not_lists_of_detached (h : t.Agrees) (hid : t.parent id = none) : ¬ t.Lists owner id := by
  intro hlists
  have howner := h.parent_iff.2 hlists
  rw [hid] at howner
  cases howner

theorem count_eq_one (h : t.Agrees) (hlists : t.Lists owner id) :
    (t.children owner).count (.node id) = 1 := by
  rw [← count_filterMap_node?]
  exact List.count_eq_one_of_mem (h.once owner) (mem_filterMap_node?_iff.2 hlists)

/-- The links hang on nothing but the lists and the back references. -/
theorem of_eq (h : t.Agrees) (hchildren : ∀ x, t'.children x = t.children x)
    (hparent : ∀ x, t'.parent x = t.parent x) : t'.Agrees := by
  have hlists : t'.Lists = t.Lists := by
    funext owner id
    simp only [Lists, hchildren]
  constructor
  case parent_iff =>
    intro id owner
    rw [hparent, hlists]
    exact h.parent_iff
  case once =>
    intro owner
    rw [hchildren]
    exact h.once owner
  case acyclic =>
    rw [hlists]
    exact h.acyclic

/-- A loose child can be given a place. -/
theorem attached (h : t.Agrees) (howner : owner < t.size) (hlist : t.children owner = X ++ Y)
    (hloose : t.Loose owner child) : (t.attach owner X child Y).Agrees := by
  constructor
  case parent_iff =>
    intro b a
    rw [parent_attach hloose.lt_size, lists_attach howner hlist]
    by_cases hb : child = .node b
    · subst hb
      simp [h.not_lists_of_detached hloose.2.1, eq_comm]
    · simp [hb, h.parent_iff]
  case once =>
    intro a
    rw [children_attach howner]
    by_cases ha : a = owner
    · rw [if_pos ha]
      apply nodup_nodes_middle (hlist ▸ h.once owner)
      rintro x rfl
      rw [← hlist]
      exact h.not_lists_of_detached hloose.2.1
    · rw [if_neg ha]
      exact h.once a
  case acyclic =>
    intro a hcycle
    rcases way_attach howner hlist hcycle with hold | ⟨x, rfl, hax, hxa⟩
    · exact h.acyclic a hold
    · exact hloose.2.2 (hxa.trans hax)

/-- What is taken away stands in no other list, and at no other place of its own. -/
theorem not_lists_detach (h : t.Agrees) (howner : owner < t.size)
    (hlist : t.children owner = X ++ cs ++ Y) {a b : NodeId} (hb : .node b ∈ cs) :
    ¬ (t.detach owner X cs Y).Lists a b := by
  intro hab
  have hlists : t.Lists owner b := by
    rw [Lists, hlist]
    simp [hb]
  rw [Lists, children_detach howner] at hab
  by_cases ha : a = owner
  · rw [if_pos ha] at hab
    have hcount := h.count_eq_one hlists
    rw [hlist, List.count_append, List.count_append] at hcount
    have hinside := List.count_pos_iff.2 hb
    have houtside := List.count_pos_iff.2 hab
    rw [List.count_append] at houtside
    omega
  · rw [if_neg ha] at hab
    exact ha (h.owner_eq hlists hab)

/-- Entries that follow each other can lose their places. -/
theorem detached (h : t.Agrees) (howner : owner < t.size)
    (hlist : t.children owner = X ++ cs ++ Y) : (t.detach owner X cs Y).Agrees := by
  constructor
  case parent_iff =>
    intro b a
    rw [parent_detach]
    by_cases hb : .node b ∈ cs
    · simp [hb, h.not_lists_detach howner hlist hb]
    · rw [if_neg hb, h.parent_iff]
      refine ⟨fun hab => ?_, lists_of_detach howner hlist⟩
      rw [Lists, children_detach howner]
      split
      next ha =>
        subst ha
        rw [Lists, hlist] at hab
        simp only [List.mem_append, hb, or_false] at hab
        exact List.mem_append.2 hab
      next => exact hab
  case once =>
    intro a
    rw [children_detach howner]
    split
    · have honce := h.once owner
      rw [hlist] at honce
      exact (sublist_detached.filterMap _).nodup honce
    · exact h.once a
  case acyclic =>
    intro a hcycle
    exact h.acyclic a (TransGen.mono (fun _ _ => lists_of_detach howner hlist) _ _ hcycle)

theorem empty : Tree.empty.Agrees := by
  have hnone : ∀ a b, ¬ Tree.empty.Lists a b := by
    intro a b hab
    obtain rfl : a = 0 := Nat.lt_one_iff.1 (lt_size_of_children_ne_nil (List.ne_nil_of_mem hab))
    cases hab
  have hparent : ∀ b, Tree.empty.parent b = none := by
    intro b
    by_contra hb
    obtain rfl : b = 0 := Nat.lt_one_iff.1 (lt_size_of_parent_ne_none hb)
    exact hb rfl
  constructor
  case parent_iff =>
    intro b a
    simp [hparent, hnone]
  case once =>
    intro a
    have hnodes : (Tree.empty.children a).filterMap Child.node? = [] := by
      rw [List.filterMap_eq_nil_iff]
      rintro (b | s) hb
      · exact absurd hb (hnone a b)
      · rfl
    rw [hnodes]
    exact List.nodup_nil
  case acyclic =>
    intro a hcycle
    obtain ⟨b, hab, -⟩ := TransGen.head'_iff.1 hcycle
    exact hnone a b hab

end Agrees

/-! Runs of such changes. -/

/-- The second tree comes from the first one by giving children a place, of which `given` holds, and
by taking entries out of lists. -/
inductive Relinked (given : Child → Prop) (t : Tree) : Tree → Prop
  | refl : Relinked given t t
  | same {t' t'' : Tree} (h : Relinked given t t') (hsize : t'.size ≤ t''.size)
      (hchildren : ∀ x, t''.children x = t'.children x)
      (hparent : ∀ x, t''.parent x = t'.parent x) : Relinked given t t''
  | attach {t' : Tree} {owner : NodeId} {X Y : List Child} {child : Child}
      (h : Relinked given t t') (howner : owner < t'.size) (hlist : t'.children owner = X ++ Y)
      (hloose : t'.Loose owner child) (hgiven : given child) :
      Relinked given t (t'.attach owner X child Y)
  | detach {t' : Tree} {owner : NodeId} {X cs Y : List Child} (h : Relinked given t t')
      (howner : owner < t'.size) (hlist : t'.children owner = X ++ cs ++ Y) :
      Relinked given t (t'.detach owner X cs Y)

variable {given : Child → Prop}

theorem Relinked.agrees (h : Relinked given t t') (ht : t.Agrees) : t'.Agrees := by
  induction h with
  | refl => exact ht
  | same _ _ hchildren hparent ih => exact ih.of_eq hchildren hparent
  | attach _ howner hlist hloose _ ih => exact ih.attached howner hlist hloose
  | detach _ howner hlist ih => exact ih.detached howner hlist

theorem Relinked.size_le (h : Relinked given t t') : t.size ≤ t'.size := by
  induction h with
  | refl => exact Nat.le_refl _
  | same _ hsize _ _ ih => exact Nat.le_trans ih hsize
  | attach _ _ _ _ _ ih =>
    rw [size_attach]
    exact ih
  | detach _ _ _ ih =>
    rw [size_detach]
    exact ih

/-- A node without a parent that is given no place stays without. -/
theorem Relinked.parent_eq_none (h : Relinked given t t') (hid : t.parent id = none)
    (hgiven : ¬ given (.node id)) : t'.parent id = none := by
  induction h with
  | refl => exact hid
  | same _ _ _ hparent ih => rw [hparent, ih]
  | attach _ _ _ hloose hchild ih =>
    rw [parent_attach hloose.lt_size, if_neg, ih]
    rintro rfl
    exact hgiven hchild
  | detach _ _ _ ih =>
    rw [parent_detach, ih, ite_self]

/-! What each edit does. -/

theorem relinked_add (kind : Kind) : Relinked given t (t.add kind).2 := by
  have hnode : ∀ x, (t.add kind).2.children x = t.children x ∧
      (t.add kind).2.parent x = t.parent x := by
    intro x
    rw [children_eq, parent_eq, node_add]
    split
    next hx =>
      subst hx
      simp [children, parent, node, size]
    next => exact ⟨rfl, rfl⟩
  apply Relinked.refl.same
  · rw [size_add]
    exact Nat.le_succ t.size
  · exact fun x => (hnode x).1
  · exact fun x => (hnode x).2

theorem relinked_setKind (id : NodeId) (kind : Kind) : Relinked given t (t.setKind id kind) := by
  apply Relinked.refl.same
  · rw [size_setKind]
  · intro x
    rw [children_eq, setKind, node_update]
    split <;> rfl
  · intro x
    rw [parent_eq, setKind, node_update]
    split <;> rfl

theorem relinked_push (howner : owner < t.size) (hloose : t.Loose owner child)
    (hgiven : given child) : Relinked given t ((push owner child).after t) := by
  rw [Edit.after, push_eq]
  split_ifs
  · exact .refl
  · exact .attach .refl howner (List.append_nil _).symm hloose hgiven

theorem relinked_insertChild (howner : owner < t.size) (hlist : t.children owner = X ++ Y)
    (hloose : t.Loose owner child) (hgiven : given child) :
    Relinked given t ((insertChild owner X.length child).after t) := by
  rw [Edit.after, insertChild_eq hlist]
  split_ifs
  · exact .refl
  · exact .attach .refl howner hlist hloose hgiven

theorem relinked_replaceChild {old : Child} (howner : owner < t.size)
    (hlist : t.children owner = X ++ old :: Y) (hloose : t.Loose owner child)
    (hgiven : given child) :
    Relinked given t ((replaceChild owner X.length child).after t) := by
  rw [Edit.after, replaceChild_eq hlist]
  split_ifs
  · exact .refl
  · have hlist' : (t.attach owner X child (old :: Y)).children owner =
        (X ++ [child]) ++ [old] ++ Y := by
      rw [children_attach howner]
      simp
    apply Relinked.detach (.attach .refl howner hlist hloose hgiven) _ hlist'
    rw [size_attach]
    exact howner

theorem relinked_setChild {old : Child} (howner : owner < t.size)
    (hlist : t.children owner = X ++ old :: Y) (hloose : t.Loose owner child)
    (hgiven : given child) : Relinked given t ((setChild owner X.length child).after t) := by
  have hafter : (setChild owner X.length child).after t =
      (replaceChild owner X.length child).after t := by
    simp only [Edit.after, setChild, bind, EStateM.bind]
    cases replaceChild owner X.length child t <;> rfl
  rw [hafter]
  exact relinked_replaceChild howner hlist hloose hgiven

theorem relinked_removeChild {old : Child} (howner : owner < t.size)
    (hlist : t.children owner = X ++ old :: Y) :
    Relinked given t ((removeChild owner X.length).after t) := by
  rw [Edit.after, removeChild_eq hlist]
  exact .detach .refl howner (by simpa using hlist)

theorem relinked_clearChildren (howner : owner < t.size) :
    Relinked given t ((clearChildren owner).after t) := by
  rw [Edit.after, clearChildren_eq]
  exact .detach .refl howner (by simp)

/-- Loose children that are all different can be given places one after the other, up to the
first failure. -/
theorem Relinked.insertChildren {t₀ : Tree} (hnd : (cs.filterMap Child.node?).Nodup)
    (h : Relinked given t₀ t) (howner : owner < t.size) (hlist : t.children owner = X ++ Y)
    (hloose : ∀ c ∈ cs, t.Loose owner c) (hgiven : ∀ c ∈ cs, given c) :
    Relinked given t₀ ((insertChildren owner X.length cs).after t) := by
  induction cs generalizing t X with
  | nil => exact h
  | cons c rest ih =>
    have hc := hloose c (List.mem_cons_self ..)
    by_cases hname : t.name owner = .separator
    · have hstep : insertChild owner X.length c t = .error .childOfSeparator t := by
        rw [insertChild_eq hlist, if_pos hname]
      rw [Edit.after, Tree.insertChildren, bind_of_error hstep]
      exact h
    · have hstep : insertChild owner X.length c t = .ok () (t.attach owner X c Y) := by
        rw [insertChild_eq hlist, if_neg hname]
      have hlist' : (t.attach owner X c Y).children owner = (X ++ [c]) ++ Y := by
        rw [children_attach howner]
        simp
      have hrest : ∀ c' ∈ rest, (t.attach owner X c Y).Loose owner c' := by
        intro c' hc'
        apply (hloose c' (List.mem_cons_of_mem c hc')).attach howner hlist hc
        intro x hcx hcx'
        subst hcx hcx'
        exact (List.nodup_cons.1 hnd).1 (mem_filterMap_node?_iff.2 hc')
      have hnd' : (rest.filterMap Child.node?).Nodup := by
        exact ((List.sublist_cons_self c rest).filterMap _).nodup hnd
      have hattached := h.attach howner hlist hc (hgiven c (List.mem_cons_self ..))
      have hrun := ih hnd' hattached (by rw [size_attach]; exact howner) hlist' hrest
        fun c' hc' => hgiven c' (List.mem_cons_of_mem c hc')
      rw [List.length_append] at hrun
      rw [Edit.after, Tree.insertChildren, bind_of_ok hstep]
      exact hrun

namespace Agrees

/-- Where a node stands whose parent is known. -/
theorem exists_place (h : t.Agrees) (hparent : t.parent id = some owner) :
    id < t.size ∧ owner < t.size ∧ owner ≠ id ∧
      ∃ X Y, t.children owner = X ++ .node id :: Y ∧ .node id ∉ X := by
  have hlists : t.Lists owner id := h.parent_iff.1 hparent
  refine ⟨h.lt_size hlists, lt_size_of_children_ne_nil (List.ne_nil_of_mem hlists), ?_, ?_⟩
  · rintro rfl
    exact h.acyclic owner (.single hlists)
  · exact List.eq_append_cons_of_mem hlists

/-- A node's children become loose together with its place. -/
theorem loose_of_uprooted (h : t.Agrees) (hparent : t.parent id = some owner)
    (hlist : t.children owner = X ++ .node id :: Y) :
    ∀ c ∈ t.children id, (t.uproot owner X id Y).Loose owner c := by
  obtain ⟨hid, howner, hne, -⟩ := h.exists_place hparent
  rintro (x | s) hx
  · have hbelow : t.Lists id x := hx
    refine ⟨?_, ?_, ?_⟩
    · rw [size_uproot]
      exact h.lt_size hbelow
    · rw [uproot, parent_detach, parent_detach, if_pos hx, ite_self]
    · -- a way down to the owner would lead on to the node and back
      intro hway
      have hsame := (children_detach_all hid hne).trans hlist
      have hold : ∀ a b, (t.uproot owner X id Y).Lists a b → t.Lists a b := by
        intro a b hab
        have howner' : owner < (t.detach id [] (t.children id) []).size := by
          rw [size_detach]
          exact howner
        have hmiddle := lists_of_detach howner' (by simpa using hsame) hab
        exact lists_of_detach hid (by simp) hmiddle
      have hdown := ReflTransGen.mono hold x owner hway
      exact h.acyclic owner (.head' (h.parent_iff.1 hparent) (.head hbelow hdown))
  · trivial

theorem relinked_replaceWithChildren (h : t.Agrees) (id : NodeId) :
    Relinked (· ∈ t.children id) t ((replaceWithChildren id).after t) := by
  cases hparent : t.parent id with
  | none =>
    simp only [Edit.after, replaceWithChildren, hparent]
    exact .refl
  | some owner =>
    obtain ⟨hid, howner, hne, X, Y, hlist, hX⟩ := h.exists_place hparent
    have hemptied : Relinked (· ∈ t.children id) t (t.detach id [] (t.children id) []) :=
      .detach .refl hid (by simp)
    have huprooted : Relinked (· ∈ t.children id) t (t.uproot owner X id Y) := by
      apply hemptied.detach
      · rw [size_detach]
        exact howner
      · rw [children_detach_all hid hne, hlist]
        simp
    have hleft : (t.uproot owner X id Y).children owner = X ++ Y := by
      rw [uproot, children_detach (by rw [size_detach]; exact howner), if_pos rfl]
    rw [Edit.after, replaceWithChildren_eq_insertChildren hid hne hparent hX hlist]
    apply huprooted.insertChildren (h.once id) (by rw [size_uproot]; exact howner) hleft
    · exact h.loose_of_uprooted hparent hlist
    · exact fun _ hc => hc

end Agrees

namespace Linked

theorem agrees (h : t.Linked) : t.Agrees := ⟨h.parent_iff, h.once, h.acyclic⟩

theorem owner_eq (h : t.Linked) {other : NodeId} (hlists : t.Lists owner id)
    (hlists' : t.Lists other id) : other = owner := h.agrees.owner_eq hlists hlists'

theorem not_lists_of_detached (h : t.Linked) (hid : t.parent id = none) : ¬ t.Lists owner id :=
  h.agrees.not_lists_of_detached hid

theorem count_eq_one (h : t.Linked) (hlists : t.Lists owner id) :
    (t.children owner).count (.node id) = 1 := h.agrees.count_eq_one hlists

theorem empty : Tree.empty.Linked :=
  ⟨Nat.zero_lt_one, rfl, Agrees.empty.parent_iff, Agrees.empty.once, Agrees.empty.acyclic⟩

/-- The root is kept as long as it is given no place itself. -/
theorem relinked (h : t.Linked) (hrelinked : Relinked given t t') (hgiven : ¬ given (.node root)) :
    t'.Linked := by
  have hagrees := hrelinked.agrees h.agrees
  constructor
  case root_in_use => exact Nat.lt_of_lt_of_le h.root_in_use hrelinked.size_le
  case root_parent => exact hrelinked.parent_eq_none h.root_parent hgiven
  case parent_iff => exact hagrees.parent_iff
  case once => exact hagrees.once
  case acyclic => exact hagrees.acyclic

end Linked

/-! What each call does. -/

/-- The call names nodes and positions that are in use, and a node that it hands over has no place
and does not lie above the one that it is handed to. -/
def Permits (t : Tree) : Operation → Prop
  | .add _ => True
  | .setKind id _ => id < t.size
  | .push owner child => owner < t.size ∧ t.Loose owner child
  | .insertChild owner position child =>
    owner < t.size ∧ position ≤ (t.children owner).length ∧ t.Loose owner child
  | .setChild owner position child | .replaceChild owner position child =>
    owner < t.size ∧ position < (t.children owner).length ∧ t.Loose owner child
  | .removeChild owner position => owner < t.size ∧ position < (t.children owner).length
  | .clearChildren owner => owner < t.size
  | .replaceWithChildren id => id < t.size

/-- The children for which the call looks for a place. -/
def moved (t : Tree) : Operation → List Child
  | .push _ child | .insertChild _ _ child | .setChild _ _ child | .replaceChild _ _ child =>
    [child]
  | .replaceWithChildren id => t.children id
  | .add _ | .setKind _ _ | .removeChild _ _ | .clearChildren _ => []

theorem exists_eq_append_cons {position : Nat} (h : position < cs.length) :
    ∃ X c Y, cs = X ++ c :: Y ∧ X.length = position := by
  refine ⟨cs.take position, cs.get ⟨position, h⟩, cs.drop (position + 1), ?_, ?_⟩
  · rw [List.get_eq_getElem, List.getElem_cons_drop, List.take_append_drop]
  · rw [List.length_take]
    omega

theorem exists_eq_append {position : Nat} (h : position ≤ cs.length) :
    ∃ X Y, cs = X ++ Y ∧ X.length = position := by
  refine ⟨cs.take position, cs.drop position, (List.take_append_drop position cs).symm, ?_⟩
  rw [List.length_take]
  exact Nat.min_eq_left h

theorem Agrees.relinked_run (h : t.Agrees) {op : Operation} (hpermitted : t.Permits op) :
    Relinked (· ∈ t.moved op) t (op.run t) := by
  cases op with
  | add kind => exact relinked_add kind
  | setKind id kind => exact relinked_setKind id kind
  | push owner child => exact relinked_push hpermitted.1 hpermitted.2 (List.mem_singleton_self _)
  | insertChild owner position child =>
    obtain ⟨howner, hposition, hloose⟩ := hpermitted
    obtain ⟨X, Y, hlist, rfl⟩ := exists_eq_append hposition
    exact relinked_insertChild howner hlist hloose (List.mem_singleton_self _)
  | setChild owner position child =>
    obtain ⟨howner, hposition, hloose⟩ := hpermitted
    obtain ⟨X, old, Y, hlist, rfl⟩ := exists_eq_append_cons hposition
    exact relinked_setChild howner hlist hloose (List.mem_singleton_self _)
  | replaceChild owner position child =>
    obtain ⟨howner, hposition, hloose⟩ := hpermitted
    obtain ⟨X, old, Y, hlist, rfl⟩ := exists_eq_append_cons hposition
    exact relinked_replaceChild howner hlist hloose (List.mem_singleton_self _)
  | removeChild owner position =>
    obtain ⟨howner, hposition⟩ := hpermitted
    obtain ⟨X, old, Y, hlist, rfl⟩ := exists_eq_append_cons hposition
    exact relinked_removeChild howner hlist
  | clearChildren owner => exact relinked_clearChildren hpermitted
  | replaceWithChildren id => exact h.relinked_replaceWithChildren id

end HtmlMarkdown.Document.Tree
