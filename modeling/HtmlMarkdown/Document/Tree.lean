import HtmlMarkdown.Document.Kind

/-!
Document trees. The nodes of a tree live in one array and are named by their index; node 0 is
the root. A node lists its children, each a text or another node, and the link to its parent is
only a back reference. A node that loses its place stays in the array, detached.

An edit that fails may have done a part of its work, so an edit's outcome carries the tree in
both cases. `Tree.node` reads a node, and the lemmas at the end say what each update does to it.
-/
namespace HtmlMarkdown.Document

abbrev NodeId := Nat

/-- An entry in a list of children. -/
inductive Child where
  | node (id : NodeId)
  | text (contents : String)
deriving DecidableEq

def Child.node? : Child → Option NodeId
  | .node id => some id
  | .text _ => none

def Child.text? : Child → Option String
  | .node _ => none
  | .text contents => some contents

structure Node where
  kind : Kind
  children : List Child := []
  parent : Option NodeId := none
deriving DecidableEq

structure Tree where
  nodes : Array Node
deriving DecidableEq

/-- A step on a tree, whose outcome holds the tree even when the step fails. -/
abbrev Edit := EStateM Fault Tree

instance decidableEqResult {ε σ α : Type} [DecidableEq ε] [DecidableEq σ] [DecidableEq α] :
    DecidableEq (EStateM.Result ε σ α)
  | .ok a s, .ok b s' => decidable_of_iff (a = b ∧ s = s') (by simp)
  | .error e s, .error e' s' => decidable_of_iff (e = e' ∧ s = s') (by simp)
  | .ok _ _, .error _ _ => isFalse (by simp)
  | .error _ _, .ok _ _ => isFalse (by simp)

namespace Tree

/-- The tree that holds an empty document and nothing else. -/
def empty : Tree := ⟨#[{ kind := .document }]⟩

def root : NodeId := 0

def size (t : Tree) : Nat := t.nodes.size

/-- The node of the given number. A number that is not in use reads as an empty document. -/
def node (t : Tree) (id : NodeId) : Node := (t.nodes[id]?).getD { kind := .document }

def kind (t : Tree) (id : NodeId) : Kind := (t.node id).kind

def children (t : Tree) (id : NodeId) : List Child := (t.node id).children

def parent (t : Tree) (id : NodeId) : Option NodeId := (t.node id).parent

def name (t : Tree) (id : NodeId) : Kind.Name := (t.kind id).name

/-- True if the child is a node, and of the given name. -/
def isNamed (t : Tree) (child : Child) (name : Kind.Name) : Bool :=
  match child with
  | .node id => t.name id == name
  | .text _ => false

/-! Updates that always succeed. -/

/-- Puts a new, detached node behind the others and returns its number. -/
def add (t : Tree) (kind : Kind) : NodeId × Tree :=
  (t.size, ⟨t.nodes.push { kind := kind }⟩)

def update (t : Tree) (id : NodeId) (f : Node → Node) : Tree := ⟨t.nodes.modify id f⟩

/-- Gives a node another kind; its children and its parent stay. -/
def setKind (t : Tree) (id : NodeId) (kind : Kind) : Tree :=
  t.update id fun n => { n with kind := kind }

def setChildren (t : Tree) (id : NodeId) (children : List Child) : Tree :=
  t.update id fun n => { n with children := children }

/-- Makes `parent` the parent of every node among the given children. -/
def reparent (t : Tree) (children : List Child) (parent : Option NodeId) : Tree :=
  children.foldl (fun t child =>
    match child with
    | .node id => t.update id fun n => { n with parent := parent }
    | .text _ => t) t

/-! Edits. A separator refuses children before anything else is looked at. -/

/-- The child at a position, which must be in use. -/
def childAt (owner : NodeId) (position : Nat) : Edit Child := fun t =>
  match (t.children owner)[position]? with
  | none => .error .outOfRange t
  | some child => .ok child t

/-- Runs an edit that gives `owner` the child, after making `owner` the child's parent. -/
def adopting (owner : NodeId) (child : Child) (edit : Edit α) : Edit α := fun t =>
  if t.name owner = .separator then .error .childOfSeparator t
  else edit (t.reparent [child] (some owner))

/-- Puts a child behind the others. -/
def push (owner : NodeId) (child : Child) : Edit Unit :=
  adopting owner child fun t => .ok () (t.setChildren owner (t.children owner ++ [child]))

/-- Puts a child in front of the one at the given position, or behind the last. -/
def insertChild (owner : NodeId) (position : Nat) (child : Child) : Edit Unit :=
  adopting owner child fun t =>
    let old := t.children owner
    if position ≤ old.length then
      .ok () (t.setChildren owner (old.take position ++ child :: old.drop position))
    else .error .outOfRange t

/-- Puts a child in the place of another, which it returns detached. -/
def replaceChild (owner : NodeId) (position : Nat) (child : Child) : Edit Child :=
  adopting owner child fun t =>
    match (t.children owner)[position]? with
    | none => .error .outOfRange t
    | some old =>
      .ok old ((t.setChildren owner ((t.children owner).set position child)).reparent [old] none)

def setChild (owner : NodeId) (position : Nat) (child : Child) : Edit Unit := do
  let _ ← replaceChild owner position child

/-- Takes a child out of its list and returns it detached. -/
def removeChild (owner : NodeId) (position : Nat) : Edit Child := fun t =>
  match (t.children owner)[position]? with
  | none => .error .outOfRange t
  | some old =>
    .ok old ((t.setChildren owner ((t.children owner).eraseIdx position)).reparent [old] none)

/-- Detaches all children of a node and returns them in order. -/
def clearChildren (owner : NodeId) : Edit (List Child) := fun t =>
  let old := t.children owner
  .ok old ((t.setChildren owner []).reparent old none)

/-- Puts the children into the list of `owner`, the first of them at the given position. -/
def insertChildren (owner : NodeId) (position : Nat) : List Child → Edit Unit
  | [] => pure ()
  | child :: rest => do
    insertChild owner position child
    insertChildren owner (position + 1) rest

/-- Puts a node's children in the node's own place. The node is left detached and empty. -/
def replaceWithChildren (id : NodeId) : Edit Unit := fun t =>
  match t.parent id with
  | none => .error .cannotReplaceRoot t
  | some owner =>
    match (t.children owner).idxOf? (.node id) with
    | none => .error .cannotReplaceRoot t
    | some position =>
      (do let children ← clearChildren id
          let _ ← removeChild owner position
          insertChildren owner position children : Edit Unit) t

/-! Questions about the way up. -/

/-- The node and the nodes above it, at most `bound` of them, the node first. -/
def lineage (t : Tree) : (bound : Nat) → NodeId → List NodeId
  | 0, _ => []
  | bound + 1, id =>
    id :: match t.parent id with
      | none => []
      | some above => t.lineage bound above

/-- True if the node or one above it has the given name. No way up that ends is longer than the
array of nodes. -/
def isOrHasParentNamed (t : Tree) (id : NodeId) (name : Kind.Name) : Bool :=
  (t.lineage t.size id).any fun above => t.name above == name

/-! What updates do to the nodes. -/

theorem node_add (t : Tree) (kind : Kind) (id : NodeId) :
    (t.add kind).2.node id = if id = t.size then { kind := kind } else t.node id := by
  by_cases h : id = t.nodes.size <;> simp [add, node, size, Array.getElem?_push, h]

theorem node_update (t : Tree) (id other : NodeId) (f : Node → Node) :
    (t.update id f).node other =
      if id = other ∧ other < t.size then f (t.node other) else t.node other := by
  simp only [update, node, size, Array.getElem?_modify]
  by_cases h : id = other
  · subst h
    by_cases hs : id < t.nodes.size <;> simp [hs]
  · simp [h]

theorem size_update (t : Tree) (id : NodeId) (f : Node → Node) :
    (t.update id f).size = t.size := by
  simp [update, size]

theorem size_add (t : Tree) (kind : Kind) : (t.add kind).2.size = t.size + 1 := by
  simp [add, size]

end Tree
end HtmlMarkdown.Document
