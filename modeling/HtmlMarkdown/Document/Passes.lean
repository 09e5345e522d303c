import HtmlMarkdown.Document.EdgeCount

/-!
The passes that bring a converted document into normal form: neighbouring texts are joined, long
dashes are spelled with hyphens, links without contents (or all links) and ordered lists give
way to their children, and line breaks become separators or go.

A pass works on the children of one node. `Tree.visit` runs it on a node and then on each of the
children that the node has afterwards, and `Tree.normalize` runs one pass after the other over
the whole tree.
-/
namespace HtmlMarkdown.Document

/-- Joins every run of neighbouring texts into one text. -/
def joinTexts : List Child → List Child
  | [] => []
  | .node id :: rest => .node id :: joinTexts rest
  | .text first :: rest =>
    match joinTexts rest with
    | .text second :: more => .text (first ++ second) :: more
    | joined => .text first :: joined

/-- Writes each em dash of a text as two hyphens. -/
def spellDashes (s : String) : String :=
  String.ofList (s.toList.flatMap fun c => if c = '—' then ['-', '-'] else [c])

def Child.spellDashes : Child → Child
  | .text contents => .text (Document.spellDashes contents)
  | .node id => .node id

namespace Tree

/-- Rewrites the texts among a node's children. A separator cannot take the rewritten texts. -/
def rewriteTexts (f : List Child → List Child) (owner : NodeId) : Edit Unit := fun t =>
  let children := f (t.children owner)
  if children = t.children owner then .ok () t
  else if t.name owner = .separator then .error .childOfSeparator t
  else .ok () (t.setChildren owner children)

def concatenateStrings : NodeId → Edit Unit := rewriteTexts joinTexts

def replaceEmDashes : NodeId → Edit Unit := rewriteTexts (·.map Child.spellDashes)

/-- A link that would show nothing, such as a named anchor. -/
def isEmptyLink (t : Tree) : Child → Bool
  | .node id => t.name id == .link && (t.children id).isEmpty
  | .text _ => false

/-- Takes the children that satisfy `p` out of a node's list. -/
def dropChildren (p : Child → Bool) (owner : NodeId) (t : Tree) : Tree :=
  let gone := (t.children owner).filter p
  let kept := (t.children owner).filter fun child => !p child
  (t.setChildren owner kept).reparent gone none

def removeEmptyLinks (owner : NodeId) : Edit Unit := fun t =>
  .ok () (t.dropChildren t.isEmptyLink owner)

/-- Goes along the children of `owner` from the given position and lets every node of the given
name give its place to its children, which are looked at next. Before that the node is made ready
by `prepare`, which leaves all lists of children alone. -/
def dissolveFrom (name : Kind.Name) (prepare : NodeId → Tree → Tree)
    (keeps : ∀ id t, (prepare id t).edgeCount = t.edgeCount)
    (owner : NodeId) (position : Nat) (t : Tree) : EStateM.Result Fault Tree Unit :=
  match h : (t.children owner)[position]? with
  | none => .ok () t
  | some (.text _) => dissolveFrom name prepare keeps owner (position + 1) t
  | some (.node id) =>
    if t.name id = name then
      match _hr : replaceWithChildren id (prepare id t) with
      | .ok () t' => dissolveFrom name prepare keeps owner position t'
      | .error fault t' => .error fault t'
    else dissolveFrom name prepare keeps owner (position + 1) t
termination_by (t.edgeCount, (t.children owner).length - position)
decreasing_by
  · have := (List.getElem?_eq_some_iff.1 h).1
    apply Prod.Lex.right
    omega
  · have := edgeCount_replaceWithChildren _hr
    rw [keeps] at this
    apply Prod.Lex.left
    omega
  · have := (List.getElem?_eq_some_iff.1 h).1
    apply Prod.Lex.right
    omega

/-- Replaces every link by its contents. -/
def removeLinks (owner : NodeId) : Edit Unit :=
  dissolveFrom .link (fun _ t => t) (fun _ _ => rfl) owner 0

/-- Turns the list items among the given children into numbered items, counting from `number`. -/
def numberItems (number : Nat) : List Child → Tree → Tree
  | [], t => t
  | .text _ :: rest, t => numberItems number rest t
  | .node id :: rest, t =>
    if t.name id = .listItem then
      numberItems (number + 1) rest (t.setKind id (.numberedItem number))
    else numberItems number rest t

theorem edgeCount_numberItems (number : Nat) (items : List Child) (t : Tree) :
    (t.numberItems number items).edgeCount = t.edgeCount := by
  fun_induction numberItems number items t with
  | case1 => rfl
  | case2 _ _ _ _ ih => exact ih
  | case3 _ _ _ _ _ ih => rw [ih, edgeCount_setKind]
  | case4 _ _ _ _ _ ih => exact ih

/-- Replaces every ordered list by its items, numbered from one. -/
def numberLists (owner : NodeId) : Edit Unit :=
  dissolveFrom .orderedList (fun list t => t.numberItems 1 (t.children list))
    (fun _ _ => edgeCount_numberItems ..) owner 0

/-- In a preformatted node whose only child is code, the code gives its place to its contents. -/
def collapseCodeInsidePre (owner : NodeId) : Edit Unit := fun t =>
  match t.children owner with
  | [.node code] =>
    if t.name owner = .preformatted ∧ t.name code = .code then replaceWithChildren code t
    else .ok () t
  | _ => .ok () t

/-- The children of a node with each pair of neighbouring breaks replaced by a new separator and
each break left over dropped. The separators take the numbers from `fresh` on. -/
def pairBreaks (isBreak : Child → Bool) (fresh : NodeId) : List Child → List Child
  | [] => []
  | [child] => if isBreak child then [] else [child]
  | first :: second :: rest =>
    if !isBreak first then first :: pairBreaks isBreak fresh (second :: rest)
    else if isBreak second then .node fresh :: pairBreaks isBreak (fresh + 1) rest
    else pairBreaks isBreak fresh (second :: rest)

/-- The children before the first pair of neighbouring breaks, and those after its second break,
if there is a pair. -/
def firstPair? (isBreak : Child → Bool) : List Child → Option (List Child × Child × List Child)
  | [] => none
  | [_] => none
  | first :: second :: rest =>
    if isBreak first && isBreak second then some ([], first, second :: rest)
    else (firstPair? isBreak (second :: rest)).map fun (before, pair) => (first :: before, pair)

/-- Puts `count` new separators behind the other nodes. -/
def addSeparators (t : Tree) : (count : Nat) → Tree
  | 0 => t
  | count + 1 => (t.add .separator).2.addSeparators count

/-- A child whose number is not in use yet. -/
def isFresh (t : Tree) : Child → Bool
  | .node id => t.size ≤ id
  | .text _ => false

/-- Makes a separator of every two neighbouring line breaks; a single line break goes. A node
that is a separator itself cannot take the new one: the work stops at the first pair, whose
second break is gone by then. -/
def twoBreaksMakeOneSeparator (owner : NodeId) : Edit Unit := fun t =>
  let old := t.children owner
  let isBreak := fun child => t.isNamed child .lineBreak
  match t.name owner, firstPair? isBreak old with
  | .separator, some (before, first, after) =>
    let kept := before.filter fun child => !isBreak child
    let gone := before.filter isBreak ++ after.take 1
    .error .childOfSeparator
      ((((t.add .separator).2).setChildren owner (kept ++ first :: after.drop 1)).reparent gone none)
  | _, _ =>
    let paired := pairBreaks isBreak t.size old
    let separators := paired.filter t.isFresh
    let grown := t.addSeparators separators.length
    .ok () (((grown.setChildren owner paired).reparent (old.filter isBreak) none).reparent
      separators (some owner))

/-- Runs a pass on a node, then on the children that it has afterwards, and so on downwards,
to the given depth. -/
def visitTo (pass : NodeId → Edit Unit) : (depth : Nat) → NodeId → Edit Unit
  | 0, _ => pure ()
  | depth + 1, id => do
    pass id
    let children := (← get).children id
    (children.filterMap Child.node?).forM (visitTo pass depth)

/-- Runs a pass on everything below a node, the node first. -/
def visit (pass : NodeId → Edit Unit) (id : NodeId) : Edit Unit := do
  visitTo pass (← get).size id

/-- The passes in the order in which they run. The last joins texts that the others have made
neighbours. -/
def passes (withoutLinks : Bool) : List (NodeId → Edit Unit) :=
  [concatenateStrings, replaceEmDashes, removeEmptyLinks]
    ++ (if withoutLinks then [removeLinks] else [])
    ++ [collapseCodeInsidePre, numberLists, twoBreaksMakeOneSeparator, concatenateStrings]

/-- Brings the whole tree into normal form. -/
def normalize (withoutLinks : Bool) : Edit Unit :=
  (passes withoutLinks).forM fun pass => visit pass root

end Tree
end HtmlMarkdown.Document
