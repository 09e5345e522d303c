import HtmlMarkdown.Proofs.Forest
import Mathlib.Data.List.Nodup
import Mathlib.Logic.Relation

/-!
The changes that all passes are made of: joining and spelling texts, dissolving a node into what
lies below it, numbering an item, pairing and dropping line breaks. Each law says what one change
keeps, and then what any run of changes keeps.
-/
namespace HtmlMarkdown.Document

/-- Nodes of these kinds may give their place to what lies below them. -/
def Kind.dissolves (k : Kind) : Bool :=
  k.name == .link || k.name == .orderedList || k.name == .code

/-- Nodes of these kinds stay, unless they are below a line break. -/
def Kind.lasts (k : Kind) : Bool := !k.dissolves && k.name != .lineBreak

/-- A kind may only turn from a list item into a numbered item. -/
def Kind.Becomes (before after : Kind) : Prop :=
  after = before ∨ before = .listItem ∧ ∃ i, after = .numberedItem i

theorem Kind.Becomes.trans {a b c : Kind} (h : a.Becomes b) (h' : b.Becomes c) : a.Becomes c := by
  rcases h' with rfl | ⟨rfl, i, rfl⟩
  · exact h
  · rcases h with rfl | ⟨rfl, j, hj⟩
    · exact Or.inr ⟨rfl, i, rfl⟩
    · cases hj

namespace Forest

/-- One change, anywhere in a forest. New nodes have numbers from `n` on. -/
inductive Rewrite (n : NodeId) : Forest → Forest → Prop
  | join (s u : String) (F : Forest) : Rewrite n (text s (text u F)) (text (s ++ u) F)
  | spell (s : String) (F : Forest) : Rewrite n (text s F) (text (spellDashes s) F)
  | dissolve (id : NodeId) (k : Kind) (F G : Forest) (hk : k.dissolves) :
      Rewrite n (node id k F G) (F ++ G)
  | number (id : NodeId) (i : Nat) (F G : Forest) :
      Rewrite n (node id .listItem F G) (node id (.numberedItem i) F G)
  | pair (i j fresh : NodeId) (F G H : Forest) (hfresh : n ≤ fresh) :
      Rewrite n (node i .lineBreak F (node j .lineBreak G H)) (node fresh .separator nil H)
  | drop (id : NodeId) (F G : Forest) : Rewrite n (node id .lineBreak F G) G
  | behindText {F G : Forest} (s : String) (h : Rewrite n F G) : Rewrite n (text s F) (text s G)
  | inside {F G : Forest} (id : NodeId) (k : Kind) (rest : Forest) (h : Rewrite n F G) :
      Rewrite n (node id k F rest) (node id k G rest)
  | behindNode {F G : Forest} (id : NodeId) (k : Kind) (F' : Forest) (h : Rewrite n F G) :
      Rewrite n (node id k F' F) (node id k F' G)

/-- Any number of changes, one after the other. -/
abbrev Rewrites (n : NodeId) : Forest → Forest → Prop := Relation.ReflTransGen (Rewrite n)

variable {n : NodeId} {F G H : Forest}

namespace Rewrites

theorem behindText (s : String) (h : Rewrites n F G) : Rewrites n (text s F) (text s G) :=
  h.lift (text s) fun _ _ hstep => hstep.behindText s

theorem inside (id : NodeId) (k : Kind) (rest : Forest) (h : Rewrites n F G) :
    Rewrites n (node id k F rest) (node id k G rest) :=
  h.lift (node id k · rest) fun _ _ hstep => hstep.inside id k rest

theorem behindNode (id : NodeId) (k : Kind) (F' : Forest) (h : Rewrites n F G) :
    Rewrites n (node id k F' F) (node id k F' G) :=
  h.lift (node id k F') fun _ _ hstep => hstep.behindNode id k F'

/-- What each change keeps, a run of changes keeps. -/
theorem invariant {p : Forest → Prop} (hp : ∀ F G, Rewrite n F G → p F → p G)
    (h : Rewrites n F G) (hF : p F) : p G := by
  induction h with
  | refl => exact hF
  | tail _ hstep ih => exact hp _ _ hstep ih

end Rewrites

/-! What is below nothing stays nothing, and what is below separators stays away. -/

theorem Rewrite.ne_nil (h : Rewrite n F G) : F ≠ nil := by
  cases h <;> simp

/-- A node that lasts and is no item stays as it is; what changes lies below it. -/
theorem Rewrites.below {id : NodeId} {k : Kind} (hk : k.lasts) (hitem : k ≠ .listItem)
    (h : Rewrites n (node id k F nil) G) : ∃ F', G = node id k F' nil ∧ Rewrites n F F' := by
  induction h with
  | refl => exact ⟨F, rfl, .refl⟩
  | tail _ hstep ih =>
    obtain ⟨F₁, rfl, hrun⟩ := ih
    cases hstep with
    | dissolve _ _ _ _ hdissolves => simp [Kind.lasts, hdissolves] at hk
    | number => exact absurd rfl hitem
    | drop => simp [Kind.lasts, Kind.name] at hk
    | inside _ _ _ h => exact ⟨_, rfl, hrun.tail h⟩
    | behindNode _ _ _ h => exact absurd rfl h.ne_nil

theorem Rewrites.below_document {id : NodeId} (h : Rewrites n (node id .document F nil) G) :
    ∃ F', G = node id .document F' nil ∧ Rewrites n F F' :=
  h.below (by decide) (by simp)

theorem Rewrite.separatorsChildless (h : Rewrite n F G) (hF : F.SeparatorsChildless) :
    G.SeparatorsChildless := by
  unfold SeparatorsChildless at *
  induction h with
  | join | spell => exact hF
  | dissolve id k F G => exact (everywhere_append F G).2 hF.2
  | number id i F G => exact ⟨by simp, hF.2⟩
  | pair => exact ⟨fun _ => rfl, trivial, hF.2.2.2.2⟩
  | drop => exact hF.2.2
  | behindText s h ih => exact ih hF
  | inside id k rest h ih =>
    exact ⟨fun hk => absurd (hF.1 hk) h.ne_nil, ih hF.2.1, hF.2.2⟩
  | behindNode id k F' h ih => exact ⟨hF.1, hF.2.1, ih hF.2.2⟩

theorem Rewrites.separatorsChildless (h : Rewrites n F G) (hF : F.SeparatorsChildless) :
    G.SeparatorsChildless :=
  h.invariant (fun _ _ hstep => hstep.separatorsChildless) hF

/-! Kinds. -/

/-- Every node has a kind that satisfies `p`. -/
def AllKinds (p : Kind → Prop) : Forest → Prop := Everywhere fun k _ => p k

/-- The same, said of each list of children. -/
theorem allKinds_iff {p : Kind → Prop} : F.AllKinds p ↔
    (∀ k ∈ F.topKinds, p k) ∧ F.Everywhere fun _ below => ∀ k ∈ below.topKinds, p k := by
  unfold AllKinds
  induction F with
  | nil => simp [topKinds, Everywhere]
  | text s rest ih => simpa [topKinds, Everywhere] using ih
  | node id k below rest ihb ihr =>
    simp only [topKinds, Everywhere, ihb, ihr, List.mem_cons, forall_eq_or_imp]
    tauto

theorem Rewrite.allKinds {p : Kind → Prop} (hnumber : p .listItem → ∀ i, p (.numberedItem i))
    (hseparator : p .separator) (h : Rewrite n F G) (hF : F.AllKinds p) : G.AllKinds p := by
  unfold AllKinds at *
  induction h with
  | join | spell => exact hF
  | dissolve id k F G => exact (everywhere_append F G).2 hF.2
  | number id i F G => exact ⟨hnumber hF.1 i, hF.2⟩
  | pair => exact ⟨hseparator, trivial, hF.2.2.2.2⟩
  | drop => exact hF.2.2
  | behindText s h ih => exact ih hF
  | inside id k rest h ih => exact ⟨hF.1, ih hF.2.1, hF.2.2⟩
  | behindNode id k F' h ih => exact ⟨hF.1, hF.2.1, ih hF.2.2⟩

theorem Rewrites.allKinds {p : Kind → Prop} (hnumber : p .listItem → ∀ i, p (.numberedItem i))
    (hseparator : p .separator) (h : Rewrites n F G) (hF : F.AllKinds p) : G.AllKinds p :=
  h.invariant (fun _ _ hstep => hstep.allKinds hnumber hseparator) hF

/-! Texts. -/

/-- Every text satisfies `p`. -/
def AllTexts (p : String → Prop) : Forest → Prop
  | nil => True
  | text s rest => p s ∧ AllTexts p rest
  | node _ _ below rest => AllTexts p below ∧ AllTexts p rest

@[simp] theorem allTexts_append {p : String → Prop} :
    (F ++ G).AllTexts p ↔ F.AllTexts p ∧ G.AllTexts p := by
  induction F with
  | nil => simp [AllTexts]
  | text s rest ih => simp [AllTexts, ih, and_assoc]
  | node id k below rest _ ih => simp [AllTexts, ih, and_assoc]

/-- The same, said of each list of children. -/
theorem allTexts_iff {p : String → Prop} : F.AllTexts p ↔
    (∀ s, .text s ∈ F.children → p s) ∧
      F.Everywhere fun _ below => ∀ s, .text s ∈ below.children → p s := by
  induction F with
  | nil => simp [AllTexts, children, Everywhere]
  | text s rest ih => simp [AllTexts, children, Everywhere, ih, and_assoc]
  | node id k below rest ihb ihr =>
    simp only [AllTexts, children, Everywhere, ihb, ihr, List.mem_cons, reduceCtorEq, false_or]
    tauto

theorem Rewrite.allTexts {p : String → Prop} (hjoin : ∀ s u, p s → p u → p (s ++ u))
    (hspell : ∀ s, p s → p (spellDashes s)) (h : Rewrite n F G) (hF : F.AllTexts p) :
    G.AllTexts p := by
  induction h with
  | join s u F => exact ⟨hjoin s u hF.1 hF.2.1, hF.2.2⟩
  | spell s F => exact ⟨hspell s hF.1, hF.2⟩
  | dissolve id k F G => exact allTexts_append.2 hF
  | number id i F G => exact hF
  | pair => exact ⟨trivial, hF.2.2⟩
  | drop => exact hF.2
  | behindText s h ih => exact ⟨hF.1, ih hF.2⟩
  | inside id k rest h ih => exact ⟨ih hF.1, hF.2⟩
  | behindNode id k F' h ih => exact ⟨hF.1, ih hF.2⟩

theorem Rewrites.allTexts {p : String → Prop} (hjoin : ∀ s u, p s → p u → p (s ++ u))
    (hspell : ∀ s, p s → p (spellDashes s)) (h : Rewrites n F G) (hF : F.AllTexts p) :
    G.AllTexts p :=
  h.invariant (fun _ _ hstep => hstep.allTexts hjoin hspell) hF

/-! Sizes. -/

theorem Rewrite.depth_le (h : Rewrite n F G) : G.depth ≤ F.depth := by
  induction h with
  | join | spell | number => exact Nat.le_refl _
  | dissolve id k F G =>
    simp only [depth_append, depth]
    omega
  | pair | drop | behindText | inside | behindNode =>
    simp only [depth] at *
    omega

theorem Rewrites.depth_le (h : Rewrites n F G) : G.depth ≤ F.depth := by
  induction h with
  | refl => exact Nat.le_refl _
  | tail _ hstep ih => exact Nat.le_trans hstep.depth_le ih

/-- No change makes more nodes. -/
theorem Rewrite.length_ids_le (h : Rewrite n F G) : G.ids.length ≤ F.ids.length := by
  induction h with
  | join | spell | number => exact Nat.le_refl _
  | dissolve | pair | drop | behindText | inside | behindNode =>
    simp only [ids, ids_append, List.length_cons, List.length_append, List.length_nil] at *
    omega

theorem Rewrites.length_ids_le (h : Rewrites n F G) : G.ids.length ≤ F.ids.length := by
  induction h with
  | refl => exact Nat.le_refl _
  | tail _ hstep ih => exact Nat.le_trans hstep.length_ids_le ih

end Forest
end HtmlMarkdown.Document
