import HtmlMarkdown.Proofs.Rewriting
import Mathlib.Data.List.Chain

/-!
What each pass does to the forest below one node. Every step is a run of changes. After its step
a pass leaves nothing of its kind in the list it has worked on, and it leaves a list alone where
it finds nothing to do.
-/
namespace HtmlMarkdown.Document

theorem Kind.eq_listItem_iff (k : Kind) : k.name = .listItem ↔ k = .listItem := by
  cases k <;> simp [Kind.name]

theorem Kind.eq_orderedList_iff (k : Kind) : k.name = .orderedList ↔ k = .orderedList := by
  cases k <;> simp [Kind.name]

theorem Kind.eq_lineBreak_iff (k : Kind) : k.name = .lineBreak ↔ k = .lineBreak := by
  cases k <;> simp [Kind.name]

theorem Kind.eq_separator_iff (k : Kind) : k.name = .separator ↔ k = .separator := by
  cases k <;> simp [Kind.name]

/-- No two neighbours are both texts. -/
def NoNeighbouringTexts (cs : List Child) : Prop :=
  cs.IsChain fun a b => a.text? = none ∨ b.text? = none

@[simp] theorem noNeighbouringTexts_nil : NoNeighbouringTexts [] := List.isChain_nil

@[simp] theorem noNeighbouringTexts_node_cons (id : NodeId) (cs : List Child) :
    NoNeighbouringTexts (.node id :: cs) ↔ NoNeighbouringTexts cs := by
  simp [NoNeighbouringTexts, List.isChain_cons, Child.text?]

@[simp] theorem noNeighbouringTexts_text_cons (s : String) (cs : List Child) :
    NoNeighbouringTexts (.text s :: cs) ↔
      (∀ u, cs.head? ≠ some (.text u)) ∧ NoNeighbouringTexts cs := by
  unfold NoNeighbouringTexts
  rw [List.isChain_cons]
  refine and_congr_left fun _ => ?_
  cases cs with
  | nil => simp
  | cons c rest => cases c <;> simp [Child.text?]

/-- A text without an em dash. -/
def NoDash (s : String) : Prop := '—' ∉ s.toList

theorem NoDash.append {s u : String} (hs : NoDash s) (hu : NoDash u) : NoDash (s ++ u) := by
  simp only [NoDash, String.toList_append, List.mem_append, not_or] at *
  exact ⟨hs, hu⟩

theorem noDash_spellDashes (s : String) : NoDash (spellDashes s) := by
  simp only [NoDash, spellDashes, String.toList_ofList, List.mem_flatMap, not_exists, not_and]
  intro c _
  split
  · decide
  · rename_i hc
    simpa using Ne.symm hc

theorem NoDash.spellDashes_eq {s : String} (hs : NoDash s) : spellDashes s = s := by
  have h : ∀ cs : List Char, '—' ∉ cs →
      cs.flatMap (fun c => if c = '—' then ['-', '-'] else [c]) = cs := by
    intro cs
    induction cs with
    | nil => exact fun _ => rfl
    | cons c rest ih =>
      intro hcs
      simp only [List.mem_cons, not_or] at hcs
      simp [Ne.symm hcs.1, ih hcs.2]
  rw [spellDashes, h s.toList hs, String.ofList_toList]

theorem spellDashes_append (s u : String) :
    spellDashes (s ++ u) = spellDashes s ++ spellDashes u := by
  simp [spellDashes, String.toList_append, List.flatMap_append, String.ofList_append]

namespace Forest

variable {n : NodeId} {F G : Forest}

/-! Joining texts. -/

def joinTexts : Forest → Forest
  | nil => nil
  | node id k below rest => node id k below (joinTexts rest)
  | text s rest =>
    match joinTexts rest with
    | text u more => text (s ++ u) more
    | joined => text s joined

theorem children_joinTexts (F : Forest) :
    F.joinTexts.children = Document.joinTexts F.children := by
  induction F with
  | nil => rfl
  | node id k below rest _ ih => simp [joinTexts, children, Document.joinTexts, ih]
  | text s rest ih =>
    simp only [joinTexts, children, Document.joinTexts, ← ih]
    cases joinTexts rest <;> rfl

theorem rewrites_joinTexts (F : Forest) : Rewrites n F F.joinTexts := by
  induction F with
  | nil => exact .refl
  | node id k below rest _ ih => exact ih.behindNode id k below
  | text s rest ih =>
    refine (ih.behindText s).trans ?_
    simp only [joinTexts]
    cases joinTexts rest with
    | nil | node => exact .refl
    | text u more => exact .single (.join s u more)

theorem noNeighbouringTexts_joinTexts (F : Forest) :
    NoNeighbouringTexts F.joinTexts.children := by
  induction F with
  | nil => simp [joinTexts, children]
  | node id k below rest _ ih => simpa [joinTexts, children] using ih
  | text s rest ih =>
    simp only [joinTexts]
    cases hrest : joinTexts rest with
    | nil => simp [children]
    | text u more =>
      rw [hrest] at ih
      simpa [children] using ih
    | node id k below more =>
      rw [hrest] at ih
      simpa [children] using ih

theorem joinTexts_eq_self (h : NoNeighbouringTexts F.children) : F.joinTexts = F := by
  induction F with
  | nil => rfl
  | node id k below rest _ ih =>
    rw [joinTexts, ih (by simpa [children] using h)]
  | text s rest ih =>
    simp only [children, noNeighbouringTexts_text_cons] at h
    rw [joinTexts, ih h.2]
    cases rest with
    | nil | node => rfl
    | text u more => exact absurd rfl (h.1 u)

/-! Spelling dashes. -/

def spellTexts : Forest → Forest
  | nil => nil
  | text s rest => text (spellDashes s) (spellTexts rest)
  | node id k below rest => node id k below (spellTexts rest)

theorem children_spellTexts (F : Forest) :
    F.spellTexts.children = F.children.map Child.spellDashes := by
  induction F with
  | nil => rfl
  | text s rest ih => simp [spellTexts, children, Child.spellDashes, ih]
  | node id k below rest _ ih => simp [spellTexts, children, Child.spellDashes, ih]

theorem rewrites_spellTexts (F : Forest) : Rewrites n F F.spellTexts := by
  induction F with
  | nil => exact .refl
  | text s rest ih => exact (ih.behindText s).trans (.single (.spell s _))
  | node id k below rest _ ih => exact ih.behindNode id k below

theorem noDash_of_mem_spellTexts {s : String} (h : .text s ∈ F.spellTexts.children) :
    NoDash s := by
  rw [children_spellTexts, List.mem_map] at h
  obtain ⟨c, -, hc⟩ := h
  cases c with
  | node => simp [Child.spellDashes] at hc
  | text u =>
    simp only [Child.spellDashes, Child.text.injEq] at hc
    exact hc ▸ noDash_spellDashes u

theorem spellTexts_eq_self (h : ∀ s, .text s ∈ F.children → NoDash s) : F.spellTexts = F := by
  induction F with
  | nil => rfl
  | text s rest ih =>
    rw [spellTexts, (h s (by simp [children])).spellDashes_eq,
      ih fun u hu => h u (by simp [children, hu])]
  | node id k below rest _ ih =>
    rw [spellTexts, ih fun u hu => h u (by simp [children, hu])]

/-! Dropping empty links. -/

def dropEmptyLinks : Forest → Forest
  | nil => nil
  | text s rest => text s (dropEmptyLinks rest)
  | node id k below rest =>
    if k.name = .link ∧ below = nil then dropEmptyLinks rest
    else node id k below (dropEmptyLinks rest)

theorem rewrites_dropEmptyLinks (F : Forest) : Rewrites n F F.dropEmptyLinks := by
  induction F with
  | nil => exact .refl
  | text s rest ih => exact ih.behindText s
  | node id k below rest _ ih =>
    simp only [dropEmptyLinks]
    split
    · rename_i h
      obtain ⟨hk, rfl⟩ := h
      exact .head (.dissolve id k nil rest (by simp [Kind.dissolves, hk])) ih
    · exact ih.behindNode id k below

/-! Dissolving. -/

/-- Every node of the given name in the list gives its place to what lies below it, made ready
by `ready`; what comes out is looked at next. -/
inductive Dissolved (name : Kind.Name) (ready : Forest → Forest) : Forest → Forest → Prop
  | nil : Dissolved name ready nil nil
  | text {F G : Forest} (s : String) (h : Dissolved name ready F G) :
      Dissolved name ready (text s F) (text s G)
  | keep {F G : Forest} (id : NodeId) (k : Kind) (below : Forest) (hk : k.name ≠ name)
      (h : Dissolved name ready F G) : Dissolved name ready (node id k below F) (node id k below G)
  | dissolve {F G : Forest} (id : NodeId) (k : Kind) (below : Forest) (hk : k.name = name)
      (h : Dissolved name ready (ready below ++ F) G) :
      Dissolved name ready (node id k below F) G

namespace Dissolved

variable {name : Kind.Name} {ready : Forest → Forest}

theorem rewrites (hname : ∀ k : Kind, k.name = name → k.dissolves)
    (hready : ∀ F, Rewrites n F (ready F)) (h : Dissolved name ready F G) : Rewrites n F G := by
  induction h with
  | nil => exact .refl
  | text s _ ih => exact ih.behindText s
  | keep id k below _ _ ih => exact ih.behindNode id k below
  | @dissolve F G id k below hk _ ih =>
    have hin := (hready below).inside id k F
    exact (hin.tail (.dissolve id k (ready below) F (hname k hk))).trans ih

theorem name_ne (h : Dissolved name ready F G) : ∀ k ∈ G.topKinds, k.name ≠ name := by
  induction h with
  | nil => simp [topKinds]
  | text s _ ih => exact ih
  | keep id k below hk _ ih => simpa [topKinds] using ⟨hk, ih⟩
  | dissolve _ _ _ _ _ ih => exact ih

theorem eq_self (hF : ∀ k ∈ F.topKinds, k.name ≠ name) (h : Dissolved name ready F G) :
    G = F := by
  induction h with
  | nil => rfl
  | text s _ ih => rw [ih hF]
  | keep id k below _ _ ih => rw [ih fun k' hk' => hF k' (by simp [topKinds, hk'])]
  | dissolve id k below hk _ _ => exact absurd hk (hF k (by simp [topKinds]))

end Dissolved

/-- The list items of a list, numbered from `i` on. -/
def numberFrom (i : Nat) : Forest → Forest
  | nil => nil
  | text s rest => text s (numberFrom i rest)
  | node id k below rest =>
    if k = .listItem then node id (.numberedItem i) below (numberFrom (i + 1) rest)
    else node id k below (numberFrom i rest)

theorem rewrites_numberFrom (i : Nat) (F : Forest) : Rewrites n F (F.numberFrom i) := by
  induction F generalizing i with
  | nil => exact .refl
  | text s rest ih => exact (ih i).behindText s
  | node id k below rest _ ih =>
    simp only [numberFrom]
    split
    · rename_i hk
      subst hk
      exact .head (.number id i below rest) ((ih (i + 1)).behindNode id _ below)
    · exact (ih i).behindNode id k below

@[simp] theorem children_numberFrom (i : Nat) (F : Forest) :
    (F.numberFrom i).children = F.children := by
  induction F generalizing i with
  | nil => rfl
  | text s rest ih => simp [numberFrom, children, ih]
  | node id k below rest _ ih =>
    simp only [numberFrom]
    split <;> simp [children, ih]

@[simp] theorem ids_numberFrom (i : Nat) (F : Forest) : (F.numberFrom i).ids = F.ids := by
  induction F generalizing i with
  | nil => rfl
  | text s rest ih => simp [numberFrom, ids, ih]
  | node id k below rest _ ih =>
    simp only [numberFrom]
    split <;> simp [ids, ih]

@[simp] theorem entries_numberFrom (i : Nat) (F : Forest) :
    (F.numberFrom i).entries = F.entries := by
  induction F generalizing i with
  | nil => rfl
  | text s rest ih => simp [numberFrom, entries, ih]
  | node id k below rest _ ih =>
    simp only [numberFrom]
    split <;> simp [entries, ih]

/-- A code that is alone in a preformatted node gives its place to its contents. -/
def collapseCode (k : Kind) : Forest → Forest
  | node id inner below nil =>
    if k.name = .preformatted ∧ inner.name = .code then below else node id inner below nil
  | F => F

theorem rewrites_collapseCode (k : Kind) (F : Forest) : Rewrites n F (collapseCode k F) := by
  fun_cases collapseCode k F with
  | case1 id inner below h =>
    have hstep := Rewrite.dissolve (n := n) id inner below nil (by simp [Kind.dissolves, h.2])
    rw [append_nil] at hstep
    exact .single hstep
  | case2 | case3 => exact .refl

/-! Pairing line breaks. -/

/-- Every two neighbouring line breaks become a new separator, and a line break that is left over
goes. The separators have the numbers from `fresh` on. -/
def pairBreaks (fresh : NodeId) : Forest → Forest
  | nil => nil
  | text s rest => text s (pairBreaks fresh rest)
  | node _ .lineBreak _ (node _ .lineBreak _ rest) =>
    node fresh .separator nil (pairBreaks (fresh + 1) rest)
  | node _ .lineBreak _ rest => pairBreaks fresh rest
  | node id k below rest => node id k below (pairBreaks fresh rest)

theorem rewrites_pairBreaks {fresh : NodeId} (hfresh : n ≤ fresh) (F : Forest) :
    Rewrites n F (F.pairBreaks fresh) := by
  fun_induction pairBreaks fresh F with
  | case1 => exact .refl
  | case2 fresh s rest ih => exact (ih hfresh).behindText s
  | case3 fresh i F j G rest ih =>
    exact .head (.pair i j fresh F G rest hfresh)
      ((ih (Nat.le_succ_of_le hfresh)).behindNode fresh _ _)
  | case4 fresh i F rest _ ih => exact .head (.drop i F rest) (ih hfresh)
  | case5 fresh id k below rest _ _ ih => exact (ih hfresh).behindNode id k below

theorem kind_ne_of_mem_pairBreaks (fresh : NodeId) (F : Forest) :
    ∀ k ∈ (F.pairBreaks fresh).topKinds, k ≠ .lineBreak := by
  fun_induction pairBreaks fresh F with
  | case1 => simp [topKinds]
  | case2 fresh s rest ih => exact ih
  | case3 fresh i F j G rest ih => simpa [topKinds] using ih
  | case4 fresh i F rest _ ih => exact ih
  | case5 fresh id k below rest _ hk ih =>
    simp only [topKinds, List.mem_cons, forall_eq_or_imp]
    exact ⟨fun h => hk h, ih⟩

theorem pairBreaks_eq_self (fresh : NodeId) (h : ∀ k ∈ F.topKinds, k ≠ .lineBreak) :
    F.pairBreaks fresh = F := by
  fun_induction pairBreaks fresh F with
  | case1 => rfl
  | case2 fresh s rest ih => rw [ih h]
  | case3 => exact absurd rfl (h .lineBreak (by simp [topKinds]))
  | case4 => exact absurd rfl (h .lineBreak (by simp [topKinds]))
  | case5 fresh id k below rest _ _ ih => rw [ih fun k' hk' => h k' (by simp [topKinds, hk'])]

end Forest
end HtmlMarkdown.Document
