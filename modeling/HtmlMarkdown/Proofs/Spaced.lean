import HtmlMarkdown.Proofs.Normalize
import HtmlMarkdown.Proofs.Outlines
import HtmlMarkdown.Proofs.Writings

/-!
White space between block-level nodes. Two forests are compared that are alike, but in one of them
a blank text stands in some places between two block-level neighbours. A place is told by what the
nodes around it put in front of their lines. The passes may run on both forests, and what they
leave is alike in the same way: no pass sees a text between two nodes that it leaves in place.
-/
namespace HtmlMarkdown

namespace Layout

/-- On which of the lines under it a prefix shows anything. -/
inductive Rim where
  | once
  | always
deriving DecidableEq

def LinePrefix.rim? (p : LinePrefix) : Option Rim :=
  if p.later ≠ "" then some .always else if p.first ≠ "" then some .once else none

end Layout

namespace Document

open Layout

/-- What a node puts in front of the lines of its contents. -/
def Kind.rims (k : Kind) : List Rim := (prefixesOf k).filterMap LinePrefix.rim?

def Kind.opensBlock (k : Kind) : Bool := (blockOf? k).isSome

/-- What the passes dissolve or drop is not block-level. -/
theorem Kind.name_ne_of_opensBlock {k : Kind} (hk : k.opensBlock) :
    k.name ≠ .link ∧ k.name ≠ .orderedList ∧ k ≠ .lineBreak := by
  cases k <;> simp_all [Kind.opensBlock, blockOf?, Kind.name]

namespace Forest

/-- The first entry is a block-level node. -/
def BeginsBlock : Forest → Prop
  | node _ k _ _ => k.opensBlock
  | _ => False

/-- The second forest has the text `w` in the given places, each behind a block-level node and in
front of another. Apart from that they are alike, but for the numbers of the nodes and for what
lies below line breaks. No place is inside a preformatted node. -/
inductive Spaced (w : String) : List (List Rim) → Forest → Forest → Prop
  | nil : Spaced w [] nil nil
  | text {places : List (List Rim)} {F G : Forest} (s : String) (h : Spaced w places F G) :
      Spaced w places (text s F) (text s G)
  | lineBreak {places : List (List Rim)} {F G : Forest} (i j : NodeId) (B C : Forest)
      (h : Spaced w places F G) : Spaced w places (node i .lineBreak B F) (node j .lineBreak C G)
  | node {inner places : List (List Rim)} {B C F G : Forest} (i j : NodeId) (k : Kind)
      (hk : k ≠ .lineBreak) (hpre : k = .preformatted → inner = []) (hbelow : Spaced w inner B C)
      (h : Spaced w places F G) :
      Spaced w (inner.map (k.rims ++ ·) ++ places) (node i k B F) (node j k C G)
  | gap {inner places : List (List Rim)} {B C F G : Forest} (i j : NodeId) (k : Kind)
      (hk : k.opensBlock) (hpre : k = .preformatted → inner = []) (hbelow : Spaced w inner B C)
      (h : Spaced w places F G) (hnext : F.BeginsBlock) :
      Spaced w (inner.map (k.rims ++ ·) ++ [] :: places) (node i k B F) (node j k C (text w G))

variable {w : String} {places more : List (List Rim)} {F F' G G' : Forest}

theorem BeginsBlock.append (h : F.BeginsBlock) (G : Forest) : (F ++ G).BeginsBlock := by
  cases F with
  | nil | text => exact h.elim
  | node id k below rest => exact h

namespace Spaced

theorem beginsBlock (h : Spaced w places F G) (hF : F.BeginsBlock) : G.BeginsBlock := by
  cases h with
  | nil | text => exact hF.elim
  | lineBreak | node | gap => exact hF

/-- Forests that look alike, with no place. -/
theorem of_outlines_eq (h : F.outlines = G.outlines) : Spaced w [] F G := by
  induction F generalizing G with
  | nil =>
    cases G with
    | nil => exact .nil
    | text | node => simp [outlines] at h
  | text s rest ih =>
    cases G with
    | nil | node => simp [outlines] at h
    | text u more =>
      simp only [outlines, List.cons.injEq, Outline.text.injEq] at h
      obtain ⟨rfl, h⟩ := h
      exact .text s (ih h)
  | node id k below rest ihb ihr =>
    cases G with
    | nil | text => simp [outlines] at h
    | node id' k' below' rest' =>
      simp only [outlines, List.cons.injEq, Outline.node.injEq] at h
      obtain ⟨⟨rfl, hbelow⟩, hrest⟩ := h
      by_cases hk : k = .lineBreak
      · subst hk
        exact .lineBreak id id' below below' (ihr hrest)
      · exact .node id id' k hk (fun _ => rfl) (ihb hbelow) (ihr hrest)

/-- With no place, forests without line breaks look alike. -/
theorem outlines_eq (h : Spaced w places F G) (hnone : places = [])
    (hbreaks : F.AllKinds (· ≠ .lineBreak)) : F.outlines = G.outlines := by
  unfold AllKinds at hbreaks
  induction h with
  | nil => rfl
  | text s _ ih => rw [outlines, outlines, ih hnone hbreaks]
  | lineBreak => exact absurd rfl hbreaks.1
  | node i j k _ _ _ _ ihb ihr =>
    rw [List.append_eq_nil_iff, List.map_eq_nil_iff] at hnone
    rw [outlines, outlines, ihb hnone.1 hbreaks.2.1, ihr hnone.2 hbreaks.2.2]
  | gap => simp at hnone

theorem append (h : Spaced w places F G) (h' : Spaced w more F' G') :
    Spaced w (places ++ more) (F ++ F') (G ++ G') := by
  induction h with
  | nil => exact h'
  | text s _ ih => exact .text s ih
  | lineBreak i j B C _ ih => exact .lineBreak i j B C ih
  | node i j k hk hpre hbelow _ _ ih =>
    rw [List.append_assoc]
    exact .node i j k hk hpre hbelow ih
  | gap i j k hk hpre hbelow _ hnext _ ih =>
    rw [List.append_assoc]
    exact .gap i j k hk hpre hbelow ih (hnext.append F')

/-- An empty forest has no place. -/
theorem eq_nil_iff (h : Spaced w places F G) : F = .nil ↔ G = .nil := by
  cases h <;> simp

theorem places_eq_nil (h : Spaced w places .nil G) : places = [] := by
  cases h with
  | nil => rfl

end Spaced

/-! Walks. -/

/-- One step on each of the two forests, which stand below nodes of the same kind. -/
def KeepsSpaced (w : String) (Step Step' : Kind → Forest → Forest → Prop) : Prop :=
  ∀ ⦃k : Kind⦄ ⦃places : List (List Rim)⦄ ⦃F F' G G' : Forest⦄,
    (k = .preformatted → places = []) → Spaced w places F F' → Step k F G → Step' k F' G' →
    Spaced w places G G'

variable {Step Step' : Kind → Forest → Forest → Prop}

theorem Visited.beginsBlock (h : Visited Step F G) (hF : F.BeginsBlock) : G.BeginsBlock := by
  cases h with
  | nil | text => exact hF.elim
  | node => exact hF

theorem Spaced.visited (hkeeps : KeepsSpaced w Step Step') (h : Spaced w places F F')
    (hG : Visited Step F G) (hG' : Visited Step' F' G') : Spaced w places G G' := by
  induction hG generalizing places F' G' with
  | nil =>
    cases h with
    | nil =>
      cases hG' with
      | nil => exact .nil
  | text s _ ih =>
    cases h with
    | text _ h =>
      cases hG' with
      | text _ hG' => exact .text s (ih h hG')
  | node id k hstep hbelow hrest ihb ihr =>
    cases h with
    | lineBreak _ j _ _ h =>
      cases hG' with
      | node _ _ _ _ hrest' => exact .lineBreak id j _ _ (ihr h hrest')
    | node _ j _ hk hpre hbelow h =>
      cases hG' with
      | node _ _ hstep' hbelow' hrest' =>
        have hmid := hkeeps hpre hbelow hstep hstep'
        exact .node id j k hk hpre (ihb hmid hbelow') (ihr h hrest')
    | gap _ j _ hk hpre hbelow h hnext =>
      cases hG' with
      | node _ _ hstep' hbelow' hrest' =>
        have hmid := hkeeps hpre hbelow hstep hstep'
        cases hrest' with
        | text _ hrest' =>
          exact .gap id j k hk hpre (ihb hmid hbelow') (ihr h hrest') (hrest.beginsBlock hnext)

theorem Spaced.visitedAll {Steps Steps' : List (Kind → Forest → Forest → Prop)}
    (hsteps : List.Forall₂ (KeepsSpaced w) Steps Steps') (h : Spaced w places F F')
    (hG : VisitedAll Steps F G) (hG' : VisitedAll Steps' F' G') : Spaced w places G G' := by
  induction hsteps generalizing F F' with
  | nil =>
    cases hG
    cases hG'
    exact h
  | cons hkeeps _ ih =>
    cases hG with
    | cons hvisit hrest =>
      cases hG' with
      | cons hvisit' hrest' => exact ih (h.visited hkeeps hvisit hvisit') hrest hrest'

/-! The steps of the passes. -/

namespace Spaced

theorem joinTexts (h : Spaced w places F G) : Spaced w places F.joinTexts G.joinTexts := by
  have hbegins : ∀ F : Forest, F.BeginsBlock → F.joinTexts.BeginsBlock ∧
      ∀ s, (Forest.text s F).joinTexts = .text s F.joinTexts := by
    intro F hF
    cases F with
    | nil | text => exact hF.elim
    | node => exact ⟨hF, fun _ => rfl⟩
  induction h with
  | nil => exact .nil
  | @text _ F G s _ ih =>
    simp only [Forest.joinTexts]
    generalize F.joinTexts = F' at ih
    generalize G.joinTexts = G' at ih
    cases ih with
    | nil => exact .text s .nil
    | text u h => exact .text (s ++ u) h
    | lineBreak i j B C h => exact .text s (.lineBreak i j B C h)
    | node i j k hk hpre hbelow h => exact .text s (.node i j k hk hpre hbelow h)
    | gap i j k hk hpre hbelow h hnext => exact .text s (.gap i j k hk hpre hbelow h hnext)
  | lineBreak i j B C _ ih => exact .lineBreak i j B C ih
  | node i j k hk hpre hbelow _ _ ih => exact .node i j k hk hpre hbelow ih
  | gap i j k hk hpre hbelow h hnext _ ih =>
    rw [Forest.joinTexts, Forest.joinTexts, (hbegins _ (h.beginsBlock hnext)).2]
    exact .gap i j k hk hpre hbelow ih (hbegins _ hnext).1

theorem spellTexts (hw : NoDash w) (h : Spaced w places F G) :
    Spaced w places F.spellTexts G.spellTexts := by
  have hbegins : ∀ F : Forest, F.BeginsBlock → F.spellTexts.BeginsBlock := by
    intro F hF
    cases F with
    | nil | text => exact hF.elim
    | node => exact hF
  induction h with
  | nil => exact .nil
  | text s _ ih => exact .text (spellDashes s) ih
  | lineBreak i j B C _ ih => exact .lineBreak i j B C ih
  | node i j k hk hpre hbelow _ _ ih => exact .node i j k hk hpre hbelow ih
  | gap i j k hk hpre hbelow _ hnext _ ih =>
    rw [Forest.spellTexts, Forest.spellTexts, Forest.spellTexts, hw.spellDashes_eq]
    exact .gap i j k hk hpre hbelow ih (hbegins _ hnext)

theorem dropEmptyLinks (h : Spaced w places F G) :
    Spaced w places F.dropEmptyLinks G.dropEmptyLinks := by
  have hkept : ∀ {k : Kind}, k.opensBlock → ∀ B : Forest, ¬ (k.name = .link ∧ B = .nil) :=
    fun hk B h => (Kind.name_ne_of_opensBlock hk).1 h.1
  have hbegins : ∀ F : Forest, F.BeginsBlock → F.dropEmptyLinks.BeginsBlock := by
    intro F hF
    cases F with
    | nil | text => exact hF.elim
    | node id k below rest =>
      rw [Forest.dropEmptyLinks, if_neg (hkept hF below)]
      exact hF
  induction h with
  | nil => exact .nil
  | text s _ ih => exact .text s ih
  | lineBreak i j B C _ ih =>
    have hbreak : ∀ B : Forest, ¬ (Kind.lineBreak.name = .link ∧ B = .nil) := by simp [Kind.name]
    rw [Forest.dropEmptyLinks, Forest.dropEmptyLinks, if_neg (hbreak B), if_neg (hbreak C)]
    exact .lineBreak i j B C ih
  | @node inner places B C F G i j k hk hpre hbelow _ _ ih =>
    rw [Forest.dropEmptyLinks, Forest.dropEmptyLinks]
    by_cases hempty : k.name = .link ∧ B = .nil
    · obtain ⟨hlink, rfl⟩ := hempty
      obtain rfl := hbelow.eq_nil_iff.1 rfl
      rw [if_pos ⟨hlink, rfl⟩, if_pos ⟨hlink, rfl⟩, hbelow.places_eq_nil]
      exact ih
    · rw [if_neg hempty, if_neg (mt (And.imp_right hbelow.eq_nil_iff.2) hempty)]
      exact .node i j k hk hpre hbelow ih
  | @gap inner places B C F G i j k hk hpre hbelow _ hnext _ ih =>
    rw [Forest.dropEmptyLinks, Forest.dropEmptyLinks, Forest.dropEmptyLinks, if_neg (hkept hk B),
      if_neg (hkept hk C)]
    exact .gap i j k hk hpre hbelow ih (hbegins F hnext)

theorem dissolved {name : Kind.Name} {ready : Forest → Forest} {D D' : Forest}
    (hrims : ∀ k : Kind, k.name = name → k.rims = [])
    (hblock : ∀ k : Kind, k.opensBlock → k.name ≠ name) (hbreak : Kind.lineBreak.name ≠ name)
    (hready : ∀ {places F G}, Spaced w places F G → Spaced w places (ready F) (ready G))
    (h : Spaced w places F G) (hD : Dissolved name ready F D) (hD' : Dissolved name ready G D') :
    Spaced w places D D' := by
  have hbegins : ∀ {F D : Forest}, Dissolved name ready F D → F.BeginsBlock → D.BeginsBlock := by
    intro F D hD hF
    cases hD with
    | nil | text => exact hF.elim
    | keep => exact hF
    | dissolve id k below hk => exact absurd hk (hblock k hF)
  induction hD generalizing places G D' with
  | nil =>
    cases h with
    | nil =>
      cases hD'
      exact .nil
  | text s _ ih =>
    cases h with
    | text _ h =>
      cases hD' with
      | text _ hD' => exact .text s (ih h hD')
  | keep id k below hk hD ih =>
    cases h with
    | lineBreak _ j _ C h =>
      cases hD' with
      | keep _ _ _ _ hD' => exact .lineBreak id j below C (ih h hD')
      | dissolve _ _ _ hk' => exact absurd hk' hk
    | node _ j _ hne hpre hbelow h =>
      cases hD' with
      | keep _ _ _ _ hD' => exact .node id j k hne hpre hbelow (ih h hD')
      | dissolve _ _ _ hk' => exact absurd hk' hk
    | gap _ j _ hopens hpre hbelow h hnext =>
      cases hD' with
      | keep _ _ _ _ hD' =>
        cases hD' with
        | text _ hD' =>
          exact .gap id j k hopens hpre hbelow (ih h hD') (hbegins hD hnext)
      | dissolve _ _ _ hk' => exact absurd hk' hk
  | dissolve id k below hk hD ih =>
    cases h with
    | lineBreak => exact absurd hk hbreak
    | node _ j _ hne hpre hbelow h =>
      cases hD' with
      | keep _ _ _ hk' => exact absurd hk hk'
      | dissolve _ _ _ _ hD' =>
        have hall := (hready hbelow).append h
        rw [hrims k hk]
        simpa using ih hall hD'
    | gap _ _ _ hopens => exact absurd hk (hblock k hopens)

theorem numberFrom (i : Nat) (h : Spaced w places F G) :
    Spaced w places (F.numberFrom i) (G.numberFrom i) := by
  have hrims : ∀ i, Kind.listItem.rims = (Kind.numberedItem i).rims := fun i => by
    simp [Kind.rims, prefixesOf, blockOf?, LinePrefix.rim?]
  have hbegins : ∀ (i : Nat) (F : Forest), F.BeginsBlock → (F.numberFrom i).BeginsBlock := by
    intro i F hF
    cases F with
    | nil | text => exact hF.elim
    | node id k below rest =>
      rw [Forest.numberFrom]
      split
      · rfl
      · exact hF
  induction h generalizing i with
  | nil => exact .nil
  | text s _ ih => exact .text s (ih i)
  | lineBreak i' j B C _ ih => exact .lineBreak i' j B C (ih i)
  | @node inner places B C F G i' j k hk hpre hbelow _ _ ih =>
    rw [Forest.numberFrom, Forest.numberFrom]
    split
    · rename_i hitem
      rw [hitem, hrims i]
      exact .node i' j (.numberedItem i) (by simp) (by simp) hbelow (ih (i + 1))
    · exact .node i' j k hk hpre hbelow (ih i)
  | @gap inner places B C F G i' j k hk hpre hbelow _ hnext _ ih =>
    rw [Forest.numberFrom, Forest.numberFrom, Forest.numberFrom]
    split
    · rename_i hitem
      rw [hitem, hrims i]
      exact .gap i' j (.numberedItem i) rfl (by simp) hbelow (ih (i + 1)) (hbegins _ F hnext)
    · exact .gap i' j k hk hpre hbelow (ih i) (hbegins _ F hnext)

theorem collapseCode_node (k inner : Kind) (id : NodeId) (below rest : Forest) :
    Forest.collapseCode k (.node id inner below rest) =
      if rest = .nil ∧ k.name = .preformatted ∧ inner.name = .code then below
      else .node id inner below rest := by
  cases rest <;> simp [Forest.collapseCode]

/-- There is no place in a preformatted node, so a code is alone in it in both forests. -/
theorem collapseCode (k : Kind) (hpre : k = .preformatted → places = [])
    (h : Spaced w places F G) : Spaced w places (F.collapseCode k) (G.collapseCode k) := by
  have hname : k.name = .preformatted ↔ k = .preformatted := by cases k <;> simp [Kind.name]
  cases h with
  | nil => exact .nil
  | text s h => exact .text s h
  | lineBreak i j B C h =>
    rw [collapseCode_node, collapseCode_node, if_neg (by simp [Kind.name]),
      if_neg (by simp [Kind.name])]
    exact .lineBreak i j B C h
  | @node inner places B C F G i j k' hk' hpre' hbelow h =>
    rw [collapseCode_node, collapseCode_node]
    by_cases halone : F = .nil ∧ k.name = .preformatted ∧ k'.name = .code
    · obtain ⟨rfl, hk, hcode⟩ := halone
      obtain rfl := h.eq_nil_iff.1 rfl
      have hnone := hpre (hname.1 hk)
      rw [List.append_eq_nil_iff, List.map_eq_nil_iff] at hnone
      obtain ⟨rfl, rfl⟩ := hnone
      rw [if_pos ⟨rfl, hk, hcode⟩, if_pos ⟨rfl, hk, hcode⟩]
      exact hbelow
    · rw [if_neg halone, if_neg (mt (And.imp_left h.eq_nil_iff.2) halone)]
      exact .node i j k' hk' hpre' hbelow h
  | @gap inner places B C F G i j k' hk' hpre' hbelow h hnext =>
    have hk : ¬ k.name = .preformatted := fun hk => by simpa using hpre (hname.1 hk)
    rw [collapseCode_node, collapseCode_node, if_neg fun h => hk h.2.1, if_neg fun h => hk h.2.1]
    exact .gap i j k' hk' hpre' hbelow h hnext

/-- Nodes are paired alike in both forests, whatever numbers the separators get. -/
theorem pairBreaks (n m : NodeId) (h : Spaced w places F G) :
    Spaced w places (F.pairBreaks n) (G.pairBreaks m) := by
  have hbegins : ∀ (n : NodeId) (F : Forest), F.BeginsBlock → (F.pairBreaks n).BeginsBlock := by
    intro n F hF
    cases F with
    | nil | text => exact hF.elim
    | node id k below rest =>
      have hk : k ≠ .lineBreak := (Kind.name_ne_of_opensBlock hF).2.2
      rw [Forest.pairBreaks]
      · exact hF
      · exact fun _ _ _ hk' _ => hk hk'
      · exact hk
  fun_induction Forest.pairBreaks n F generalizing m places G with
  | case1 =>
    cases h with
    | nil => exact .nil
  | case2 n s rest ih =>
    cases h with
    | text _ h =>
      rw [Forest.pairBreaks]
      exact .text s (ih m h)
  | case3 n i B j C rest ih =>
    cases h with
    | node _ _ _ hk => exact absurd rfl hk
    | gap _ _ _ hk => cases hk
    | lineBreak _ _ _ _ h =>
      cases h with
      | node _ _ _ hk => exact absurd rfl hk
      | gap _ _ _ hk => cases hk
      | lineBreak _ _ _ _ h =>
        rw [Forest.pairBreaks]
        exact .node n m .separator (by simp) (by simp) .nil (ih (m + 1) h)
  | case4 n i B rest hlone ih =>
    cases h with
    | node _ _ _ hk => exact absurd rfl hk
    | gap _ _ _ hk => cases hk
    | lineBreak _ j _ _ h =>
      rw [Forest.pairBreaks]
      · exact ih m h
      · rintro j' C' rest' rfl
        cases h with
        | node _ _ _ hk => exact absurd rfl hk
        | gap _ _ _ hk => cases hk
        | lineBreak => exact hlone _ _ _ rfl
  | case5 n i k below rest hpair hk ih =>
    cases h with
    | lineBreak => exact absurd rfl hk
    | node _ j _ hne hpre hbelow h =>
      rw [Forest.pairBreaks]
      · exact .node i j k hne hpre hbelow (ih m h)
      · exact fun _ _ _ hk' _ => hk hk'
      · exact hk
    | gap _ j _ hopens hpre hbelow h hnext =>
      rw [Forest.pairBreaks, Forest.pairBreaks]
      · exact .gap i j k hopens hpre hbelow (ih m h) (hbegins n rest hnext)
      · exact fun _ _ _ hk' _ => hk hk'
      · exact hk

end Spaced

/-- Both forests may be brought into normal form. -/
theorem keepsSpaced_steps (hw : NoDash w) (n m : NodeId) (withoutLinks : Bool) :
    List.Forall₂ (KeepsSpaced w) (steps n withoutLinks) (steps m withoutLinks) := by
  have hjoin : KeepsSpaced w Joins Joins := by
    rintro k places F _ G _ - h rfl rfl
    exact h.joinTexts
  have hspell : KeepsSpaced w Spells Spells := by
    rintro k places F _ G _ - h rfl rfl
    exact h.spellTexts hw
  have hdrop : KeepsSpaced w DropsLinks DropsLinks := by
    rintro k places F _ G _ - h rfl rfl
    exact h.dropEmptyLinks
  have hlinks : KeepsSpaced w DissolvesLinks DissolvesLinks := by
    intro k places F F' G G' _ h hG hG'
    refine h.dissolved (fun k hk => ?_) (fun k hk => (Kind.name_ne_of_opensBlock hk).1)
      (by simp [Kind.name]) id hG hG'
    cases k <;> simp_all [Kind.name, Kind.rims, prefixesOf, blockOf?]
  have hcode : KeepsSpaced w CollapsesCode CollapsesCode := by
    rintro k places F _ G _ hpre h rfl rfl
    exact h.collapseCode k hpre
  have hlists : KeepsSpaced w NumbersLists NumbersLists := by
    intro k places F F' G G' _ h hG hG'
    refine h.dissolved (fun k hk => ?_) (fun k hk => (Kind.name_ne_of_opensBlock hk).2.1)
      (by simp [Kind.name]) (fun h => h.numberFrom 1) hG hG'
    cases k <;> simp_all [Kind.name, Kind.rims, prefixesOf, blockOf?]
  have hbreaks : KeepsSpaced w (PairsBreaks n) (PairsBreaks m) := by
    rintro k places F F' G G' _ h ⟨fresh, -, rfl⟩ ⟨fresh', -, rfl⟩
    exact h.pairBreaks fresh fresh'
  have hlast := List.Forall₂.cons hcode (.cons hlists (.cons hbreaks (.cons hjoin .nil)))
  refine .cons hjoin (.cons hspell (.cons hdrop ?_))
  cases withoutLinks with
  | false => exact hlast
  | true => exact .cons hlinks hlast

end Forest
end Document
end HtmlMarkdown
