import HtmlMarkdown.Proofs.Spaced

/-!
Lists of block-level nodes. No pass changes such a list below a node that is not preformatted, so
its nodes come into normal form one by one, whatever stands next to them. And whether they stand
below the document or below its only block quote makes no difference to what lies below them.
-/
namespace HtmlMarkdown.Document.Forest

/-- A list of block-level nodes, with no text between them. -/
def OnlyBlocks : Forest → Prop
  | nil => True
  | text _ _ => False
  | node _ k _ rest => k.opensBlock ∧ OnlyBlocks rest

variable {n i j : NodeId} {k k' : Kind} {w : Bool} {F F' G H : Forest}
  {Step : Kind → Forest → Forest → Prop} {Steps : List (Kind → Forest → Forest → Prop)}

theorem collapseCode_of_name_ne (hk : k.name ≠ .preformatted) (F : Forest) :
    F.collapseCode k = F := by
  fun_cases collapseCode k F with
  | case1 id inner below hcode => exact absurd hcode.1 hk
  | case2 | case3 => rfl

namespace OnlyBlocks

theorem opensBlock (h : F.OnlyBlocks) : ∀ k ∈ F.topKinds, k.opensBlock := by
  induction F with
  | nil => simp [topKinds]
  | text => exact h.elim
  | node id k below rest _ ih =>
    intro k' hk'
    rcases List.mem_cons.1 hk' with rfl | hk'
    · exact h.1
    · exact ih h.2 k' hk'

theorem append (hF : F.OnlyBlocks) (hG : G.OnlyBlocks) : (F ++ G).OnlyBlocks := by
  induction F with
  | nil => exact hG
  | text => exact hF.elim
  | node id k below rest _ ih => exact ⟨hF.1, ih hF.2⟩

theorem visited (h : F.OnlyBlocks) (hvisit : Visited Step F G) : G.OnlyBlocks := by
  induction hvisit with
  | nil => trivial
  | text => exact h.elim
  | node id k _ _ _ _ ih => exact ⟨h.1, ih h.2⟩

theorem joinTexts_eq (h : F.OnlyBlocks) : F.joinTexts = F := by
  induction F with
  | nil => rfl
  | text => exact h.elim
  | node id k below rest _ ih => rw [joinTexts, ih h.2]

theorem spellTexts_eq (h : F.OnlyBlocks) : F.spellTexts = F := by
  induction F with
  | nil => rfl
  | text => exact h.elim
  | node id k below rest _ ih => rw [spellTexts, ih h.2]

theorem dropEmptyLinks_eq (h : F.OnlyBlocks) : F.dropEmptyLinks = F := by
  induction F with
  | nil => rfl
  | text => exact h.elim
  | node id k below rest _ ih =>
    have hlink : k.name ≠ .link := (Kind.name_ne_of_opensBlock h.1).1
    rw [dropEmptyLinks, if_neg fun hk => hlink hk.1, ih h.2]

/-- No step changes a list of block-level nodes. -/
theorem eq_of_step (h : F.OnlyBlocks) (hmem : Step ∈ steps n w) (hk : k.name ≠ .preformatted)
    (hstep : Step k F G) : G = F := by
  have hkinds : ∀ k ∈ F.topKinds, k.name ≠ .link ∧ k.name ≠ .orderedList ∧ k ≠ .lineBreak :=
    fun k hk => Kind.name_ne_of_opensBlock (h.opensBlock k hk)
  rcases mem_steps hmem with rfl | rfl | rfl | ⟨-, rfl⟩ | rfl | rfl | rfl
  · exact Eq.trans hstep h.joinTexts_eq
  · exact Eq.trans hstep h.spellTexts_eq
  · exact Eq.trans hstep h.dropEmptyLinks_eq
  · exact Dissolved.eq_self (fun k hk => (hkinds k hk).1) hstep
  · exact Eq.trans hstep (collapseCode_of_name_ne hk F)
  · exact Dissolved.eq_self (fun k hk => (hkinds k hk).2.1) hstep
  · obtain ⟨fresh, -, rfl⟩ := hstep
    exact pairBreaks_eq_self fresh fun k hk => (hkinds k hk).2.2

end OnlyBlocks

/-- What a step does below a node does not depend on the node's kind, but for code that is alone
in a preformatted node. -/
theorem step_of_mem_steps (hmem : Step ∈ steps n w) (hk : k.name ≠ .preformatted)
    (hk' : k'.name ≠ .preformatted) (hstep : Step k F G) : Step k' F G := by
  rcases mem_steps hmem with rfl | rfl | rfl | ⟨-, rfl⟩ | rfl | rfl | rfl
  case inr.inr.inr.inr.inl =>
    have hself := (collapseCode_of_name_ne hk F).trans (collapseCode_of_name_ne hk' F).symm
    exact Eq.trans hstep hself
  all_goals exact hstep

/-! Walks. -/

/-- A walk over two lists behind each other is a walk over each of them. -/
theorem Visited.exists_append (h : Visited Step (F ++ G) H) :
    ∃ F' G', H = F' ++ G' ∧ Visited Step F F' ∧ Visited Step G G' := by
  induction F generalizing H with
  | nil => exact ⟨.nil, H, rfl, .nil, h⟩
  | text s rest ih =>
    cases h with
    | text _ h =>
      obtain ⟨F', G', rfl, hF, hG⟩ := ih h
      exact ⟨.text s F', G', rfl, .text s hF, hG⟩
  | node id k below rest _ ih =>
    cases h with
    | node _ _ hstep hbelow hrest =>
      obtain ⟨F', G', rfl, hF, hG⟩ := ih hrest
      exact ⟨.node id k _ F', G', rfl, .node id k hstep hbelow hF, hG⟩

namespace VisitedAll

theorem exists_append_forest (h : VisitedAll Steps (F ++ G) H) :
    ∃ F' G', H = F' ++ G' ∧ VisitedAll Steps F F' ∧ VisitedAll Steps G G' := by
  induction Steps generalizing F G with
  | nil =>
    cases h
    exact ⟨F, G, rfl, .nil F, .nil G⟩
  | cons Step Steps ih =>
    cases h with
    | cons hvisit hrest =>
      obtain ⟨F₁, G₁, rfl, hF, hG⟩ := hvisit.exists_append
      obtain ⟨F', G', rfl, hF', hG'⟩ := ih hrest
      exact ⟨F', G', rfl, .cons hF hF', .cons hG hG'⟩

/-- Below a node with a list of block-level nodes the steps only work further down. -/
theorem below_onlyBlocks (hsteps : ∀ Step ∈ Steps, Step ∈ steps n w) (hF : F.OnlyBlocks)
    (hk : k.name ≠ .preformatted) (h : VisitedAll Steps (.node i k F .nil) (.node i k G .nil)) :
    VisitedAll Steps F G := by
  induction Steps generalizing F with
  | nil =>
    cases h
    exact .nil _
  | cons Step Steps ih =>
    rw [List.forall_mem_cons] at hsteps
    cases h with
    | cons hvisit hrest =>
      cases hvisit with
      | node _ _ hstep hbelow hnil =>
        cases hnil
        rw [hF.eq_of_step hsteps.1 hk hstep] at hbelow
        exact .cons hbelow (ih hsteps.2 (hF.visited hbelow) hrest)

/-- A node can be put in the place of another, with all that lies below it. -/
theorem change_node (hsteps : ∀ Step ∈ Steps, Step ∈ steps n w) (hk : k.name ≠ .preformatted)
    (hk' : k'.name ≠ .preformatted) (h : VisitedAll Steps (.node i k F .nil) (.node i k G .nil)) :
    VisitedAll Steps (.node j k' F .nil) (.node j k' G .nil) := by
  induction Steps generalizing F with
  | nil =>
    cases h
    exact .nil _
  | cons Step Steps ih =>
    rw [List.forall_mem_cons] at hsteps
    cases h with
    | cons hvisit hrest =>
      cases hvisit with
      | node _ _ hstep hbelow hnil =>
        cases hnil
        have hstep' := step_of_mem_steps hsteps.1 hk hk' hstep
        exact .cons (.node j k' hstep' hbelow .nil) (ih hsteps.2 hrest)

/-- Forests that look alike look alike after the steps, if no line break is left. -/
theorem outlines_eq {m : NodeId} {F' G' : Forest} (h : F.outlines = F'.outlines)
    (hF : VisitedAll (steps n w) F G) (hF' : VisitedAll (steps m w) F' G')
    (hG : G.AllKinds (· ≠ .lineBreak)) : G.outlines = G'.outlines := by
  have hdash : NoDash "" := by simp [NoDash]
  have hspaced := (Spaced.of_outlines_eq h).visitedAll (keepsSpaced_steps hdash n m w) hF hF'
  exact hspaced.outlines_eq rfl hG

end VisitedAll
end HtmlMarkdown.Document.Forest
