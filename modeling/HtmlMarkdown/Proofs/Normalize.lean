import HtmlMarkdown.Proofs.BreakRuns
import HtmlMarkdown.Proofs.DissolveRuns
import HtmlMarkdown.Proofs.Walk

/-!
All passes, one after the other. On every table that spans a forest they run to their end, and
what they do to the forest is one step after the other. What a step establishes is found behind
it, and what every run of changes keeps is still there at the end.
-/
namespace HtmlMarkdown.Document
namespace Forest

/-! The steps of the passes. -/

def Joins (_ : Kind) (F F' : Forest) : Prop := F' = F.joinTexts

def Spells (_ : Kind) (F F' : Forest) : Prop := F' = F.spellTexts

def DropsLinks (_ : Kind) (F F' : Forest) : Prop := F' = F.dropEmptyLinks

def DissolvesLinks (_ : Kind) (F F' : Forest) : Prop := Dissolved .link (fun D => D) F F'

def CollapsesCode (k : Kind) (F F' : Forest) : Prop := F' = F.collapseCode k

def NumbersLists (_ : Kind) (F F' : Forest) : Prop := Dissolved .orderedList (numberFrom 1) F F'

def PairsBreaks (n : NodeId) (_ : Kind) (F F' : Forest) : Prop :=
  ∃ fresh, n ≤ fresh ∧ F' = F.pairBreaks fresh

/-- The steps in the order in which the passes take them. -/
def steps (n : NodeId) (withoutLinks : Bool) : List (Kind → Forest → Forest → Prop) :=
  [Joins, Spells, DropsLinks] ++ (if withoutLinks then [DissolvesLinks] else [])
    ++ [CollapsesCode, NumbersLists, PairsBreaks n, Joins]

variable {n : NodeId} {k : Kind} {F F' G : Forest} {w : Bool}

theorem DissolvesLinks.rewrites (h : DissolvesLinks k F F') : Rewrites n F F' :=
  Dissolved.rewrites (fun k hk => by simp [Kind.dissolves, hk]) (fun _ => .refl) h

theorem NumbersLists.rewrites (h : NumbersLists k F F') : Rewrites n F F' :=
  Dissolved.rewrites (fun k hk => by simp [Kind.dissolves, hk]) (rewrites_numberFrom 1) h

theorem mem_steps {Step : Kind → Forest → Forest → Prop} (h : Step ∈ steps n w) :
    Step = Joins ∨ Step = Spells ∨ Step = DropsLinks ∨ (w = true ∧ Step = DissolvesLinks) ∨
      Step = CollapsesCode ∨ Step = NumbersLists ∨ Step = PairsBreaks n := by
  cases w <;> simp [steps] at h <;> tauto

/-- Every step is a run of changes. -/
theorem rewrites_of_mem_steps {Step : Kind → Forest → Forest → Prop} (hmem : Step ∈ steps n w)
    (h : Step k F F') : Rewrites n F F' := by
  rcases mem_steps hmem with rfl | rfl | rfl | ⟨-, rfl⟩ | rfl | rfl | rfl
  · exact h ▸ rewrites_joinTexts F
  · exact h ▸ rewrites_spellTexts F
  · exact h ▸ rewrites_dropEmptyLinks F
  · exact DissolvesLinks.rewrites h
  · exact h ▸ rewrites_collapseCode k F
  · exact NumbersLists.rewrites h
  · obtain ⟨fresh, hfresh, rfl⟩ := h
    exact rewrites_pairBreaks hfresh F

namespace VisitedAll

variable {Steps before after : List (Kind → Forest → Forest → Prop)}
  {Step : Kind → Forest → Forest → Prop}

theorem children_eq (h : VisitedAll Steps F G) : G.children = F.children := by
  induction h with
  | nil => rfl
  | cons hvisit _ ih => rw [ih, hvisit.children_eq]

theorem topKinds_eq (h : VisitedAll Steps F G) : G.topKinds = F.topKinds := by
  induction h with
  | nil => rfl
  | cons hvisit _ ih => rw [ih, hvisit.topKinds_eq]

theorem rewrites (hsteps : ∀ Step ∈ Steps, ∀ k F F', Step k F F' → Rewrites n F F')
    (h : VisitedAll Steps F G) : Rewrites n F G := by
  induction h with
  | nil => exact .refl
  | cons hvisit _ ih =>
    have hfirst : Rewrites n _ _ := hvisit.rewrites (hsteps _ (List.mem_cons_self ..))
    exact hfirst.trans (ih fun Step hmem => hsteps Step (List.mem_cons_of_mem _ hmem))

/-- The first steps, and then the others. -/
theorem exists_append (h : VisitedAll (before ++ after) F G) :
    ∃ F₁, VisitedAll before F F₁ ∧ VisitedAll after F₁ G := by
  induction before generalizing F with
  | nil => exact ⟨F, .nil F, h⟩
  | cons first before ih =>
    cases h with
    | cons hvisit hrest =>
      obtain ⟨F₁, hbefore, hafter⟩ := ih hrest
      exact ⟨F₁, .cons hvisit hbefore, hafter⟩

/-- Some step among others. -/
theorem split (h : VisitedAll (before ++ Step :: after) F G) :
    ∃ F₁ F₂, VisitedAll before F F₁ ∧ Visited Step F₁ F₂ ∧ VisitedAll after F₂ G := by
  obtain ⟨F₁, hbefore, hlast⟩ := h.exists_append
  cases hlast with
  | cons hstep hafter => exact ⟨F₁, _, hbefore, hstep, hafter⟩

end VisitedAll

theorem VisitedAll.rewrites_steps (h : VisitedAll (steps n w) F G) : Rewrites n F G :=
  h.rewrites fun _ hmem _ _ _ hstep => rewrites_of_mem_steps hmem hstep

/-- What one of the steps has left is rewritten until the end. -/
theorem VisitedAll.after_step {Step : Kind → Forest → Forest → Prop} (hmem : Step ∈ steps n w)
    (h : VisitedAll (steps n w) F G) :
    ∃ F₁ F₂, Visited Step F₁ F₂ ∧ F₂.children = F.children ∧ F₂.topKinds = F.topKinds ∧
      Rewrites n F₂ G := by
  obtain ⟨before, after, hsteps⟩ := List.append_of_mem hmem
  have hafter : ∀ S ∈ after, S ∈ steps n w := fun S hS => by simp [hsteps, hS]
  rw [hsteps] at h
  obtain ⟨F₁, F₂, hfirst, hstep, hlast⟩ := h.split
  refine ⟨F₁, F₂, hstep, ?_, ?_, ?_⟩
  · rw [hstep.children_eq, hfirst.children_eq]
  · rw [hstep.topKinds_eq, hfirst.topKinds_eq]
  · exact hlast.rewrites fun S hS _ _ _ hs => rewrites_of_mem_steps (hafter S hS) hs

end Forest

namespace Tree

variable {t : Tree} {F : Forest}

theorem realizes_passes (n : NodeId) (w : Bool) :
    List.Forall₂ (Realizes n) (passes w) (Forest.steps n w) := by
  have hlast := List.Forall₂.cons (realizes_collapseCodeInsidePre n)
    (.cons (realizes_numberLists n) (.cons (realizes_twoBreaksMakeOneSeparator n)
      (.cons (realizes_concatenateStrings n) .nil)))
  refine .cons (realizes_concatenateStrings n) (.cons (realizes_replaceEmDashes n)
    (.cons (realizes_removeEmptyLinks n) ?_))
  cases w with
  | false => exact hlast
  | true => exact .cons (realizes_removeLinks n) hlast

/-- Bringing a tree into normal form succeeds, and each of its walks has an end of its own. -/
theorem normalize_runs (h : t.Spans F) (w : Bool) :
    ∃ t' F', normalize w t = .ok () t' ∧ WalksAll (passes w) t t' ∧
      Forest.VisitedAll (Forest.steps t.size w) (.node root .document F .nil)
        (.node root .document F' .nil) ∧
      t'.Spans F' ∧ SpanBecomes t F t' F' :=
  forM_visit_runs (realizes_passes t.size w)
    (fun _ hmem _ _ _ hstep => Forest.rewrites_of_mem_steps hmem hstep) (Nat.le_refl _) h

end Tree
end HtmlMarkdown.Document
