import HtmlMarkdown.Proofs.CheckedCounts

/-!
The blocks that joining writes. A block is left out if it renders to nothing, and what stands
between two blocks that are written depends on these two. So joining more blocks is joining them
behind the block that has been written last.
-/
namespace HtmlMarkdown.Layout

variable {earlier : Option Block} {b : Block} {rest : List Block} {c : LineCounts}

/-- The blocks that are written on the page when blocks are joined. -/
def shownBlocks (earlier : Option Block) : List Block → LineCounts → List Block
  | [], _ => []
  | block :: rest, counts =>
    let (shown, counts) := block.render counts
    if shown.isEmpty then shownBlocks earlier rest counts
    else block :: shownBlocks (some block) rest (separatorLine earlier block counts).2

/-- The block written last. -/
def lastShown (earlier : Option Block) (blocks : List Block) (counts : LineCounts) :
    Option Block :=
  (shownBlocks earlier blocks counts).getLast?.or earlier

theorem joinBlocks_cons_of_nil (h : (b.render c).1 = []) :
    joinBlocks earlier (b :: rest) c = joinBlocks earlier rest (b.render c).2 := by
  simp [joinBlocks, h]

theorem joinBlocks_cons_of_ne (h : (b.render c).1 ≠ []) : (joinBlocks earlier (b :: rest) c).1 =
      (separatorLine earlier b (b.render c).2).1 ++ (b.render c).1 ++ b.ending
        ++ (joinBlocks (some b) rest (separatorLine earlier b (b.render c).2).2).1 := by
  simp [joinBlocks, h]

theorem counts_joinBlocks_cons_of_ne (h : (b.render c).1 ≠ []) :
    (joinBlocks earlier (b :: rest) c).2 =
      (joinBlocks (some b) rest (separatorLine earlier b (b.render c).2).2).2 := by
  simp [joinBlocks, h]

theorem shownBlocks_cons_of_nil (h : (b.render c).1 = []) :
    shownBlocks earlier (b :: rest) c = shownBlocks earlier rest (b.render c).2 := by
  simp [shownBlocks, h]

theorem shownBlocks_cons_of_ne (h : (b.render c).1 ≠ []) :
    shownBlocks earlier (b :: rest) c =
      b :: shownBlocks (some b) rest (separatorLine earlier b (b.render c).2).2 := by
  simp [shownBlocks, h]

theorem lastShown_cons_of_nil (h : (b.render c).1 = []) :
    lastShown earlier (b :: rest) c = lastShown earlier rest (b.render c).2 := by
  rw [lastShown, shownBlocks_cons_of_nil h, lastShown]

theorem lastShown_cons_of_ne (h : (b.render c).1 ≠ []) :
    lastShown earlier (b :: rest) c =
      lastShown (some b) rest (separatorLine earlier b (b.render c).2).2 := by
  rw [lastShown, shownBlocks_cons_of_ne h, lastShown, List.getLast?_cons, Option.or_some]
  rfl

theorem shownBlocks_sublist (earlier : Option Block) (bs : List Block) (c : LineCounts) :
    (shownBlocks earlier bs c).Sublist bs := by
  induction bs generalizing earlier c with
  | nil => exact List.Sublist.refl []
  | cons b rest ih =>
    by_cases hshown : (b.render c).1 = []
    · rw [shownBlocks_cons_of_nil hshown]
      exact (ih earlier _).cons b
    · rw [shownBlocks_cons_of_ne hshown]
      exact (ih (some b) _).cons_cons b

theorem mem_of_mem_lastShown {bs : List Block} (hb : b ∈ lastShown earlier bs c) :
    b ∈ earlier ∨ b ∈ bs := by
  rcases Option.or_eq_some_iff.1 hb with hlast | ⟨-, hearlier⟩
  · exact Or.inr ((shownBlocks_sublist earlier bs c).subset (List.mem_of_getLast? hlast))
  · exact Or.inl hearlier

/-- The page is empty if and only if no block is shown. -/
theorem joinBlocks_eq_nil_iff (earlier : Option Block) (bs : List Block) (c : LineCounts) :
    (joinBlocks earlier bs c).1 = [] ↔ shownBlocks earlier bs c = [] := by
  induction bs generalizing earlier c with
  | nil => simp [joinBlocks, shownBlocks]
  | cons b rest ih =>
    by_cases hshown : (b.render c).1 = []
    · rw [joinBlocks_cons_of_nil hshown, shownBlocks_cons_of_nil hshown]
      exact ih earlier _
    · rw [joinBlocks_cons_of_ne hshown, shownBlocks_cons_of_ne hshown]
      simp [hshown]

/-- Joining blocks is joining the first of them and then the others, behind the one of the first
that has been written last. -/
theorem joinBlocks_append (earlier : Option Block) (bs more : List Block) (c : LineCounts) :
    (joinBlocks earlier (bs ++ more) c).1 = (joinBlocks earlier bs c).1 ++
      (joinBlocks (lastShown earlier bs c) more (joinBlocks earlier bs c).2).1 := by
  induction bs generalizing earlier c with
  | nil => rfl
  | cons b rest ih =>
    rw [List.cons_append]
    by_cases hshown : (b.render c).1 = []
    · rw [joinBlocks_cons_of_nil hshown, joinBlocks_cons_of_nil hshown,
        lastShown_cons_of_nil hshown]
      exact ih earlier _
    · rw [joinBlocks_cons_of_ne hshown, joinBlocks_cons_of_ne hshown,
        counts_joinBlocks_cons_of_ne hshown, lastShown_cons_of_ne hshown, ih (some b)]
      simp only [List.append_assoc]

namespace Draft

/-- The blocks that are written on the page. -/
def shown (d : Draft) : List Block := shownBlocks none d.blocks (LineCounts.start d.opened)

theorem body_eq_nil_iff (d : Draft) : d.body.1 = [] ↔ d.shown = [] :=
  joinBlocks_eq_nil_iff none d.blocks (LineCounts.start d.opened)

end Draft
end HtmlMarkdown.Layout
