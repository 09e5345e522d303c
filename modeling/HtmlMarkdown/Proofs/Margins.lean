import HtmlMarkdown.Proofs.LayoutRuns

/-!
What laying out keeps of the margins and the options of blocks. A prefix is opened with a slot of
its own, and a block stands under prefixes that are open, so what holds of the margins so far and
of each prefix that may be opened holds of all margins in the end. The options of a block are those
it has been opened with, or the usual ones, but for the hard break.
-/
namespace HtmlMarkdown.Layout

open Document

namespace Draft

/-- The margins that are open and those of all blocks. -/
def allMargins (d : Draft) : List Margin := d.margins ++ d.blocks.flatMap Block.margins

variable {d d' : Draft}

theorem mem_allMargins_of_mem {b : Block} (hb : b ∈ d.blocks) {m : Margin} (hm : m ∈ b.margins) :
    m ∈ d.allMargins :=
  List.mem_append_right _ (List.mem_flatMap.2 ⟨b, hb, hm⟩)

theorem allMargins_openPrefix (d : Draft) (p : LinePrefix) (options : BlockOptions) :
    (d.openPrefix p options).allMargins ⊆ ⟨p, d.opened⟩ :: d.allMargins := by
  intro m hm
  simp only [allMargins, openPrefix, List.flatMap_append, List.flatMap_cons, List.flatMap_nil,
    List.append_nil, List.mem_append, List.mem_cons] at hm ⊢
  tauto

theorem allMargins_closing {p : LinePrefix} (h : closing p d = .ok d') :
    d'.allMargins ⊆ d.allMargins ∧ d'.opened = d.opened := by
  obtain ⟨outer, slot, hmargins, rfl⟩ := eq_of_closing h
  refine ⟨fun m hm => ?_, rfl⟩
  simp only [allMargins, hmargins, List.flatMap_append, List.flatMap_cons, List.flatMap_nil,
    List.append_nil, List.mem_append, List.mem_singleton] at hm ⊢
  tauto

theorem allMargins_onLast {f : Block → Block} (hf : ∀ b, (f b).margins = b.margins) (d : Draft) :
    allMargins { d with blocks := onLast f d.blocks } = d.allMargins := by
  rw [allMargins, allMargins, List.flatMap_def, List.flatMap_def, map_onLast_of_eq hf]

end Draft

/-! Margins. -/

/-- A property of the margins of a draft and of how many prefixes have been opened that a prefix
opened next has no influence on. -/
structure MarginInvariant (I : List Margin → Nat → Prop) : Prop where
  subset : ∀ {ms ms' : List Margin} {n : Nat}, ms' ⊆ ms → I ms n → I ms' n
  opens : ∀ {k : Kind} {p : LinePrefix} {options : BlockOptions} {ms : List Margin} {n : Nat},
    blockOf? k = some (p, options) → I ms n → I (⟨p, n⟩ :: ms) (n + 1)

/-- A draft with the property has it still when something has been laid out. -/
theorem MarginInvariant.respectsSteps {I : List Margin → Nat → Prop} (hI : MarginInvariant I) :
    RespectsSteps (fun _ => True) fun d d' =>
      I d.allMargins d.opened → I d'.allMargins d'.opened := by
  have hopen : ∀ {k : Kind} {p : LinePrefix} {options : BlockOptions} (d : Draft),
      blockOf? k = some (p, options) → I d.allMargins d.opened →
      I (d.openPrefix p options).allMargins (d.openPrefix p options).opened := fun d hk hd =>
    hI.subset (d.allMargins_openPrefix _ _) (hI.opens hk hd)
  have hlast : ∀ {f : Block → Block}, (∀ b, (f b).margins = b.margins) → ∀ d : Draft,
      I d.allMargins d.opened →
      I (Draft.allMargins { d with blocks := onLast f d.blocks }) d.opened := fun hf d hd => by
    rwa [Draft.allMargins_onLast hf]
  refine ⟨fun _ => id, fun h h' => h' ∘ h, ?_, ?_, ?_, ?_, trivial⟩
  · intro d s hd
    rw [Draft.append]
    split
    · exact hlast (f := (·.append s)) (fun _ => rfl) _ (hopen (k := .paragraph) d rfl hd)
    · exact hlast (f := (·.append s)) (fun _ => rfl) d hd
  · intro _ d hd
    refine hlast (fun b => ?_) d hd
    rfl
  · intro d href _ hd
    rw [Draft.reference]
    split <;> exact hd
  · intro k p options d d₁ d' _ hk h hclose hd
    obtain ⟨hsub, hopened⟩ := Draft.allMargins_closing hclose
    rw [hopened]
    exact hI.subset hsub (h (hopen d hk hd))

theorem marginInvariant_linePrefix {P : LinePrefix → Prop}
    (hP : ∀ {k p options}, blockOf? k = some (p, options) → P p) :
    MarginInvariant fun ms _ => ∀ m ∈ ms, P m.linePrefix where
  subset hsub h m hm := h m (hsub hm)
  opens hk h := by
    rw [List.forall_mem_cons]
    exact ⟨hP hk, h⟩

/-! Options. -/

/-- What holds of the options that each block is opened with, under whatever margins. -/
structure OptionInvariant (kinds : Kind → Prop) (Q : BlockOptions → List Margin → Prop) : Prop where
  usual : ∀ ms, Q {} ms
  opens : ∀ {k p options} ms, kinds k → blockOf? k = some (p, options) → Q options ms
  hardBreak : ∀ {options ms}, kinds .lineBreak → Q options ms →
    Q { options with endsWithHardBreak := true } ms

theorem forall_mem_onLast {α : Type} {P : α → Prop} {f : α → α} (hf : ∀ x, P x → P (f x))
    {xs : List α} (h : ∀ x ∈ xs, P x) : ∀ x ∈ onLast f xs, P x := by
  fun_induction onLast f xs with
  | case1 => simp
  | case2 x => simpa using hf x (h x (List.mem_singleton_self x))
  | case3 x rest _ ih =>
    rw [List.forall_mem_cons] at h ⊢
    exact ⟨h.1, ih h.2⟩

theorem OptionInvariant.respectsSteps {kinds : Kind → Prop}
    {Q : BlockOptions → List Margin → Prop} (hQ : OptionInvariant kinds Q)
    (hparagraph : kinds .paragraph) :
    RespectsSteps kinds fun d d' =>
      (∀ b ∈ d.blocks, Q b.options b.margins) → ∀ b ∈ d'.blocks, Q b.options b.margins := by
  have hlast : ∀ {f : Block → Block} {blocks : List Block},
      (∀ b, Q b.options b.margins → Q (f b).options (f b).margins) →
      (∀ b ∈ blocks, Q b.options b.margins) → ∀ b ∈ onLast f blocks, Q b.options b.margins :=
    fun hf h => forall_mem_onLast (P := fun b : Block => Q b.options b.margins) hf h
  refine ⟨fun _ => id, fun h h' => h' ∘ h, ?_, ?_, ?_, ?_, hparagraph⟩
  · intro d s hd
    rw [Draft.append]
    refine hlast (f := (·.append s)) (fun b hb => hb) ?_
    split
    · simpa [Draft.openPrefix, or_imp, forall_and] using ⟨hd, hQ.usual _⟩
    · exact hd
  · intro hbreak d hd
    refine hlast (fun b hb => ?_) hd
    exact hQ.hardBreak hbreak hb
  · intro d href _ hd
    rw [Draft.reference]
    split <;> exact hd
  · intro k p options d d₁ d' hk hblock h hclose hd
    obtain ⟨outer, slot, -, rfl⟩ := Draft.eq_of_closing hclose
    have hopen : ∀ b ∈ (d.openPrefix p options).blocks, Q b.options b.margins := by
      simpa [Draft.openPrefix, or_imp, forall_and] using ⟨hd, hQ.opens _ hk hblock⟩
    simpa [or_imp, forall_and] using ⟨h hopen, hQ.usual outer⟩

end HtmlMarkdown.Layout
