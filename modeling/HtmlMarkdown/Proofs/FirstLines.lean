import HtmlMarkdown.Proofs.AlikeCounts

/-!
First lines. A draft may be written call by call, in any order, also with prefixes closed that are
not the ones opened last. Each prefix that is opened has a slot of its own, so on the page it shows
its first text on one line: the opening line of the earliest block with contents under it. The main
statement says so by writing the page without any line counts.
-/
namespace HtmlMarkdown.Layout

namespace Draft

/-- A call on a draft. -/
inductive Operation where
  | append (text : String)
  | openPrefix (linePrefix : LinePrefix) (options : BlockOptions)
  | closePrefix (expected : LinePrefix)
  | markHardBreak
  | addTrailer (line : String)
  | reference (href : String)

/-- The draft after the call, be it in vain or not. -/
def Operation.run (d : Draft) : Operation → Draft
  | append text => d.append text
  | openPrefix linePrefix options => d.openPrefix linePrefix options
  | closePrefix expected => (d.closePrefix expected).2
  | markHardBreak => d.markHardBreak
  | addTrailer line => d.addTrailer line
  | reference href => (d.reference href).2

/-- What calls make of the empty draft. -/
def ofOperations (ops : List Operation) : Draft := ops.foldl Operation.run {}

/-! Slots. -/

/-- The slots rise from the outermost margin to the innermost. -/
def Rising (margins : List Margin) : Prop := margins.Pairwise (·.slot < ·.slot)

/-- Each prefix that has been opened has a slot of its own. -/
structure Numbered (d : Draft) : Prop where
  slot_lt : ∀ m ∈ d.allMargins, m.slot < d.opened
  slot_inj : ∀ m ∈ d.allMargins, ∀ m' ∈ d.allMargins, m.slot = m'.slot → m = m'
  rising : Rising d.margins
  rising_blocks : ∀ b ∈ d.blocks, Rising b.margins

variable {d d' : Draft}

theorem numbered_empty : Numbered {} := by
  constructor
  case slot_lt => simp [allMargins]
  case slot_inj => simp [allMargins]
  case rising => exact List.Pairwise.nil
  case rising_blocks => simp

/-- Nothing is opened, and no block stands under other margins than before. -/
theorem Numbered.of_subset (h : d.Numbered) (hopened : d'.opened = d.opened)
    (hsub : d'.allMargins ⊆ d.allMargins) (hrising : Rising d'.margins)
    (hblocks : ∀ b ∈ d'.blocks, Rising b.margins) : d'.Numbered := by
  constructor
  case slot_lt =>
    rw [hopened]
    exact fun m hm => h.slot_lt m (hsub hm)
  case slot_inj => exact fun m hm m' hm' => h.slot_inj m (hsub hm) m' (hsub hm')
  case rising => exact hrising
  case rising_blocks => exact hblocks

theorem Numbered.openPrefix (h : d.Numbered) (p : LinePrefix) (options : BlockOptions) :
    (d.openPrefix p options).Numbered := by
  have hold : ∀ m ∈ d.allMargins, m.slot ≠ d.opened := fun m hm => Nat.ne_of_lt (h.slot_lt m hm)
  have hrising : Rising (d.margins ++ [⟨p, d.opened⟩]) := by
    refine List.pairwise_append.2 ⟨h.rising, List.pairwise_singleton .., ?_⟩
    intro m hm m' hm'
    rw [List.mem_singleton.1 hm']
    exact h.slot_lt m (List.mem_append_left _ hm)
  have hsub := d.allMargins_openPrefix p options
  constructor
  case slot_lt =>
    intro m hm
    rcases List.mem_cons.1 (hsub hm) with rfl | hm
    · exact Nat.lt_succ_self d.opened
    · exact Nat.lt_succ_of_lt (h.slot_lt m hm)
  case slot_inj =>
    intro m hm m' hm' hslot
    rcases List.mem_cons.1 (hsub hm) with rfl | hm <;>
      rcases List.mem_cons.1 (hsub hm') with rfl | hm'
    · rfl
    · exact absurd hslot.symm (hold m' hm')
    · exact absurd hslot (hold m hm)
    · exact h.slot_inj m hm m' hm' hslot
  case rising => exact hrising
  case rising_blocks =>
    intro b hb
    rcases List.mem_append.1 hb with hb | hb
    · exact h.rising_blocks b hb
    · rw [List.mem_singleton.1 hb]
      exact hrising

/-- A change of the last block that leaves its margins. -/
theorem Numbered.onLast (h : d.Numbered) {f : Block → Block}
    (hf : ∀ b, (f b).margins = b.margins) :
    Numbered { d with blocks := onLast f d.blocks } := by
  refine h.of_subset rfl (by rw [allMargins_onLast hf]; exact List.Subset.refl _) h.rising ?_
  refine forall_mem_onLast (P := fun b : Block => Rising b.margins) (fun b hb => ?_) h.rising_blocks
  rw [hf]
  exact hb

theorem Numbered.append (h : d.Numbered) (s : String) : (d.append s).Numbered := by
  have hlast : ∀ d : Draft, d.Numbered →
      Numbered { d with blocks := Layout.onLast (·.append s) d.blocks } := fun _ hd =>
    hd.onLast fun _ => rfl
  rw [Draft.append]
  split
  · exact hlast _ (h.openPrefix _ _)
  · exact hlast d h

/-- The open margins without the last; there may be a block more, which stands under these. -/
theorem closePrefix_eq (d : Draft) (p : LinePrefix) :
    ∃ new : List Block, (∀ b ∈ new, b.margins = d.margins.dropLast) ∧
      (d.closePrefix p).2 =
        { d with margins := d.margins.dropLast, blocks := d.blocks ++ new } := by
  unfold Draft.closePrefix
  split
  · rename_i hnone
    refine ⟨[], by simp, ?_⟩
    rw [List.getLast?_eq_none_iff.1 hnone, List.append_nil, List.dropLast_nil,
      ← List.getLast?_eq_none_iff.1 hnone]
  · split
    · exact ⟨[{ margins := d.margins.dropLast }], by simp, rfl⟩
    · refine ⟨[], by simp, ?_⟩
      rw [List.append_nil]

theorem allMargins_closePrefix_subset (d : Draft) (p : LinePrefix) :
    (d.closePrefix p).2.allMargins ⊆ d.allMargins := by
  obtain ⟨new, hnew, heq⟩ := d.closePrefix_eq p
  intro m hm
  rw [heq] at hm
  simp only [allMargins, List.flatMap_append, List.mem_append, List.mem_flatMap] at hm ⊢
  rcases hm with hm | hm | ⟨b, hb, hm⟩
  · exact Or.inl (List.mem_of_mem_dropLast hm)
  · exact Or.inr hm
  · rw [hnew b hb] at hm
    exact Or.inl (List.mem_of_mem_dropLast hm)

theorem Numbered.closePrefix (h : d.Numbered) (p : LinePrefix) :
    (d.closePrefix p).2.Numbered := by
  have houter : Rising d.margins.dropLast := h.rising.sublist (List.dropLast_sublist _)
  have hsub := d.allMargins_closePrefix_subset p
  obtain ⟨new, hnew, heq⟩ := d.closePrefix_eq p
  rw [heq] at hsub ⊢
  refine h.of_subset rfl hsub houter fun b hb => ?_
  rcases List.mem_append.1 hb with hb | hb
  · exact h.rising_blocks b hb
  · rw [hnew b hb]
    exact houter

theorem Numbered.reference (h : d.Numbered) (href : String) : (d.reference href).2.Numbered := by
  rw [Draft.reference]
  split
  · exact h
  · exact h.of_subset rfl (List.Subset.refl _) h.rising h.rising_blocks

/-- No call gives a slot away twice. -/
theorem Numbered.run (h : d.Numbered) (op : Operation) : (op.run d).Numbered := by
  cases op with
  | append text => exact h.append text
  | openPrefix linePrefix options => exact h.openPrefix linePrefix options
  | closePrefix expected => exact h.closePrefix expected
  | markHardBreak =>
    refine h.onLast fun b => ?_
    rfl
  | addTrailer line => exact h.of_subset rfl (List.Subset.refl _) h.rising h.rising_blocks
  | reference href => exact h.reference href

theorem numbered_ofOperations (ops : List Operation) : (ofOperations ops).Numbered := by
  have hrun : ∀ (ops : List Operation) (d : Draft), d.Numbered →
      (ops.foldl Operation.run d).Numbered := by
    intro ops
    induction ops with
    | nil => exact fun _ hd => hd
    | cons op rest ih => exact fun d hd => ih _ (hd.run op)
  exact hrun ops {} numbered_empty

/-! The call that a margin comes from. -/

/-- The margin that a call opens, if it opens any: a prefix with the next slot. -/
def Operation.opens? (d : Draft) : Operation → Option Margin
  | append _ => if d.blocks.isEmpty then some ⟨.uniform "", d.opened⟩ else none
  | openPrefix linePrefix _ => some ⟨linePrefix, d.opened⟩
  | _ => none

/-- The margins that calls on a draft open, one after the other. -/
def openedBy (d : Draft) : List Operation → List Margin
  | [] => []
  | op :: rest => (op.opens? d).toList ++ openedBy (op.run d) rest

/-- The margins of each block. -/
def blockMargins (d : Draft) : List (List Margin) := d.blocks.map Block.margins

/-- What becomes of a draft that has new margins: each has the next slot and a new block, where it
is the innermost, and the blocks so far keep theirs. -/
structure Opened (d : Draft) (new : Option Margin) (d' : Draft) : Prop where
  opened_eq : d'.opened = d.opened + new.toList.length
  slot_eq : ∀ m ∈ new, m.slot = d.opened
  subset : d'.allMargins ⊆ new.toList ++ d.allMargins
  blocks_keep : d.blockMargins ++ new.toList.map (fun m => d.margins ++ [m]) <+: d'.blockMargins

theorem Opened.of_none (hopened : d'.opened = d.opened) (hsub : d'.allMargins ⊆ d.allMargins)
    (hblocks : d.blockMargins <+: d'.blockMargins) : Opened d none d' :=
  ⟨hopened, by simp, hsub, by simpa using hblocks⟩

theorem opened_openPrefix (d : Draft) (p : LinePrefix) (options : BlockOptions) :
    Opened d (some ⟨p, d.opened⟩) (d.openPrefix p options) := by
  refine ⟨rfl, by simp, d.allMargins_openPrefix p options, ?_⟩
  rw [blockMargins, blockMargins, openPrefix, List.map_append]
  exact List.prefix_refl _

theorem blockMargins_onLast {f : Block → Block} (hf : ∀ b, (f b).margins = b.margins) (d : Draft) :
    blockMargins { d with blocks := onLast f d.blocks } = d.blockMargins :=
  map_onLast_of_eq hf d.blocks

/-- What a change of the last block leaves of its margins. -/
theorem Opened.onLast {new : Option Margin} (h : Opened d new d') {f : Block → Block}
    (hf : ∀ b, (f b).margins = b.margins) :
    Opened d new { d' with blocks := onLast f d'.blocks } := by
  refine ⟨h.opened_eq, h.slot_eq, ?_, ?_⟩
  · rw [allMargins_onLast hf]
    exact h.subset
  · rw [blockMargins_onLast hf]
    exact h.blocks_keep

theorem opened_self (d : Draft) : Opened d none d :=
  .of_none rfl (List.Subset.refl _) (List.prefix_refl _)

theorem opened_append (d : Draft) (s : String) :
    Opened d ((Operation.append s).opens? d) (d.append s) := by
  rw [Draft.append, Operation.opens?]
  split
  · exact (opened_openPrefix d _ _).onLast fun _ => rfl
  · exact (opened_self d).onLast fun _ => rfl

theorem opened_closePrefix (d : Draft) (p : LinePrefix) :
    Opened d none (d.closePrefix p).2 := by
  have hsub := d.allMargins_closePrefix_subset p
  obtain ⟨new, -, heq⟩ := d.closePrefix_eq p
  rw [heq] at hsub ⊢
  refine .of_none rfl hsub ?_
  rw [blockMargins, blockMargins, List.map_append]
  exact List.prefix_append _ _

theorem opened_run (d : Draft) (op : Operation) : Opened d (op.opens? d) (op.run d) := by
  cases op with
  | append text => exact opened_append d text
  | openPrefix linePrefix options => exact opened_openPrefix d linePrefix options
  | closePrefix expected => exact opened_closePrefix d expected
  | markHardBreak =>
    refine (opened_self d).onLast fun b => ?_
    rfl
  | addTrailer line => exact .of_none rfl (List.Subset.refl _) (List.prefix_refl _)
  | reference href =>
    simp only [Operation.run, Draft.reference, Operation.opens?]
    split
    · exact opened_self d
    · exact .of_none rfl (List.Subset.refl _) (List.prefix_refl _)

/-- Every margin comes from one call, which gives it the next slot and a block under the margins
that are open then. -/
structure GivenInOrder (ops : List Operation) : Prop where
  slots_eq : (openedBy {} ops).map Margin.slot = List.range (ofOperations ops).opened
  subset : (ofOperations ops).allMargins ⊆ openedBy {} ops
  block : ∀ before op after m, ops = before ++ op :: after →
    op.opens? (ofOperations before) = some m → (openedBy {} ops)[m.slot]? = some m ∧
      (ofOperations before).blockMargins ++ [(ofOperations before).margins ++ [m]] <+:
        (ofOperations ops).blockMargins

/-- The slots of a run go on where those before end. -/
theorem slots_openedBy (d : Draft) (ops : List Operation) :
    (openedBy d ops).map Margin.slot = List.range' d.opened (openedBy d ops).length ∧
      (ops.foldl Operation.run d).opened = d.opened + (openedBy d ops).length := by
  induction ops generalizing d with
  | nil => exact ⟨rfl, rfl⟩
  | cons op rest ih =>
    have hstep := opened_run d op
    obtain ⟨hslots, hopened⟩ := ih (op.run d)
    rw [hstep.opened_eq] at hslots hopened
    rw [openedBy, List.foldl_cons, hopened, List.map_append, hslots]
    cases hnew : op.opens? d with
    | none => simp
    | some m =>
      have hslot := hstep.slot_eq m hnew
      simp only [Option.toList_some, List.map_cons, List.map_nil, List.length_cons, List.length_nil,
        List.singleton_append, List.range'_succ, hslot]
      exact ⟨trivial, by omega⟩

theorem subset_openedBy (d : Draft) (ops : List Operation) :
    (ops.foldl Operation.run d).allMargins ⊆ d.allMargins ++ openedBy d ops := by
  induction ops generalizing d with
  | nil => simp [openedBy]
  | cons op rest ih =>
    have hstep := (opened_run d op).subset
    intro m hm
    have hm := ih (op.run d) hm
    simp only [openedBy, List.mem_append] at hm ⊢
    rcases hm with hm | hm
    · have := List.mem_append.1 (hstep hm)
      tauto
    · exact Or.inr (Or.inr hm)

theorem blockMargins_prefix (d : Draft) (ops : List Operation) :
    d.blockMargins <+: (ops.foldl Operation.run d).blockMargins := by
  induction ops generalizing d with
  | nil => exact List.prefix_refl _
  | cons op rest ih =>
    exact ((List.prefix_append _ _).trans (opened_run d op).blocks_keep).trans (ih (op.run d))

theorem openedBy_append (d : Draft) (before after : List Operation) :
    openedBy d (before ++ after) =
      openedBy d before ++ openedBy (before.foldl Operation.run d) after := by
  induction before generalizing d with
  | nil => rfl
  | cons op rest ih =>
    rw [List.cons_append, openedBy, openedBy, ih, List.append_assoc]
    rfl

theorem givenInOrder (ops : List Operation) : GivenInOrder ops := by
  constructor
  case slots_eq =>
    obtain ⟨hslots, hopened⟩ := slots_openedBy {} ops
    rw [hslots, ofOperations, hopened, List.range_eq_range', Nat.zero_add]
  case subset =>
    intro m hm
    exact (List.mem_append.1 (subset_openedBy {} ops hm)).resolve_left (by simp [allMargins])
  case block =>
    rintro before op after m rfl hm
    have hstep := opened_run (ofOperations before) op
    have hslot : m.slot = (openedBy {} before).length := by
      rw [hstep.slot_eq m hm, ofOperations, (slots_openedBy {} before).2, Nat.zero_add]
    constructor
    · rw [openedBy_append, hslot, List.getElem?_append_right (Nat.le_refl _), Nat.sub_self]
      change ((op.opens? (ofOperations before)).toList ++ _)[0]? = some m
      rw [hm]
      rfl
    · have hblocks := hstep.blocks_keep
      rw [hm] at hblocks
      have hlater := blockMargins_prefix (op.run (ofOperations before)) after
      rw [ofOperations, ofOperations, List.foldl_append]
      exact hblocks.trans hlater

end Draft

/-! The page without line counts. -/

/-- No block with contents among those before stands under the margin. -/
def Unshown (before : List Block) (m : Margin) : Prop :=
  ∀ b ∈ before, b.contents ≠ none → m ∉ b.margins

instance (before : List Block) (m : Margin) : Decidable (Unshown before m) :=
  inferInstanceAs (Decidable (∀ b ∈ before, b.contents ≠ none → m ∉ b.margins))

/-- What the opening line of a block starts with. -/
def openingStart (before : List Block) (margins : List Margin) : List Char :=
  margins.flatMap fun m =>
    (if Unshown before m then m.linePrefix.first else m.linePrefix.later).toList

/-- What every other line under the margins starts with. -/
def laterStart (margins : List Margin) : List Char :=
  margins.flatMap fun m => m.linePrefix.later.toList

/-- The rows that pieces fall into where each new line starts with `start`: what is added to the
row begun at column `col`, and the rows after it. -/
def rowsFrom (start : List Char) (maxWidth : Nat) :
    List Piece → (col : Nat) → (fresh : Bool) → List Char × List (List Char)
  | [], _, _ => ([], [])
  | piece :: rest, col, fresh =>
    let width := Text.columns piece.text
    if piece.isNewline then
      let (row, rows) := rowsFrom start maxWidth rest (Text.columns start + width) false
      (if fresh then [] else piece.gap, row :: rows)
    else if !fresh && 0 < maxWidth && maxWidth < col + width then
      let (row, rows) := rowsFrom start maxWidth rest (Text.columns start + width) false
      ([], (piece.word ++ row) :: rows)
    else
      let (row, rows) := rowsFrom start maxWidth rest (col + width) false
      ((if fresh then piece.word else piece.text) ++ row, rows)

/-- The lines of a block that stands behind the blocks `before`; none if it was never given any
text. -/
def Block.linesAfter (before : List Block) (b : Block) : List (List Char) :=
  match b.contents with
  | none => []
  | some contents =>
    let opening := openingStart before b.margins
    let (row, rows) := rowsFrom (laterStart b.margins) b.options.maxWidth
      (pieces (flatten b.options.preserveNewlines contents.toList)) (Text.columns opening) true
    (opening ++ row) :: rows.map (laterStart b.margins ++ ·)

/-- The line between the block written last and the next, with its newline. -/
def separatorAfter (earlier : Option Block) (later : Block) : List Char :=
  match earlier with
  | none => []
  | some earlier =>
    if (later.isHeading && earlier.isHeading) || earlier.options.endsWithHardBreak then []
    else Text.trim (laterStart earlier.margins) ++ ['\n']

/-- The page, where the blocks `before` have been gone through already and `earlier` is the one of
them that has been written last. -/
def pageAfter (before : List Block) (earlier : Option Block) : List Block → List Char
  | [] => []
  | b :: rest =>
    let shown := ['\n'].intercalate (b.linesAfter before)
    if shown.isEmpty then pageAfter (before ++ [b]) earlier rest
    else separatorAfter earlier b ++ shown ++ b.ending ++ pageAfter (before ++ [b]) (some b) rest

/-! Line counts say what has been shown. -/

/-- The counts at zero are those of the margins that no block with contents has stood under. -/
def CountsShown (all : List Margin) (before : List Block) (c : LineCounts) : Prop :=
  ∀ m ∈ all, c.getD m.slot 0 = 0 ↔ Unshown before m

variable {all margins : List Margin} {before : List Block} {earlier : Option Block} {b : Block}
  {c : LineCounts}

theorem countsShown_start (opened : Nat) : CountsShown all [] (LineCounts.start opened) := by
  intro m _
  have hzero : (LineCounts.start opened).getD m.slot 0 = 0 := by
    rw [LineCounts.start, List.getD_eq_getElem?_getD, List.getElem?_replicate]
    split <;> rfl
  exact iff_of_true hzero fun b hb => absurd hb List.not_mem_nil

theorem CountsShown.of_sameZeros {c' : LineCounts} (h : CountsShown all before c)
    (hc : SameZeros c c') : CountsShown all before c' := fun m hm => by
  rw [← hc.zero_iff, h m hm]

theorem unshown_concat {m : Margin} : Unshown (before ++ [b]) m ↔
    Unshown before m ∧ (b.contents ≠ none → m ∉ b.margins) := by
  simp only [Unshown, List.mem_append, List.mem_singleton, or_imp, forall_and, forall_eq]

/-- Rendering a block shows the margins that it stands under, if it has contents. -/
theorem CountsShown.render (h : CountsShown all before c) (hcounted : Counted all c)
    (hinj : ∀ m ∈ all, ∀ m' ∈ all, m.slot = m'.slot → m = m') (hsub : b.margins ⊆ all) :
    CountsShown all (before ++ [b]) (b.render c).2 := by
  intro m hm
  rw [unshown_concat]
  by_cases hcontents : b.contents = none
  · have hrender : (b.render c).2 = c := by rw [Block.render, hcontents]
    rw [hrender, h m hm]
    simp [hcontents]
  · -- the slot stands for the margin
    have hslot : m.slot ∈ b.margins.map Margin.slot ↔ m ∈ b.margins := by
      refine ⟨fun hmem => ?_, List.mem_map_of_mem⟩
      obtain ⟨m', hm', hslot⟩ := List.mem_map.1 hmem
      rwa [hinj m hm m' (hsub hm') hslot.symm]
    have hzeros := b.render_sameZeros (fun m' hm' => hcounted m' (hsub hm')) hcontents
    rw [← hzeros.zero_iff, getD_renderMargins_eq_zero, h m hm, hslot]
    simp only [hcontents, ne_eq, not_false_eq_true, forall_const, hcounted m hm]

/-- The slots of margins that rise are all different. -/
theorem Draft.Rising.slot_notMem {m : Margin} {rest : List Margin} (h : Draft.Rising (m :: rest)) :
    ∀ m' ∈ rest, m'.slot ≠ m.slot := fun m' hm' =>
  Nat.ne_of_gt ((List.pairwise_cons.1 h).1 m' hm')

/-- The opening line of a block. -/
theorem renderMargins_eq_openingStart (h : CountsShown all before c) (hsub : margins ⊆ all)
    (hrising : Draft.Rising margins) :
    (renderMargins margins c).1 = openingStart before margins := by
  -- counting a line under the outer margins leaves the counts of the inner ones
  have hall : ∀ (ms : List Margin) (c : LineCounts), Draft.Rising ms →
      (∀ m ∈ ms, c.getD m.slot 0 = 0 ↔ Unshown before m) →
      (renderMargins ms c).1 = openingStart before ms := by
    intro ms
    induction ms with
    | nil => exact fun _ _ _ => rfl
    | cons m rest ih =>
      intro c hrising hzero
      rw [List.forall_mem_cons] at hzero
      have hrest := ih (renderMargins [m] c).2 (List.pairwise_cons.1 hrising).2 fun m' hm' => by
        have hne := hrising.slot_notMem m' hm'
        rw [getD_renderMargins_eq_zero, hzero.2 m' hm']
        simp [hne]
      simp only [renderMargins, openingStart, List.flatMap_cons, hzero.1] at hrest ⊢
      rw [hrest]
  exact hall margins c hrising fun m hm => h m (hsub hm)

/-- Every other line. -/
theorem Written.renderMargins_eq (h : Written margins c) :
    (Layout.renderMargins margins c).1 = laterStart margins := by
  induction margins generalizing c with
  | nil => rfl
  | cons m rest ih =>
    have hrest := ih (c := c.modify m.slot (· + 1)) fun m' hm' =>
      h.renderMargins [m] m' (List.mem_cons_of_mem m hm')
    simp only [Layout.renderMargins, laterStart, List.flatMap_cons, h m (List.mem_cons_self ..),
      if_false] at hrest ⊢
    rw [hrest]

/-- Behind the opening line, rows are written on lines of their own. -/
theorem Written.layPieces_eq (h : Written margins c) (maxWidth : Nat) (ps : List Piece) (col : Nat)
    (fresh : Bool) : (Layout.layPieces margins maxWidth ps col fresh c).1 =
      (rowsFrom (laterStart margins) maxWidth ps col fresh).1 ++
        (rowsFrom (laterStart margins) maxWidth ps col fresh).2.flatMap
          fun row => '\n' :: (laterStart margins ++ row) := by
  induction ps generalizing col fresh c with
  | nil => rfl
  | cons p rest ih =>
    have hnext : Written margins (Layout.renderMargins margins c).2 := h.of_sameZeros h.sameZeros
    simp only [Layout.layPieces, rowsFrom, h.renderMargins_eq, ih hnext, ih h]
    split
    · rename_i hp
      have hword : p.word = ['\n'] := by simpa [Piece.isNewline] using hp
      cases fresh <;> simp [Piece.text, hword]
    · split <;> simp

theorem intercalate_cons_map {row : List Char} {rows : List (List Char)} {start : List Char} :
    ['\n'].intercalate (row :: rows.map (start ++ ·)) =
      row ++ rows.flatMap fun row => '\n' :: (start ++ row) := by
  induction rows generalizing row with
  | nil => simp
  | cons next more ih =>
    rw [List.map_cons, List.intercalate_cons_cons, ih]
    simp

/-- A block shows first texts where its opening line is the first line under their margins. -/
theorem Block.render_eq_linesAfter (h : CountsShown all before c) (hcounted : Counted b.margins c)
    (hsub : b.margins ⊆ all) (hrising : Draft.Rising b.margins) :
    (b.render c).1 = ['\n'].intercalate (b.linesAfter before) := by
  cases hcontents : b.contents with
  | none => simp [Block.render, Block.linesAfter, hcontents]
  | some contents =>
    simp only [Block.render, Block.linesAfter, hcontents, wrap, intercalate_cons_map,
      renderMargins_eq_openingStart h hsub hrising,
      (written_renderMargins hcounted).layPieces_eq, List.append_assoc]

theorem separatorLine_eq_separatorAfter (h : ∀ e ∈ earlier, Written e.margins c) (later : Block) :
    (separatorLine earlier later c).1 = separatorAfter earlier later := by
  cases earlier with
  | none => rfl
  | some e =>
    simp only [separatorLine, separatorAfter, (h e rfl).renderMargins_eq]
    split <;> rfl

/-- Joining blocks writes the page that knows of no line counts. -/
theorem joinBlocks_eq_pageAfter (blocks : List Block) (h : CountsShown all before c)
    (hcounted : Counted all c) (hinj : ∀ m ∈ all, ∀ m' ∈ all, m.slot = m'.slot → m = m')
    (hearlier : ∀ e ∈ earlier, Written e.margins c)
    (hblocks : ∀ b ∈ blocks, b.margins ⊆ all ∧ Draft.Rising b.margins) :
    (joinBlocks earlier blocks c).1 = pageAfter before earlier blocks := by
  induction blocks generalizing before earlier c with
  | nil => rfl
  | cons b rest ih =>
    rw [List.forall_mem_cons] at hblocks
    obtain ⟨⟨hsub, hrising⟩, hrest⟩ := hblocks
    have hblock : Counted b.margins c := fun m hm => hcounted m (hsub hm)
    have hshown := Block.render_eq_linesAfter h hblock hsub hrising
    have hcounts := h.render hcounted hinj hsub
    have hlength := hcounted.of_length_eq (Block.length_render b c)
    have hafter : ∀ e ∈ earlier, Written e.margins (b.render c).2 := fun e he =>
      (hearlier e he).render hblock
    by_cases hempty : (b.render c).1 = []
    · rw [joinBlocks_cons_of_nil hempty, pageAfter, ← hshown, hempty]
      exact ih hcounts hlength hafter hrest
    · have hcontents : b.contents ≠ none := fun hnone => hempty (by rw [Block.render, hnone])
      have hzeros := separatorLine_sameZeros hafter b
      have hlast : ∀ e ∈ some b, Written e.margins (separatorLine earlier b (b.render c).2).2 := by
        intro e he
        obtain rfl : b = e := by simpa using he
        exact (b.written_render hblock hcontents).of_sameZeros hzeros
      have hmore := ih (hcounts.of_sameZeros hzeros) (hlength.of_length_eq hzeros.length_eq.symm)
        hlast hrest
      rw [joinBlocks_cons_of_ne hempty, pageAfter, ← hshown, if_neg (by simpa using hempty),
        separatorLine_eq_separatorAfter hafter, hmore]

namespace Draft

variable {d : Draft}

/-- Where slots have been given out in order, every margin has its counter. -/
theorem Numbered.counted (h : d.Numbered) : Counted d.allMargins (LineCounts.start d.opened) :=
  fun m hm => by
    rw [LineCounts.start, List.length_replicate]
    exact h.slot_lt m hm

theorem Numbered.body_eq_pageAfter (h : d.Numbered) : d.body.1 = pageAfter [] none d.blocks :=
  joinBlocks_eq_pageAfter d.blocks (countsShown_start _) h.counted h.slot_inj (by simp)
    fun b hb => ⟨fun _ hm => mem_allMargins_of_mem hb hm, h.rising_blocks b hb⟩

/-- Whatever calls make a draft, each prefix that is opened has a slot of its own, every look at a
line counter finds one, and a prefix shows its first text on the opening line of the earliest block
with contents that stands under it, and on no other line. The margins are those that the calls have
opened, one after the other. -/
theorem body_ofOperations (ops : List Operation) :
    (ofOperations ops).Numbered ∧ GivenInOrder ops ∧
      joinBlocks? none (ofOperations ops).blocks (LineCounts.start (ofOperations ops).opened) =
        some (ofOperations ops).body ∧
      (ofOperations ops).body.1 = pageAfter [] none (ofOperations ops).blocks := by
  have h := numbered_ofOperations ops
  refine ⟨h, givenInOrder ops, joinBlocks?_eq (by simp) fun b hb m hm => ?_, h.body_eq_pageAfter⟩
  exact h.counted m (mem_allMargins_of_mem hb hm)

-- the item's marker stands in front of `a`, since the block before it was never given any text
example : (ofOperations [.openPrefix ⟨"  - ", "    "⟩ {}, .openPrefix (.uniform "> ") {},
    .append "a", .closePrefix (.uniform "> "), .append "b"]).bodyText = "  - > a\n>\n    b\n" := by
  decide +kernel

end Draft
end HtmlMarkdown.Layout
