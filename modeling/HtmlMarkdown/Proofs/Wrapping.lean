import HtmlMarkdown.Proofs.LayoutRuns
import HtmlMarkdown.Proofs.Unfolding

/-!
How the texts of a document are wrapped. A block-level node opens a block that is wrapped as its
kind asks for. Where a prefix is closed another block starts, and that one is wrapped as usual,
whatever is still open around it. So a text is wrapped as the nearest block-level node around it
asks for, unless something in that node has ended a block in front of the text.
-/
namespace HtmlMarkdown.Layout

open Document

/-- How a block's text is wrapped: up to which column, and whether its newlines are kept. -/
structure Wrapping where
  maxWidth : Nat
  preserveNewlines : Bool
deriving DecidableEq

/-- How text is wrapped where nothing else is asked for. -/
def Wrapping.usual : Wrapping := ⟨80, false⟩

def BlockOptions.wrapping (options : BlockOptions) : Wrapping :=
  ⟨options.maxWidth, options.preserveNewlines⟩

/-- How the text in a block-level node is to be wrapped, or that in none. -/
def askedBy : Option Kind → Wrapping
  | some .preformatted => ⟨0, true⟩
  | some (.heading _) => ⟨0, false⟩
  | _ => .usual

theorem wrapping_of_blockOf? {k : Kind} {p : LinePrefix} {options : BlockOptions}
    (h : blockOf? k = some (p, options)) : options.wrapping = askedBy (some k) := by
  cases k with
  | heading | listItem | numberedItem | preformatted | paragraph | blockquote =>
    obtain ⟨-, rfl⟩ := Prod.mk.inj (Option.some.inj h)
    rfl
  | document | link | bold | italic | orderedList | code | lineBreak | separator => cases h

/-! Places of texts. -/

mutual

/-- A block ends in the outline, so what follows it stands in another one. -/
def interrupts : Outline → Bool
  | .text _ => false
  | .node k children => k.endsBlock || (blockOf? k).isSome || anyInterrupts children

def anyInterrupts : List Outline → Bool
  | [] => false
  | first :: rest => interrupts first || anyInterrupts rest

end

/-- A text of the document, with the nearest block-level node around it. -/
structure Placement where
  contents : String
  within : Option Kind
  /-- A block has ended in that node in front of the text. -/
  interrupted : Bool

/-- How text is wrapped in the node, and behind a block that has ended in it. -/
def wrappingIn (within : Option Kind) (interrupted : Bool) : Wrapping :=
  if interrupted then .usual else askedBy within

/-- How the block is wrapped that the text is given to. -/
def Placement.wrapping (place : Placement) : Wrapping := wrappingIn place.within place.interrupted

mutual

/-- The texts that are laid out, in document order. -/
def placements (within : Option Kind) (interrupted : Bool) : Outline → List Placement
  | .text contents => [⟨contents, within, interrupted⟩]
  | .node k children =>
    if k.endsBlock then []
    else if (blockOf? k).isSome then allPlacements (some k) false children
    else allPlacements within interrupted children

def allPlacements (within : Option Kind) (interrupted : Bool) : List Outline → List Placement
  | [] => []
  | first :: rest =>
    placements within interrupted first
      ++ allPlacements within (interrupted || interrupts first) rest

end

/-- The draft that the contents of a node are written into. -/
def entered (k : Kind) (children : List Outline) (d : Draft) : Draft :=
  match blockOf? k, delimiterOf? k, k with
  | some (linePrefix, options), _, _ => d.openPrefix linePrefix options
  | none, some delimiter, _ => d.append delimiter
  | none, none, .link href =>
    if isAutolink href children then d.append "<" else (d.reference href).2.append "["
  | none, none, _ => d

/-- A text of the document, with the number of the block that it is given to. -/
structure Home where
  contents : String
  block : Nat

mutual

/-- The blocks that the texts of an outline are given to when it is laid out. -/
def homes : Outline → Draft → List Home
  | .text contents, d => [⟨contents, (d.append contents).blocks.length - 1⟩]
  | .node k children, d => if k.endsBlock then [] else allHomes children (entered k children d)

def allHomes : List Outline → Draft → List Home
  | [], _ => []
  | first :: rest, d =>
    homes first d ++ match layOutline first d with
      | .ok d' => allHomes rest d'
      | .error _ => []

end

/-! What becomes of blocks. -/

/-- The block is the same with more text at its end. -/
structure Block.Grows (b b' : Block) : Prop where
  wrapping_eq : b'.options.wrapping = b.options.wrapping
  contents : ∀ s, b.contents = some s → ∃ more, b'.contents = some (s ++ more)

theorem Block.Grows.refl (b : Block) : b.Grows b :=
  ⟨rfl, fun s hs => ⟨"", by rw [hs, String.append_empty]⟩⟩

theorem Block.Grows.trans {b b₁ b' : Block} (h : b.Grows b₁) (h' : b₁.Grows b') : b.Grows b' := by
  refine ⟨h'.wrapping_eq.trans h.wrapping_eq, fun s hs => ?_⟩
  obtain ⟨more, hmore⟩ := h.contents s hs
  obtain ⟨yet, hyet⟩ := h'.contents _ hmore
  exact ⟨more ++ yet, by rw [hyet, String.append_assoc]⟩

theorem Block.grows_append (b : Block) (s : String) : b.Grows (b.append s) :=
  ⟨rfl, fun c hc => ⟨s, by rw [Block.append, hc]; rfl⟩⟩

theorem exists_getElem?_onLast {α : Type} {R : α → α → Prop} {f : α → α} (hrefl : ∀ x, R x x)
    (hf : ∀ x, R x (f x)) {xs : List α} {n : Nat} {x : α} (h : xs[n]? = some x) :
    ∃ y, (onLast f xs)[n]? = some y ∧ R x y := by
  fun_induction onLast f xs generalizing n with
  | case1 => simp at h
  | case2 first =>
    cases n with
    | zero =>
      obtain rfl : first = x := by simpa using h
      exact ⟨f first, rfl, hf first⟩
    | succ n => simp at h
  | case3 first rest _ ih =>
    cases n with
    | zero => exact ⟨x, h, hrefl x⟩
    | succ n => exact ih h

namespace Draft

/-- The blocks of one draft are still there in the other. -/
def Extends (d d' : Draft) : Prop :=
  ∀ (n : Nat) (b : Block), d.blocks[n]? = some b → ∃ b', d'.blocks[n]? = some b' ∧ b.Grows b'

/-- How the block is wrapped that is written into next. -/
def nextWrapping (d : Draft) : Wrapping :=
  (d.blocks.map fun b => b.options.wrapping).getLast?.getD .usual

/-- What becomes of a draft when something is laid out that ends a block or does not. -/
structure Continues (d d' : Draft) (interrupted : Bool) : Prop where
  extends_blocks : d.Extends d'
  next : d'.nextWrapping = if interrupted then .usual else d.nextWrapping

variable {d d₁ d' : Draft}

theorem Extends.refl (d : Draft) : d.Extends d := fun _ b hb => ⟨b, hb, .refl b⟩

theorem Extends.trans (h : d.Extends d₁) (h' : d₁.Extends d') : d.Extends d' := by
  intro n b hb
  obtain ⟨b₁, hb₁, hgrows⟩ := h n b hb
  obtain ⟨b', hb', hgrows'⟩ := h' n b₁ hb₁
  exact ⟨b', hb', hgrows.trans hgrows'⟩

/-- One more block changes nothing in those before it. -/
theorem extends_concat (hblocks : ∃ b, d'.blocks = d.blocks ++ [b]) : d.Extends d' := by
  obtain ⟨last, hlast⟩ := hblocks
  intro n b hb
  have hn := (List.getElem?_eq_some_iff.1 hb).1
  exact ⟨b, by rw [hlast, List.getElem?_append_left hn, hb], .refl b⟩

theorem extends_openPrefix (d : Draft) (p : LinePrefix) (options : BlockOptions) :
    d.Extends (d.openPrefix p options) :=
  extends_concat ⟨_, rfl⟩

theorem nextWrapping_openPrefix (d : Draft) (p : LinePrefix) (options : BlockOptions) :
    (d.openPrefix p options).nextWrapping = options.wrapping := by
  simp [nextWrapping, openPrefix]

theorem continues_onLast {f : Block → Block} (hf : ∀ b : Block, b.Grows (f b)) (d : Draft) :
    d.Continues { d with blocks := onLast f d.blocks } false := by
  refine ⟨fun n b hb => exists_getElem?_onLast .refl hf hb, ?_⟩
  have hmap := map_onLast_of_eq (g := fun b : Block => b.options.wrapping)
    (fun b => (hf b).wrapping_eq) d.blocks
  simp only [nextWrapping, hmap, Bool.false_eq_true, if_false]

namespace Continues

variable {a b : Bool}

theorem refl (d : Draft) : d.Continues d false := ⟨.refl d, rfl⟩

theorem trans (h : d.Continues d₁ a) (h' : d₁.Continues d' b) : d.Continues d' (a || b) := by
  refine ⟨h.extends_blocks.trans h'.extends_blocks, ?_⟩
  rw [h'.next, h.next]
  cases a <;> cases b <;> rfl

/-- Where a prefix is closed another block starts, and it is wrapped as usual. -/
theorem closing {p : LinePrefix} (h : d.Extends d₁) (hclose : closing p d₁ = .ok d') :
    d.Continues d' true := by
  obtain ⟨outer, slot, -, rfl⟩ := eq_of_closing hclose
  refine ⟨h.trans (extends_concat ⟨_, rfl⟩), ?_⟩
  simp [nextWrapping, BlockOptions.wrapping, Wrapping.usual]

end Continues

theorem continues_append (d : Draft) (s : String) : d.Continues (d.append s) false := by
  rw [append]
  have hlast : ∀ d : Draft, d.Continues { d with blocks := onLast (·.append s) d.blocks } false :=
    continues_onLast fun b => b.grows_append s
  split
  · rename_i hempty
    have hopen : d.Continues (d.openPrefix (.uniform "") {}) false := by
      refine ⟨d.extends_openPrefix _ _, ?_⟩
      rw [nextWrapping_openPrefix, nextWrapping, List.isEmpty_iff.1 hempty]
      rfl
    exact hopen.trans (hlast _)
  · exact hlast d

theorem continues_markHardBreak (d : Draft) : d.Continues d.markHardBreak false := by
  refine continues_onLast (fun b => ?_) d
  exact ⟨rfl, (Block.Grows.refl b).contents⟩

theorem continues_reference (d : Draft) (href : String) :
    d.Continues (d.reference href).2 false := by
  rw [reference]
  split
  · exact .refl d
  · exact ⟨fun n b hb => ⟨b, hb, .refl b⟩, rfl⟩

theorem continues_boundary (h : boundary d = .ok d') : d.Continues d' true :=
  .closing (d.extends_openPrefix _ _) h

/-- A text is given to the last block. -/
theorem exists_block_append (d : Draft) (s : String) :
    ∃ b : Block, (d.append s).blocks[(d.append s).blocks.length - 1]? = some (b.append s) ∧
      b.options.wrapping = d.nextWrapping := by
  rw [← List.getLast?_eq_getElem?, append, nextWrapping]
  rcases List.eq_nil_or_concat d.blocks with hnil | ⟨init, b, hlast⟩
  · refine ⟨{ margins := d.margins ++ [⟨.uniform "", d.opened⟩] }, ?_, ?_⟩
    · simp [hnil, openPrefix, onLast]
    · rw [hnil]
      rfl
  · rw [List.concat_eq_append] at hlast
    refine ⟨b, ?_, by simp [hlast]⟩
    rw [if_neg (by simp [hlast]), hlast, onLast_append _ _ (List.cons_ne_nil b [])]
    simp [onLast]

end Draft

/-! What laying out leads to. -/

section Node

variable {k : Kind} {children : List Outline} {d d' : Draft}

theorem entered_block {p : LinePrefix} {options : BlockOptions}
    (h : blockOf? k = some (p, options)) : entered k children d = d.openPrefix p options := by
  simp only [entered, h]

theorem interrupts_block {p : LinePrefix} {options : BlockOptions}
    (h : blockOf? k = some (p, options)) : interrupts (.node k children) = true := by
  simp [interrupts, h]

/-- The contents of a node that opens no prefix are written into the block that is there. -/
theorem exists_of_layOutline_inline (hends : k.endsBlock = false) (hblock : blockOf? k = none)
    (h : layOutline (.node k children) d = .ok d') :
    ∃ d₁, layOutlines children (entered k children d) = .ok d₁ ∧
      d.Continues (entered k children d) false ∧ d₁.Continues d' false := by
  cases treatment k with
  | block hk => simp [hblock] at hk
  | delimited _ hdelimiter =>
    rw [layOutline_delimited children d hblock hdelimiter] at h
    obtain ⟨d₁, hrun, hlast⟩ := exists_of_bind_eq_ok h
    cases hlast
    simp only [entered, hblock, hdelimiter]
    exact ⟨d₁, hrun, d.continues_append _, d₁.continues_append _⟩
  | link href =>
    by_cases hauto : isAutolink href children
    · rw [layOutline_autolink children d hauto] at h
      obtain ⟨d₁, hrun, hlast⟩ := exists_of_bind_eq_ok h
      cases hlast
      simp only [entered, hblock, delimiterOf?, if_pos hauto]
      exact ⟨d₁, hrun, d.continues_append _, d₁.continues_append _⟩
    · rw [layOutline_reference children d hauto] at h
      obtain ⟨d₁, hrun, hlast⟩ := exists_of_bind_eq_ok h
      cases hlast
      simp only [entered, hblock, delimiterOf?, if_neg hauto]
      exact ⟨d₁, hrun, (d.continues_reference href).trans (Draft.continues_append _ _),
        d₁.continues_append _⟩
  | document => exact ⟨d', h, .refl d, .refl d'⟩
  | lineBreak | separator => cases hends
  | orderedList => cases h

/-- Where nothing else is laid out, a block ends. -/
theorem continues_of_endsBlock (hends : k.endsBlock = true)
    (h : layOutline (.node k children) d = .ok d') : d.Continues d' true := by
  cases treatment k with
  | block hk => simp [endsBlock_of_blockOf? hk] at hends
  | delimited _ hk => simp [endsBlock_of_delimiterOf? hk] at hends
  | lineBreak => exact d.continues_markHardBreak.trans (Draft.continues_boundary h)
  | separator => exact Draft.continues_boundary h
  | link | document | orderedList => cases hends

/-- A node goes on with the block that is there, unless a block ends in it. -/
theorem continues_node (hcontents : ∀ {d d' : Draft}, layOutlines children d = .ok d' →
      d.Continues d' (anyInterrupts children)) (h : layOutline (.node k children) d = .ok d') :
    d.Continues d' (interrupts (.node k children)) := by
  cases hends : k.endsBlock with
  | true => simpa [interrupts, hends] using continues_of_endsBlock hends h
  | false =>
    cases hblock : blockOf? k with
    | some opened =>
      obtain ⟨p, options⟩ := opened
      rw [layOutline_block children d hblock] at h
      obtain ⟨d₁, hrun, hclose⟩ := exists_of_bind_eq_ok h
      rw [interrupts_block hblock]
      exact .closing ((d.extends_openPrefix p options).trans (hcontents hrun).extends_blocks) hclose
    | none =>
      obtain ⟨d₁, hrun, hbefore, hafter⟩ := exists_of_layOutline_inline hends hblock h
      have hall := (hbefore.trans (hcontents hrun)).trans hafter
      simpa [interrupts, hends, hblock] using hall

end Node

mutual

theorem continues_outline : ∀ (o : Outline) {d d' : Draft}, layOutline o d = .ok d' →
    d.Continues d' (interrupts o)
  | .text contents, d, d', h => by
    cases h
    exact d.continues_append contents
  | .node k children, d, d', h => continues_node (continues_outlines children) h

theorem continues_outlines : ∀ (os : List Outline) {d d' : Draft}, layOutlines os d = .ok d' →
    d.Continues d' (anyInterrupts os)
  | [], d, d', h => by
    cases h
    exact .refl d
  | first :: rest, d, d', h => by
    obtain ⟨d₁, hfirst, hrest⟩ := exists_of_bind_eq_ok h
    exact (continues_outline first hfirst).trans (continues_outlines rest hrest)

end

/-! Texts in their blocks. -/

/-- The block with the given number holds the text, and is wrapped as its place says. -/
structure Draft.Houses (d : Draft) (home : Home) (place : Placement) : Prop where
  contents_eq : home.contents = place.contents
  exists_block : ∃ b front back, d.blocks[home.block]? = some b ∧
    b.contents = some (front ++ place.contents ++ back) ∧ b.options.wrapping = place.wrapping

variable {d d' : Draft}

theorem Draft.Houses.mono {home : Home} {place : Placement} (h : d.Houses home place)
    (hext : d.Extends d') : d'.Houses home place := by
  obtain ⟨hcontents, b, front, back, hb, htext, hwrapping⟩ := h
  obtain ⟨b', hb', hgrows⟩ := hext _ b hb
  obtain ⟨more, hmore⟩ := hgrows.contents _ htext
  refine ⟨hcontents, b', front, back ++ more, hb', ?_, hgrows.wrapping_eq.trans hwrapping⟩
  rw [hmore, String.append_assoc]

theorem houses_append (d : Draft) (place : Placement) (h : d.nextWrapping = place.wrapping) :
    (d.append place.contents).Houses
      ⟨place.contents, (d.append place.contents).blocks.length - 1⟩ place := by
  obtain ⟨b, hb, hwrapping⟩ := d.exists_block_append place.contents
  refine ⟨rfl, b.append place.contents, b.contents.getD "", "", hb, ?_, hwrapping.trans h⟩
  rw [String.append_empty]
  rfl

mutual

/-- Each text comes into a block that is wrapped as its place says, and it stays there. -/
theorem houses_outline : ∀ (o : Outline) {d d' : Draft} {within : Option Kind} {interrupted : Bool},
    layOutline o d = .ok d' → d.nextWrapping = wrappingIn within interrupted →
    List.Forall₂ d'.Houses (homes o d) (placements within interrupted o)
  | .text contents, d, d', within, interrupted, h, hnext => by
    cases h
    exact .cons (houses_append d ⟨contents, within, interrupted⟩ hnext) .nil
  | .node k children, d, d', within, interrupted, h, hnext => by
    rw [homes, placements]
    cases hends : k.endsBlock with
    | true => exact .nil
    | false =>
      cases hblock : blockOf? k with
      | some opened =>
        obtain ⟨p, options⟩ := opened
        rw [layOutline_block children d hblock] at h
        obtain ⟨d₁, hrun, hclose⟩ := exists_of_bind_eq_ok h
        -- the block is new, whatever has ended in front of it
        have hopen : (d.openPrefix p options).nextWrapping = wrappingIn (some k) false := by
          rw [Draft.nextWrapping_openPrefix, wrapping_of_blockOf? hblock]
          rfl
        have hbelow := houses_outlines children hrun hopen
        rw [entered_block hblock]
        exact hbelow.imp fun _ _ hhome => hhome.mono (Draft.Continues.closing (.refl d₁) hclose).1
      | none =>
        obtain ⟨d₁, hrun, hbefore, hafter⟩ := exists_of_layOutline_inline hends hblock h
        have hbelow := houses_outlines children hrun (hbefore.next.trans hnext)
        exact hbelow.imp fun _ _ hhome => hhome.mono hafter.extends_blocks

theorem houses_outlines : ∀ (os : List Outline) {d d' : Draft} {within : Option Kind}
    {interrupted : Bool}, layOutlines os d = .ok d' →
    d.nextWrapping = wrappingIn within interrupted →
    List.Forall₂ d'.Houses (allHomes os d) (allPlacements within interrupted os)
  | [], _, _, _, _, _, _ => .nil
  | first :: rest, d, d', within, interrupted, h, hnext => by
    obtain ⟨d₁, hfirst, hrest⟩ := exists_of_bind_eq_ok h
    -- the rest goes on in the same block, unless one has ended in the first outline
    have hcontinues := continues_outline first hfirst
    have hnext₁ : d₁.nextWrapping = wrappingIn within (interrupted || interrupts first) := by
      rw [hcontinues.next, hnext]
      cases interrupted <;> simp [wrappingIn]
    have hall := houses_outline first hfirst hnext
    rw [allHomes, allPlacements, hfirst]
    refine List.rel_append (hall.imp fun _ _ hhome => ?_) (houses_outlines rest hrest hnext₁)
    exact hhome.mono (continues_outlines rest hrest).extends_blocks

end

/-- Whatever displays no ordered list and nothing below itself is laid out, each of its texts into
a block of which it is a part. The block is wrapped as the nearest block-level node around the text
asks for, if no block has ended in that node in front of the text; else it is wrapped as usual, and
that is what has been asked for unless the node is a heading or preformatted. -/
theorem layTree_wrapping (t : Tree) (id : NodeId) (h : t.Displayable id) :
    ∃ o draft, t.Unfolds [.node id] [o] ∧ layTree t id = .ok draft ∧
      List.Forall₂ (fun home place => home.contents = place.contents ∧
        ∃ b front back, draft.blocks[home.block]? = some b ∧
          b.contents = some (front ++ place.contents ++ back) ∧
          (place.interrupted = true → b.options.wrapping = .usual) ∧
          (b.options.wrapping = askedBy place.within ↔
            place.interrupted = false ∨ askedBy place.within = .usual))
        (homes o {}) (placements none false o) := by
  obtain ⟨draft, hlay, -⟩ :=
    writes_outline (t.outline id) (h.listless t.size) {} [] [] ⟨[], [], .start, rfl⟩
  refine ⟨t.outline id, draft, Tree.unfolds_outline h, hlay, ?_⟩
  have hall : List.Forall₂ draft.Houses (homes (t.outline id) {})
      (placements none false (t.outline id)) := houses_outline (t.outline id) hlay rfl
  refine hall.imp fun home place hhome => ?_
  obtain ⟨hcontents, b, front, back, hb, htext, hwrapping⟩ := hhome
  refine ⟨hcontents, b, front, back, hb, htext, fun hplace => ?_, ?_⟩
  · rw [hwrapping, Placement.wrapping, wrappingIn, if_pos hplace]
  · rw [hwrapping, Placement.wrapping, wrappingIn]
    cases place.interrupted <;> simp [eq_comm]

/-- A separator between two texts that are preformatted, and a text in no block-level node. -/
def separated : Tree :=
  ⟨#[{ kind := .document, children := [.node 1, .text "d"] },
    { kind := .preformatted, children := [.text "a", .node 2, .text "b\n  c"], parent := some 0 },
    { kind := .separator, parent := some 1 }]⟩

theorem layTree_wrapping_separated : separated.Displayable Tree.root ∧
    ∃ o draft, separated.Unfolds [.node Tree.root] [o] ∧
      layTree separated Tree.root = .ok draft ∧
      List.Forall₂ (fun home place => home.contents = place.contents ∧
        ∃ b front back, draft.blocks[home.block]? = some b ∧
          b.contents = some (front ++ place.contents ++ back) ∧
          (place.interrupted = true → b.options.wrapping = .usual) ∧
          (b.options.wrapping = askedBy place.within ↔
            place.interrupted = false ∨ askedBy place.within = .usual))
        (homes o {}) (placements none false o) :=
  have hdisplayable := Tree.displayable_of_ascending (by decide) (by decide)
  ⟨hdisplayable, layTree_wrapping separated Tree.root hdisplayable⟩

/-- Behind a separator, text that is preformatted is wrapped as if it were not. -/
theorem layTree_wrapping_afterSeparator :
    (placements none false (separated.outline Tree.root))[1]? =
        some ⟨"b\n  c", some .preformatted, true⟩ ∧
      (homes (separated.outline Tree.root) {})[1]? = some ⟨"b\n  c", 2⟩ ∧
      ∃ draft b, layTree separated Tree.root = .ok draft ∧ draft.blocks[2]? = some b ∧
        b.contents = some "b\n  c" ∧ b.options.wrapping = ⟨80, false⟩ ∧
        askedBy (some .preformatted) = ⟨0, true⟩ :=
  ⟨by rfl, by rfl, _, _, by rfl, by rfl, by rfl, by rfl, by rfl⟩

end HtmlMarkdown.Layout
