import HtmlMarkdown.Layout.Page

/-!
Writing a draft with checked counters. Here every look at a line counter fails if there is no
counter at that place. On a draft whose slots have all been given out none of the looks fails, and
the text is the same.
-/
namespace HtmlMarkdown.Layout

/-- The text in front of the next line, if each margin has a counter. -/
def renderMargins? : List Margin → LineCounts → Option (List Char × LineCounts)
  | [], counts => some ([], counts)
  | margin :: inner, counts => do
    let lines ← counts[margin.slot]?
    let shown := if lines = 0 then margin.linePrefix.first else margin.linePrefix.later
    let (rest, counts) ← renderMargins? inner (counts.set margin.slot (lines + 1))
    some (shown.toList ++ rest, counts)

def layPieces? (margins : List Margin) (maxWidth : Nat) :
    List Piece → (col : Nat) → (fresh : Bool) → LineCounts → Option (List Char × LineCounts)
  | [], _, _, counts => some ([], counts)
  | piece :: rest, col, fresh, counts =>
    let width := Text.columns piece.text
    let shown := if fresh then piece.word else piece.text
    if piece.isNewline then do
      let (start, counts) ← renderMargins? margins counts
      let (more, counts) ←
        layPieces? margins maxWidth rest (Text.columns start + width) false counts
      some (shown ++ start ++ more, counts)
    else if !fresh && 0 < maxWidth && maxWidth < col + width then do
      let (start, counts) ← renderMargins? margins counts
      let (more, counts) ←
        layPieces? margins maxWidth rest (Text.columns start + width) false counts
      some ('\n' :: start ++ piece.word ++ more, counts)
    else do
      let (more, counts) ← layPieces? margins maxWidth rest (col + width) false counts
      some (shown ++ more, counts)

def wrap? (text : List Char) (margins : List Margin) (options : BlockOptions)
    (counts : LineCounts) : Option (List Char × LineCounts) := do
  let (start, counts) ← renderMargins? margins counts
  let (more, counts) ← layPieces? margins options.maxWidth
    (pieces (flatten options.preserveNewlines text)) (Text.columns start) true counts
  some (start ++ more, counts)

def Block.render? (block : Block) (counts : LineCounts) : Option (List Char × LineCounts) :=
  match block.contents with
  | none => some ([], counts)
  | some contents => wrap? contents.toList block.margins block.options counts

def separatorLine? (earlier : Option Block) (later : Block) (counts : LineCounts) :
    Option (List Char × LineCounts) :=
  match earlier with
  | none => some ([], counts)
  | some earlier =>
    if (later.isHeading && earlier.isHeading) || earlier.options.endsWithHardBreak then
      some ([], counts)
    else do
      let (start, counts) ← renderMargins? earlier.margins counts
      some (Text.trim start ++ ['\n'], counts)

def joinBlocks? (earlier : Option Block) : List Block → LineCounts →
    Option (List Char × LineCounts)
  | [], counts => some ([], counts)
  | block :: rest, counts => do
    let (shown, counts) ← block.render? counts
    if shown.isEmpty then joinBlocks? earlier rest counts
    else
      let (separator, counts) ← separatorLine? earlier block counts
      let (more, counts) ← joinBlocks? (some block) rest counts
      some (separator ++ shown ++ block.ending ++ more, counts)

namespace Draft

def trailerPrefix? (draft : Draft) (counts : LineCounts) : Option (List Char) :=
  match draft.blocks.reverse.find? (·.options.acceptsTrailers) with
  | none => some []
  | some block => (renderMargins? block.margins counts).map Prod.fst

/-- The whole text, if no look at a counter fails. -/
def finish? (draft : Draft) : Option (List Char) := do
  let (text, counts) ← joinBlocks? none draft.blocks (LineCounts.start draft.opened)
  let start ← draft.trailerPrefix? counts
  some (if draft.trailers.isEmpty then text
    else text ++ padding text (Text.trimEnd start)
      ++ draft.trailers.flatMap fun line => start ++ line.toList ++ ['\n'])

end Draft

/-! The checked functions and the others agree. -/

/-- There is a counter for each margin. -/
def Counted (margins : List Margin) (counts : LineCounts) : Prop :=
  ∀ margin ∈ margins, margin.slot < counts.length

variable {margins : List Margin} {counts counts' : LineCounts}

theorem Counted.of_length_eq (h : Counted margins counts)
    (hlen : counts'.length = counts.length) : Counted margins counts' := fun margin hm => by
  rw [hlen]
  exact h margin hm

theorem length_renderMargins (margins : List Margin) (counts : LineCounts) :
    (renderMargins margins counts).2.length = counts.length := by
  induction margins generalizing counts with
  | nil => rfl
  | cons margin inner ih => simp only [renderMargins, ih, List.length_modify]

theorem renderMargins?_eq (h : Counted margins counts) :
    renderMargins? margins counts = some (renderMargins margins counts) := by
  induction margins generalizing counts with
  | nil => rfl
  | cons margin inner ih =>
    have hslot : margin.slot < counts.length := h margin (List.mem_cons_self ..)
    have htail : Counted inner counts := fun m hm => h m (List.mem_cons_of_mem _ hm)
    have hinner : Counted inner (counts.modify margin.slot (· + 1)) :=
      htail.of_length_eq (List.length_modify ..)
    have hlook : counts[margin.slot]? = some counts[margin.slot] :=
      List.getElem?_eq_getElem hslot
    have hset : counts.set margin.slot (counts[margin.slot] + 1) =
        counts.modify margin.slot (· + 1) := by
      rw [List.modify_eq_set, hlook, Option.getD_some]
    simp only [renderMargins?, renderMargins, List.getD_eq_getElem?_getD, hlook,
      Option.getD_some, Option.bind_eq_bind, Option.bind_some, hset, ih hinner]

theorem length_layPieces (maxWidth : Nat) (ps : List Piece) (col : Nat) (fresh : Bool)
    (counts : LineCounts) :
    (layPieces margins maxWidth ps col fresh counts).2.length = counts.length := by
  induction ps generalizing col fresh counts with
  | nil => rfl
  | cons piece rest ih =>
    simp only [layPieces]
    split
    · simp only [ih, length_renderMargins]
    · split
      · simp only [ih, length_renderMargins]
      · simp only [ih]

theorem layPieces?_eq (maxWidth : Nat) (ps : List Piece) (col : Nat) (fresh : Bool)
    (h : Counted margins counts) : layPieces? margins maxWidth ps col fresh counts =
      some (layPieces margins maxWidth ps col fresh counts) := by
  induction ps generalizing col fresh counts with
  | nil => rfl
  | cons piece rest ih =>
    have hnext : Counted margins (renderMargins margins counts).2 :=
      h.of_length_eq (length_renderMargins ..)
    simp only [layPieces?, layPieces, renderMargins?_eq h, Option.bind_eq_bind, Option.bind_some,
      ih _ _ hnext, ih _ _ h]
    split
    · rfl
    · split <;> rfl

theorem length_wrap (text : List Char) (margins : List Margin) (options : BlockOptions)
    (counts : LineCounts) : (wrap text margins options counts).2.length = counts.length := by
  simp only [wrap, length_layPieces, length_renderMargins]

theorem wrap?_eq (text : List Char) (options : BlockOptions) (h : Counted margins counts) :
    wrap? text margins options counts = some (wrap text margins options counts) := by
  have hnext : Counted margins (renderMargins margins counts).2 :=
    h.of_length_eq (length_renderMargins ..)
  simp only [wrap?, wrap, renderMargins?_eq h, layPieces?_eq _ _ _ _ hnext, Option.bind_eq_bind,
    Option.bind_some]

theorem Block.length_render (block : Block) (counts : LineCounts) :
    (block.render counts).2.length = counts.length := by
  unfold Block.render
  split
  · rfl
  · exact length_wrap ..

theorem Block.render?_eq {block : Block} (h : Counted block.margins counts) :
    block.render? counts = some (block.render counts) := by
  unfold Block.render? Block.render
  cases block.contents with
  | none => rfl
  | some contents => exact wrap?_eq _ _ h

theorem length_separatorLine (earlier : Option Block) (later : Block) (counts : LineCounts) :
    (separatorLine earlier later counts).2.length = counts.length := by
  unfold separatorLine
  split
  · rfl
  · split
    · rfl
    · exact length_renderMargins ..

theorem separatorLine?_eq {earlier : Option Block} (later : Block)
    (h : ∀ block ∈ earlier, Counted block.margins counts) :
    separatorLine? earlier later counts = some (separatorLine earlier later counts) := by
  unfold separatorLine? separatorLine
  cases earlier with
  | none => rfl
  | some block =>
    simp only [renderMargins?_eq (h block rfl), Option.bind_eq_bind, Option.bind_some]
    split <;> rfl

theorem length_joinBlocks (earlier : Option Block) (blocks : List Block) (counts : LineCounts) :
    (joinBlocks earlier blocks counts).2.length = counts.length := by
  induction blocks generalizing earlier counts with
  | nil => rfl
  | cons block rest ih =>
    simp only [joinBlocks]
    split
    · simp only [ih, Block.length_render]
    · simp only [ih, length_separatorLine, Block.length_render]

theorem joinBlocks?_eq {earlier : Option Block} {blocks : List Block}
    (hearlier : ∀ block ∈ earlier, Counted block.margins counts)
    (hblocks : ∀ block ∈ blocks, Counted block.margins counts) :
    joinBlocks? earlier blocks counts = some (joinBlocks earlier blocks counts) := by
  induction blocks generalizing earlier counts with
  | nil => rfl
  | cons block rest ih =>
    have hblock : Counted block.margins counts := hblocks block (List.mem_cons_self ..)
    -- the counters keep their number, so what is counted stays counted
    have hshown : ∀ b : Block, Counted b.margins counts →
        Counted b.margins (block.render counts).2 := fun b hb =>
      hb.of_length_eq (block.length_render counts)
    have hseparated : ∀ b : Block, Counted b.margins counts →
        Counted b.margins (separatorLine earlier block (block.render counts).2).2 := fun b hb =>
      (hshown b hb).of_length_eq (length_separatorLine ..)
    have hrest : ∀ b ∈ rest, Counted b.margins counts := fun b hb =>
      hblocks b (List.mem_cons_of_mem _ hb)
    have hskip := ih (fun b hb => hshown b (hearlier b hb)) fun b hb => hshown b (hrest b hb)
    have hlast : ∀ b ∈ some block,
        Counted b.margins (separatorLine earlier block (block.render counts).2).2 :=
      fun b hb => hseparated b (Option.some.inj hb ▸ hblock)
    have hmore := ih hlast fun b hb => hseparated b (hrest b hb)
    simp only [joinBlocks?, joinBlocks, Block.render?_eq hblock,
      separatorLine?_eq block fun b hb => hshown b (hearlier b hb), hmore, hskip,
      Option.bind_eq_bind, Option.bind_some]
    split <;> rfl

namespace Draft

variable {draft : Draft}

/-- Where all slots have been given out, no look at a counter fails. -/
theorem finish?_eq (h : ∀ block ∈ draft.blocks, ∀ margin ∈ block.margins,
    margin.slot < draft.opened) : draft.finish? = some draft.finish := by
  have hstart : ∀ block ∈ draft.blocks,
      Counted block.margins (LineCounts.start draft.opened) := fun block hb margin hm => by
    rw [LineCounts.start, List.length_replicate]
    exact h block hb margin hm
  have hbody : joinBlocks? none draft.blocks (LineCounts.start draft.opened) = some draft.body :=
    joinBlocks?_eq (by simp) hstart
  have hlength : draft.body.2.length = draft.opened := by
    rw [body, length_joinBlocks, LineCounts.start, List.length_replicate]
  have hprefix : draft.trailerPrefix? draft.body.2 = some (draft.trailerPrefix draft.body.2) := by
    unfold trailerPrefix? trailerPrefix
    cases hfind : draft.blocks.reverse.find? (·.options.acceptsTrailers) with
    | none => rfl
    | some block =>
      have hmem : block ∈ draft.blocks := List.mem_reverse.1 (List.mem_of_find?_eq_some hfind)
      have hcounted : Counted block.margins draft.body.2 := fun margin hm => by
        rw [hlength]
        exact h block hmem margin hm
      simp only [renderMargins?_eq hcounted, Option.map_some]
  simp only [finish?, finish, hbody, hprefix, Option.bind_eq_bind, Option.bind_some]

end Draft
end HtmlMarkdown.Layout
