import HtmlMarkdown.Proofs.Balance
import Mathlib.Data.List.Forall2
import Mathlib.Data.List.Infix

/-!
What laying out writes, and into which block. An outline says in which order its texts, its
delimiters and the numbers of its links are written, and under which prefixes each of them stands.
The invariant is that the last block of a draft stands under exactly the prefixes that are open:
then whatever is written comes into a block with the prefixes of the nodes around it.
-/
namespace HtmlMarkdown

namespace Document

/-- A node of this kind ends the open block, and nothing below it is laid out. -/
def Kind.endsBlock (k : Kind) : Bool := k.name == .lineBreak || k.name == .separator

mutual

/-- Nothing in the outline that is laid out is an ordered list. -/
def Outline.Listless : Outline → Prop
  | .text _ => True
  | .node k children =>
    k.name ≠ .orderedList ∧ (k.endsBlock = false → Outline.AllListless children)

def Outline.AllListless : List Outline → Prop
  | [] => True
  | first :: rest => first.Listless ∧ Outline.AllListless rest

end

end Document

namespace Layout

open Document

/-- Something that is written into a block: a text of the document, a delimiter, or the end of a
link that is a reference. -/
inductive Writing where
  | leaf (contents : String)
  | mark (text : String)
  | reference (href : String)

/-- How it reads if the targets have their numbers in the order of the list. -/
def Writing.text (hrefs : List String) : Writing → String
  | leaf contents => contents
  | mark text => text
  | reference href => "][" ++ toString (hrefs.idxOf href + 1) ++ "]"

/-- A writing with the prefixes of the block-level nodes around it, the outermost first. -/
structure Inscription where
  around : List LinePrefix
  writing : Writing

/-- A text of the document, with the prefixes around it. -/
def Inscription.leaf? (w : Inscription) : Option (List LinePrefix × String) :=
  match w.writing with
  | .leaf contents => some (w.around, contents)
  | _ => none

/-- What stands before and behind the contents of an inline node. -/
def marksOf (k : Kind) (children : List Outline) : List Writing × List Writing :=
  match k with
  | .link href =>
    if isAutolink href children then ([.mark "<"], [.mark ">"])
    else ([.mark "["], [.reference href])
  | _ => ((delimiterOf? k).toList.map .mark, (delimiterOf? k).toList.map .mark)

/-- The prefix that a block-level node opens around its contents. -/
def prefixesOf (k : Kind) : List LinePrefix := (blockOf? k).toList.map Prod.fst

mutual

/-- All that is written for an outline that stands under the given prefixes. -/
def inscriptions (around : List LinePrefix) : Outline → List Inscription
  | .text contents => [⟨around, .leaf contents⟩]
  | .node k children =>
    if k.endsBlock then []
    else (marksOf k children).1.map (⟨around, ·⟩)
      ++ allInscriptions (around ++ prefixesOf k) children
      ++ (marksOf k children).2.map (⟨around, ·⟩)

def allInscriptions (around : List LinePrefix) : List Outline → List Inscription
  | [] => []
  | first :: rest => inscriptions around first ++ allInscriptions around rest

end

theorem inscriptions_of_endsBlock {k : Kind} (hk : k.endsBlock = true)
    (around : List LinePrefix) (children : List Outline) :
    inscriptions around (.node k children) = [] := by
  rw [inscriptions, if_pos hk]

variable {around : List LinePrefix}

/-- The texts among what is written. -/
def leavesOf (ws : List Inscription) : List (List LinePrefix × String) :=
  ws.filterMap Inscription.leaf?

theorem leavesOf_append (ws ws' : List Inscription) :
    leavesOf (ws ++ ws') = leavesOf ws ++ leavesOf ws' :=
  List.filterMap_append

/-- Delimiters are no texts. -/
theorem marksOf_ne_leaf (k : Kind) (children : List Outline) (s : String) :
    Writing.leaf s ∉ (marksOf k children).1 ∧ Writing.leaf s ∉ (marksOf k children).2 := by
  unfold marksOf
  split
  · split <;> simp
  · simp

theorem leavesOf_map_eq_nil {marks : List Writing} (h : ∀ s, Writing.leaf s ∉ marks) :
    leavesOf (marks.map (⟨around, ·⟩)) = [] := by
  rw [leavesOf, List.filterMap_eq_nil_iff]
  intro w hw
  obtain ⟨mark, hmark, rfl⟩ := List.mem_map.1 hw
  cases mark with
  | leaf s => exact absurd hmark (h s)
  | mark | reference => rfl

theorem leavesOf_inscriptions {k : Kind} (hk : k.endsBlock = false) (children : List Outline) :
    leavesOf (inscriptions around (.node k children)) =
      leavesOf (allInscriptions (around ++ prefixesOf k) children) := by
  have hmarks := marksOf_ne_leaf k children
  rw [inscriptions, if_neg (by simp [hk]), leavesOf_append, leavesOf_append,
    leavesOf_map_eq_nil fun s => (hmarks s).1, leavesOf_map_eq_nil fun s => (hmarks s).2,
    List.nil_append, List.append_nil]

theorem leavesOf_inscriptions_of_endsBlock {k : Kind} (hk : k.endsBlock = true)
    (children : List Outline) : leavesOf (inscriptions around (.node k children)) = [] := by
  rw [inscriptions_of_endsBlock hk]
  rfl

/-- The block stands under `lead` and some more prefixes. What has been written under the latter
is what it holds, if anything has. -/
structure Block.Shows (block : Block) (hrefs : List String) (lead : List Margin)
    (ws : List Inscription) : Prop where
  margins_eq : ∃ own, block.margins = lead ++ own ∧
    ∀ w ∈ ws, w.around = own.map Margin.linePrefix
  contents_eq : block.contents =
    if ws = [] then none else some (String.join (ws.map fun w => w.writing.text hrefs))
  /-- Every target in it has a number. -/
  known : ∀ w ∈ ws, ∀ href, w.writing = .reference href → href ∈ hrefs

/-- The empty prefix that opens where something is written before the first block. -/
def implicitMargin : Margin := ⟨.uniform "", 0⟩

/-- A draft in which `own` are the open prefixes, and whose blocks show what has been written. -/
structure Draft.Bears (d : Draft) (lead own : List Margin) (written : List (List Inscription)) :
    Prop where
  lead_eq : lead = [] ∨ lead = [implicitMargin]
  margins_eq : d.margins = lead ++ own
  /-- What is written next stands under the open prefixes. -/
  last : ∀ margins ∈ (d.blocks.map Block.margins).getLast?, margins = d.margins
  shows : List.Forall₂ (fun block ws => block.Shows d.hrefs lead ws) d.blocks written
  fresh : d.blocks = [] → lead = [] ∧ own = [] ∧ d.opened = 0

/-- One more item for the list that belongs to the last element. -/
theorem forall₂_onLast {α β : Type} {R : α → List β → Prop} {f : α → α} {b : β} {xs : List α}
    {lists : List (List β)} (h : List.Forall₂ R xs lists) (hne : xs ≠ [])
    (hlast : ∀ x ∈ xs.getLast?, ∀ bs, R x bs → R (f x) (bs ++ [b])) :
    ∃ lists', List.Forall₂ R (onLast f xs) lists' ∧ lists'.flatten = lists.flatten ++ [b] := by
  induction h with
  | nil => exact absurd rfl hne
  | @cons x bs rest lists hx hrest ih =>
    cases rest with
    | nil =>
      cases hrest
      exact ⟨[bs ++ [b]], .cons (hlast x rfl bs hx) .nil, by simp⟩
    | cons y more =>
      obtain ⟨lists', hall, hflat⟩ := ih (by simp) fun z hz => hlast z (by simpa using hz)
      refine ⟨bs :: lists', .cons hx hall, ?_⟩
      rw [List.flatten_cons, hflat, List.flatten_cons, List.append_assoc]

/-- A reference keeps its number when more targets get numbers. -/
theorem Writing.text_append {hrefs : List String} {w : Writing} (more : List String)
    (hw : ∀ href, w = .reference href → href ∈ hrefs) :
    w.text (hrefs ++ more) = w.text hrefs := by
  cases w with
  | leaf contents => rfl
  | mark s => rfl
  | reference href => rw [text, text, List.idxOf_append_of_mem (hw href rfl)]

namespace Block.Shows

variable {block : Block} {hrefs : List String} {lead own : List Margin} {ws : List Inscription}

/-- What is written into a block comes behind what it holds. -/
theorem append (h : block.Shows hrefs lead ws) (hown : block.margins = lead ++ own) (w : Writing)
    (hw : ∀ href, w = .reference href → href ∈ hrefs) :
    (block.append (w.text hrefs)).Shows hrefs lead
      (ws ++ [⟨own.map Margin.linePrefix, w⟩]) := by
  obtain ⟨⟨own', hmargins, haround⟩, hcontents, hknown⟩ := h
  have hsame : own' = own := List.append_cancel_left (hmargins.symm.trans hown)
  subst hsame
  refine ⟨⟨own', hmargins, fun w' hw' => ?_⟩, ?_, fun w' hw' => ?_⟩
  · rcases List.mem_append.1 hw' with hw' | hw'
    · exact haround w' hw'
    · rw [List.mem_singleton.1 hw']
  · have hjoin : (block.append (w.text hrefs)).contents =
        some (String.join (ws.map fun w => w.writing.text hrefs) ++ w.text hrefs) := by
      simp only [Block.append, hcontents]
      by_cases hws : ws = []
      · simp [hws]
      · simp [hws]
    rw [hjoin, if_neg (by simp)]
    simp [String.join_append]
  · rcases List.mem_append.1 hw' with hw' | hw'
    · exact hknown w' hw'
    · rw [List.mem_singleton.1 hw']
      exact hw

theorem more_hrefs (h : block.Shows hrefs lead ws) (more : List String) :
    block.Shows (hrefs ++ more) lead ws := by
  refine ⟨h.margins_eq, ?_, fun w hw href he => List.mem_append_left _ (h.known w hw href he)⟩
  have hsame : (ws.map fun w => w.writing.text (hrefs ++ more)) =
      ws.map fun w => w.writing.text hrefs :=
    List.map_congr_left fun w hw => Writing.text_append more (h.known w hw)
  rw [hsame]
  exact h.contents_eq

end Block.Shows

namespace Draft.Bears

variable {d : Draft} {lead own : List Margin} {written : List (List Inscription)}

theorem start : Draft.Bears {} [] [] [] :=
  ⟨Or.inl rfl, rfl, by simp, .nil, fun _ => ⟨rfl, rfl, rfl⟩⟩

theorem openPrefix (h : d.Bears lead own written) (p : LinePrefix) (options : BlockOptions) :
    (d.openPrefix p options).Bears lead (own ++ [⟨p, d.opened⟩]) (written ++ [[]]) := by
  have hmargins : d.margins ++ [⟨p, d.opened⟩] = lead ++ (own ++ [⟨p, d.opened⟩]) := by
    rw [h.margins_eq, List.append_assoc]
  refine ⟨h.lead_eq, hmargins, ?_, ?_, ?_⟩
  · intro margins hlast
    simpa [Draft.openPrefix] using hlast.symm
  · exact List.rel_append h.shows (.cons ⟨⟨_, hmargins, by simp⟩, rfl, by simp⟩ .nil)
  · intro hnil
    simp [Draft.openPrefix] at hnil

/-- What is written into a draft that has a block comes into the last one. -/
theorem append_of_ne (h : d.Bears lead own written) (hne : d.blocks ≠ []) (w : Writing)
    (hw : ∀ href, w = .reference href → href ∈ d.hrefs) :
    ∃ written', (d.append (w.text d.hrefs)).Bears lead own written' ∧
      written'.flatten = written.flatten ++ [⟨own.map Margin.linePrefix, w⟩] := by
  have hlast : ∀ block ∈ d.blocks.getLast?, ∀ ws, block.Shows d.hrefs lead ws →
      (block.append (w.text d.hrefs)).Shows d.hrefs lead
        (ws ++ [⟨own.map Margin.linePrefix, w⟩]) := by
    intro block hblock ws hws
    have hmargins := h.last block.margins (by simp [List.getLast?_map, Option.mem_def.1 hblock])
    exact hws.append (hmargins.trans h.margins_eq) w hw
  obtain ⟨written', hshows, hflat⟩ := forall₂_onLast h.shows hne hlast
  have hmap := map_onLast_of_eq (f := (·.append (w.text d.hrefs))) (g := Block.margins)
    (fun _ => rfl) d.blocks
  refine ⟨written', ?_, hflat⟩
  rw [Draft.append, if_neg (by simpa using hne)]
  refine ⟨h.lead_eq, h.margins_eq, ?_, hshows, ?_⟩
  · rw [hmap]
    exact h.last
  · intro hnil
    rw [show onLast (·.append (w.text d.hrefs)) d.blocks = [] from hnil] at hmap
    exact absurd (List.map_eq_nil_iff.1 hmap.symm) hne

/-- What is written before the first block comes into a block under the empty prefix. -/
theorem append (h : d.Bears lead own written) (w : Writing)
    (hw : ∀ href, w = .reference href → href ∈ d.hrefs) :
    ∃ lead' written', (d.append (w.text d.hrefs)).Bears lead' own written' ∧
      written'.flatten = written.flatten ++ [⟨own.map Margin.linePrefix, w⟩] := by
  by_cases hempty : d.blocks = []
  · obtain ⟨rfl, rfl, hopened⟩ := h.fresh hempty
    have hwritten : written = [] := by
      have hshows := h.shows
      rw [hempty, List.forall₂_nil_left_iff] at hshows
      exact hshows
    subst hwritten
    let d₁ := d.openPrefix (.uniform "") {}
    have hmargins : d₁.margins = [implicitMargin] := by
      simp [d₁, Draft.openPrefix, h.margins_eq, hopened, implicitMargin]
    have hblocks : d₁.blocks = [{ margins := [implicitMargin] }] := by
      simp [d₁, Draft.openPrefix, h.margins_eq, hempty, hopened, implicitMargin]
    have hbears : d₁.Bears [implicitMargin] [] [[]] := by
      refine ⟨Or.inr rfl, hmargins, ?_, ?_, by simp [hblocks]⟩
      · simp [hblocks, hmargins]
      · rw [hblocks]
        exact .cons ⟨⟨[], rfl, by simp⟩, rfl, by simp⟩ .nil
    obtain ⟨written', hbears', hflat⟩ := hbears.append_of_ne (by simp [hblocks]) w hw
    have happend : d.append (w.text d.hrefs) = d₁.append (w.text d₁.hrefs) := by
      rw [Draft.append, Draft.append, if_pos (by simp [hempty]), if_neg (by simp [hblocks])]
      rfl
    rw [happend]
    exact ⟨[implicitMargin], written', hbears', by simpa using hflat⟩
  · obtain ⟨written', hbears, hflat⟩ := h.append_of_ne hempty w hw
    exact ⟨lead, written', hbears, hflat⟩

theorem markHardBreak (h : d.Bears lead own written) :
    d.markHardBreak.Bears lead own written := by
  let mark := fun block : Block =>
    { block with options := { block.options with endsWithHardBreak := true } }
  have hmap := map_onLast_of_eq (f := mark) (g := Block.margins) (fun _ => rfl) d.blocks
  refine ⟨h.lead_eq, h.margins_eq, ?_, ?_, ?_⟩
  · intro margins hlast
    exact h.last margins (hmap ▸ hlast)
  · have hmark : ∀ (block : Block) ws, block.Shows d.hrefs lead ws →
        (mark block).Shows d.hrefs lead (id ws) := fun _ _ hws =>
      ⟨hws.margins_eq, hws.contents_eq, hws.known⟩
    have hshows := rel_onLast hmark h.shows
    rwa [onLast_id] at hshows
  · intro hnil
    rw [show onLast mark d.blocks = [] from hnil] at hmap
    exact h.fresh (List.map_eq_nil_iff.1 hmap.symm)

/-- A target that has no number gets the next one. -/
theorem reference (h : d.Bears lead own written) (href : String) :
    (d.reference href).2.Bears lead own written ∧ d.hrefs <+: (d.reference href).2.hrefs ∧
      href ∈ (d.reference href).2.hrefs ∧
      (d.reference href).1 = (d.reference href).2.hrefs.idxOf href + 1 := by
  cases hidx : d.hrefs.idxOf? href with
  | some position =>
    have hmem : href ∈ d.hrefs := by
      rw [← List.isSome_idxOf?, hidx]
      rfl
    have hidxOf : d.hrefs.idxOf href = position := by
      rw [List.idxOf_eq_getD_idxOf?, hidx]
      rfl
    simp only [Draft.reference, hidx]
    exact ⟨h, List.prefix_rfl, hmem, by rw [hidxOf]⟩
  | none =>
    have hmem : href ∉ d.hrefs := List.idxOf?_eq_none_iff.1 hidx
    simp only [Draft.reference, hidx, addTrailer]
    refine ⟨⟨h.lead_eq, h.margins_eq, h.last, ?_, h.fresh⟩, List.prefix_append .., by simp, ?_⟩
    · exact h.shows.imp fun block ws hws => hws.more_hrefs [href]
    · rw [List.idxOf_append_of_notMem hmem]
      simp

/-- The prefix opened last can be closed. -/
theorem closing {margin : Margin} (h : d.Bears lead (own ++ [margin]) written) :
    ∃ d', Layout.closing margin.linePrefix d = .ok d' ∧ d'.Bears lead own (written ++ [[]]) ∧
      d'.hrefs = d.hrefs := by
  have hmargins : d.margins = (lead ++ own) ++ [margin] := by
    rw [h.margins_eq, List.append_assoc]
  refine ⟨_, closing_eq hmargins, ⟨h.lead_eq, rfl, ?_, ?_, ?_⟩, rfl⟩
  · simp
  · exact List.rel_append h.shows (.cons ⟨⟨own, rfl, by simp⟩, rfl, by simp⟩ .nil)
  · simp

end Draft.Bears

/-- In all, `ws` has been written into the draft, and `own` are the open prefixes. -/
def Draft.Wrote (d : Draft) (own : List Margin) (ws : List Inscription) : Prop :=
  ∃ lead written, d.Bears lead own written ∧ written.flatten = ws

namespace Draft.Wrote

variable {d : Draft} {own : List Margin} {ws : List Inscription}

theorem append (h : d.Wrote own ws) (w : Writing)
    (hw : ∀ href, w = .reference href → href ∈ d.hrefs) :
    (d.append (w.text d.hrefs)).Wrote own (ws ++ [⟨own.map Margin.linePrefix, w⟩]) := by
  obtain ⟨lead, written, hbears, rfl⟩ := h
  obtain ⟨lead', written', hbears', hflat⟩ := hbears.append w hw
  exact ⟨lead', written', hbears', hflat⟩

theorem append_mark (h : d.Wrote own ws) (s : String) :
    (d.append s).Wrote own (ws ++ [⟨own.map Margin.linePrefix, .mark s⟩]) :=
  h.append (.mark s) (by simp)

theorem openPrefix (h : d.Wrote own ws) (p : LinePrefix) (options : BlockOptions) :
    (d.openPrefix p options).Wrote (own ++ [⟨p, d.opened⟩]) ws := by
  obtain ⟨lead, written, hbears, rfl⟩ := h
  exact ⟨lead, _, hbears.openPrefix p options, by simp⟩

theorem closing {p : LinePrefix} {slot : Nat} (h : d.Wrote (own ++ [⟨p, slot⟩]) ws) :
    ∃ d', Layout.closing p d = .ok d' ∧ d'.Wrote own ws ∧ d'.hrefs = d.hrefs := by
  obtain ⟨lead, written, hbears, rfl⟩ := h
  obtain ⟨d', hclose, hbears', hhrefs⟩ := hbears.closing
  exact ⟨d', hclose, ⟨lead, _, hbears', by simp⟩, hhrefs⟩

theorem boundary (h : d.Wrote own ws) :
    ∃ d', Layout.boundary d = .ok d' ∧ d'.Wrote own ws ∧ d'.hrefs = d.hrefs :=
  (h.openPrefix (.uniform "") {}).closing

theorem reference (h : d.Wrote own ws) (href : String) :
    (d.reference href).2.Wrote own ws ∧ d.hrefs <+: (d.reference href).2.hrefs ∧
      href ∈ (d.reference href).2.hrefs ∧
      (d.reference href).1 = (d.reference href).2.hrefs.idxOf href + 1 := by
  obtain ⟨lead, written, hbears, rfl⟩ := h
  obtain ⟨hbears', hrest⟩ := hbears.reference href
  exact ⟨⟨lead, written, hbears', rfl⟩, hrest⟩

theorem markHardBreak (h : d.Wrote own ws) : d.markHardBreak.Wrote own ws := by
  obtain ⟨lead, written, hbears, rfl⟩ := h
  exact ⟨lead, written, hbears.markHardBreak, rfl⟩

end Draft.Wrote

/-- What is laid out from the outlines is what they say is written, wherever they stand. -/
def Writes (children : List Outline) : Prop :=
  ∀ (d : Draft) (own : List Margin) (ws : List Inscription), d.Wrote own ws →
    ∃ d', layOutlines children d = .ok d' ∧ d.hrefs <+: d'.hrefs ∧
      d'.Wrote own (ws ++ allInscriptions (own.map Margin.linePrefix) children)

section Node

variable {d : Draft} {own : List Margin} {ws : List Inscription} {children : List Outline}

/-- Contents between two delimiters. -/
theorem Writes.delimited (h : Writes children) (hd : d.Wrote own ws) (before : String) :
    ∃ d', layOutlines children (d.append before) = .ok d' ∧ d.hrefs <+: d'.hrefs ∧
      ∀ w : Writing, (∀ href, w = .reference href → href ∈ d'.hrefs) →
        (d'.append (w.text d'.hrefs)).Wrote own (ws ++ (⟨own.map Margin.linePrefix, .mark before⟩ ::
          allInscriptions (own.map Margin.linePrefix) children
            ++ [⟨own.map Margin.linePrefix, w⟩])) := by
  obtain ⟨d', hrun, hhrefs, hwrote⟩ := h (d.append before) own _ (hd.append_mark before)
  refine ⟨d', hrun, by rwa [Draft.hrefs_append] at hhrefs, fun w hw => ?_⟩
  simpa using hwrote.append w hw

theorem endsBlock_of_blockOf? {k : Kind} {opened : LinePrefix × BlockOptions}
    (hk : blockOf? k = some opened) : k.endsBlock = false := by
  cases k with
  | lineBreak | separator => cases hk
  | _ => rfl

theorem endsBlock_of_delimiterOf? {k : Kind} {s : String} (hk : delimiterOf? k = some s) :
    k.endsBlock = false := by
  cases k with
  | lineBreak | separator => cases hk
  | _ => rfl

/-- What block-level, delimited and linked nodes have around their contents. -/
theorem inscriptions_of_block {k : Kind} {p : LinePrefix} {options : BlockOptions}
    (hk : blockOf? k = some (p, options)) (around : List LinePrefix) (children : List Outline) :
    inscriptions around (.node k children) = allInscriptions (around ++ [p]) children := by
  have hmarks : marksOf k children = ([], []) := by
    cases k with
    | link | bold | italic | code => cases hk
    | _ => rfl
  simp [inscriptions, endsBlock_of_blockOf? hk, hmarks, prefixesOf, hk]

theorem inscriptions_of_delimiter {k : Kind} {s : String} (hblock : blockOf? k = none)
    (hk : delimiterOf? k = some s) (around : List LinePrefix) (children : List Outline) :
    inscriptions around (.node k children) =
      ⟨around, .mark s⟩ :: allInscriptions around children ++ [⟨around, .mark s⟩] := by
  have hmarks : marksOf k children = ([.mark s], [.mark s]) := by
    cases k with
    | link => cases hk
    | _ => simp [marksOf, hk]
  simp [inscriptions, endsBlock_of_delimiterOf? hk, hmarks, prefixesOf, hblock]

theorem inscriptions_of_link (href : String) (around : List LinePrefix)
    (children : List Outline) :
    inscriptions around (.node (.link href) children) =
      (marksOf (.link href) children).1.map (⟨around, ·⟩) ++ allInscriptions around children
        ++ (marksOf (.link href) children).2.map (⟨around, ·⟩) := by
  have hends : (Kind.link href).endsBlock = false := rfl
  simp [inscriptions, hends, prefixesOf, blockOf?]

theorem writes_block {k : Kind} {p : LinePrefix} {options : BlockOptions}
    (hblock : blockOf? k = some (p, options)) (h : Writes children) (hd : d.Wrote own ws) :
    ∃ d', layOutline (.node k children) d = .ok d' ∧ d.hrefs <+: d'.hrefs ∧
      d'.Wrote own (ws ++ inscriptions (own.map Margin.linePrefix) (.node k children)) := by
  obtain ⟨d₁, hrun, hhrefs, hwrote⟩ := h _ _ _ (hd.openPrefix p options)
  obtain ⟨d', hclose, hwrote', hsame⟩ := hwrote.closing
  rw [layOutline_block children d hblock, hrun, inscriptions_of_block hblock]
  refine ⟨d', hclose, by rw [hsame]; exact hhrefs, ?_⟩
  simpa using hwrote'

theorem writes_link (href : String) (h : Writes children) (hd : d.Wrote own ws) :
    ∃ d', layOutline (.node (.link href) children) d = .ok d' ∧ d.hrefs <+: d'.hrefs ∧
      d'.Wrote own (ws ++
        inscriptions (own.map Margin.linePrefix) (.node (.link href) children)) := by
  rw [inscriptions_of_link, marksOf]
  by_cases hauto : isAutolink href children
  · obtain ⟨d', hrun, hhrefs, hwrote⟩ := h.delimited hd "<"
    rw [layOutline_autolink children d hauto, hrun, if_pos hauto]
    exact ⟨_, rfl, by rwa [Draft.hrefs_append], hwrote (.mark ">") (by simp)⟩
  · obtain ⟨hd₁, hhrefs₁, hmem, hnumber⟩ := hd.reference href
    obtain ⟨d', hrun, hhrefs, hwrote⟩ := h.delimited hd₁ "["
    have hmem' : href ∈ d'.hrefs := hhrefs.subset hmem
    -- the number given to the target is the one that it has in the end
    have htext : (Writing.reference href).text d'.hrefs =
        "][" ++ toString (d.reference href).1 ++ "]" := by
      obtain ⟨more, hmore⟩ := hhrefs
      rw [← hmore, Writing.text_append more (by simpa using hmem), Writing.text, hnumber]
    rw [layOutline_reference children d hauto, hrun, if_neg hauto, ← htext]
    refine ⟨_, rfl, ?_, hwrote (.reference href) (by simpa using hmem')⟩
    rw [Draft.hrefs_append]
    exact hhrefs₁.trans hhrefs

/-- A node is laid out as it says if its contents are. -/
theorem writes_node {k : Kind} (hk : k.name ≠ .orderedList)
    (hcontents : k.endsBlock = false → Writes children) (hd : d.Wrote own ws) :
    ∃ d', layOutline (.node k children) d = .ok d' ∧ d.hrefs <+: d'.hrefs ∧
      d'.Wrote own (ws ++ inscriptions (own.map Margin.linePrefix) (.node k children)) := by
  cases treatment k with
  | block hblock => exact writes_block hblock (hcontents (endsBlock_of_blockOf? hblock)) hd
  | @delimited k delimiter hblock hdelimiter =>
    have hbelow := hcontents (endsBlock_of_delimiterOf? hdelimiter)
    obtain ⟨d', hrun, hhrefs, hwrote⟩ := hbelow.delimited hd delimiter
    rw [layOutline_delimited children d hblock hdelimiter, hrun,
      inscriptions_of_delimiter hblock hdelimiter]
    exact ⟨_, rfl, by rwa [Draft.hrefs_append], hwrote (.mark delimiter) (by simp)⟩
  | link href => exact writes_link href (hcontents rfl) hd
  | document =>
    obtain ⟨d', hrun, hhrefs, hwrote⟩ := hcontents rfl d own ws hd
    refine ⟨d', hrun, hhrefs, ?_⟩
    simpa [inscriptions, Kind.endsBlock, Kind.name, marksOf, prefixesOf, blockOf?, delimiterOf?]
      using hwrote
  | lineBreak =>
    obtain ⟨d', hrun, hwrote, hsame⟩ := hd.markHardBreak.boundary
    rw [inscriptions_of_endsBlock rfl, List.append_nil]
    exact ⟨d', hrun, by rw [hsame]; exact List.prefix_rfl, hwrote⟩
  | separator =>
    obtain ⟨d', hrun, hwrote, hsame⟩ := hd.boundary
    rw [inscriptions_of_endsBlock rfl, List.append_nil]
    exact ⟨d', hrun, by rw [hsame], hwrote⟩
  | orderedList => exact absurd rfl hk

end Node

mutual

theorem writes_outline : ∀ (o : Outline), o.Listless → ∀ (d : Draft) (own : List Margin)
    (ws : List Inscription), d.Wrote own ws → ∃ d', layOutline o d = .ok d' ∧
      d.hrefs <+: d'.hrefs ∧ d'.Wrote own (ws ++ inscriptions (own.map Margin.linePrefix) o)
  | .text contents, _, d, own, ws, hd =>
    ⟨d.append contents, rfl, by rw [Draft.hrefs_append],
      hd.append (.leaf contents) (by simp)⟩
  | .node k children, ho, d, own, ws, hd => by
    rw [Outline.Listless] at ho
    exact writes_node ho.1 (fun hk => writes_outlines children (ho.2 hk)) hd

theorem writes_outlines : ∀ (os : List Outline), Outline.AllListless os → Writes os
  | [], _, d, own, ws, hd => ⟨d, rfl, List.prefix_rfl, by simpa [allInscriptions] using hd⟩
  | first :: rest, hos, d, own, ws, hd => by
    rw [Outline.AllListless] at hos
    obtain ⟨d₁, hfirst, hhrefs, hwrote⟩ := writes_outline first hos.1 d own ws hd
    obtain ⟨d', hrest, hhrefs', hwrote'⟩ := writes_outlines rest hos.2 d₁ own _ hwrote
    refine ⟨d', ?_, hhrefs.trans hhrefs', ?_⟩
    · rw [layOutlines, hfirst]
      exact hrest
    · rw [allInscriptions, ← List.append_assoc]
      exact hwrote'

end

end Layout
end HtmlMarkdown
