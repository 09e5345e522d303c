import HtmlMarkdown.Proofs.FirstLines
import HtmlMarkdown.Proofs.SpacedPage
import HtmlMarkdown.Proofs.Unfolding
import Mathlib.Data.List.DropRight

/-!
Separating lines. Between two blocks stands what the next line of the earlier one would start with,
without the white space at both of its ends. What is cut off at the end cannot be seen, but in front
it is the indentation of list items and preformatted text, and a quote in there loses its place.
-/
namespace HtmlMarkdown

/-! White space in front. -/

namespace Text

theorem dropEndWhile_append_of_exists {p : Char → Bool} (front : List Char) {s : List Char}
    (h : ∃ c ∈ s, p c = false) : dropEndWhile p (front ++ s) = front ++ dropEndWhile p s := by
  obtain ⟨c, hc, hp⟩ := h
  have hne : (s.reverse.dropWhile p).isEmpty = false := by
    rw [List.isEmpty_eq_false_iff, Ne, List.dropWhile_eq_nil_iff]
    intro hall
    rw [hall c (List.mem_reverse.2 hc)] at hp
    cases hp
  rw [dropEndWhile, dropEndWhile, List.reverse_append, List.dropWhile_append, hne]
  simp

theorem trimEnd_trim (s : List Char) : trimEnd (trim s) = trim s := by
  have htwice : ∀ u : List Char, (u.dropWhile isBlank).dropWhile isBlank = u.dropWhile isBlank :=
    fun u => (List.dropWhile_idempotent (p := isBlank)) u
  simp only [trim, trimEnd, dropEndWhile, List.reverse_reverse, htwice]

/-- Cutting white space off in front makes no difference where there is none, or nothing else. -/
theorem trim_eq_trimEnd_iff (s : List Char) :
    trim s = trimEnd s ↔ (∀ c ∈ s, isBlank c) ∨ ∀ c ∈ s.head?, isBlank c = false := by
  by_cases hall : ∀ c ∈ s, isBlank c
  · have hdrop : s.dropWhile isBlank = [] := List.dropWhile_eq_nil_iff.2 hall
    exact iff_of_true (by rw [trim, hdrop, trimEnd_eq_nil hall]; rfl) (Or.inl hall)
  · rw [or_iff_right hall]
    -- what shows anything is still there
    have hsplit := List.takeWhile_append_dropWhile (p := isBlank) (l := s)
    have hshown : ∃ c ∈ s.dropWhile isBlank, isBlank c = false := by
      have hne : s.dropWhile isBlank ≠ [] := fun hnil => hall (List.dropWhile_eq_nil_iff.1 hnil)
      obtain ⟨c, rest, hrest⟩ := List.exists_cons_of_ne_nil hne
      have hhead := List.head?_dropWhile_not isBlank s
      rw [hrest] at hhead ⊢
      exact ⟨c, List.mem_cons_self .., by simpa using hhead⟩
    have hend : trimEnd s = s.takeWhile isBlank ++ trim s := by
      have happend := dropEndWhile_append_of_exists (s.takeWhile isBlank) hshown
      rwa [hsplit] at happend
    rw [hend, eq_comm, List.append_left_eq_self]
    cases s with
    | nil => simp
    | cons c rest => cases hc : isBlank c <;> simp [hc]

end Text

namespace Layout

open Document

/-! Which lines are indented. -/

/-- What a prefix shows on later lines: the mark of a quote, or nothing but white space. -/
def LinePrefix.MarksOrIndents (p : LinePrefix) : Prop :=
  p = quoteMark ∨ p.later = "    " ∨ p.later = ""

theorem marksOrIndents_of_blockOf? {k : Kind} {p : LinePrefix} {options : BlockOptions}
    (h : blockOf? k = some (p, options)) : p.MarksOrIndents := by
  cases k with
  | document | link | bold | italic | orderedList | code | lineBreak | separator => cases h
  | blockquote =>
    obtain ⟨rfl, -⟩ := Prod.mk.inj (Option.some.inj h)
    exact Or.inl rfl
  | listItem | numberedItem | preformatted =>
    obtain ⟨rfl, -⟩ := Prod.mk.inj (Option.some.inj h)
    exact Or.inr (Or.inl rfl)
  | heading | paragraph =>
    obtain ⟨rfl, -⟩ := Prod.mk.inj (Option.some.inj h)
    exact Or.inr (Or.inr rfl)

/-- There is a quote among the prefixes, and around the outermost of them something that indents
its contents. -/
def IndentsQuote (prefixes : List LinePrefix) : Prop :=
  quoteMark ∈ prefixes ∧ ∃ p ∈ prefixes.takeWhile (· ≠ quoteMark), p.later ≠ ""

instance (prefixes : List LinePrefix) : Decidable (IndentsQuote prefixes) :=
  inferInstanceAs (Decidable (_ ∧ _))

theorem indentsQuote_cons {p : LinePrefix} {inner : List LinePrefix} (hp : p ≠ quoteMark) :
    IndentsQuote (p :: inner) ↔
      if p.later = "" then IndentsQuote inner else quoteMark ∈ inner := by
  by_cases hlater : p.later = "" <;> simp [IndentsQuote, hp, hp.symm, hlater]

theorem not_indentsQuote_quoteMark_cons (inner : List LinePrefix) :
    ¬ IndentsQuote (quoteMark :: inner) := by
  simp [IndentsQuote]

variable {margins : List Margin}

theorem LinePrefix.MarksOrIndents.later_isBlank_iff {p : LinePrefix} (h : p.MarksOrIndents) :
    (∀ c ∈ p.later.toList, Text.isBlank c) ↔ p ≠ quoteMark := by
  have hmark : ¬ Text.isBlank '>' := by simp [Text.isBlank]
  have hspace : Text.isBlank ' ' := rfl
  constructor
  · rintro hall rfl
    exact hmark (hall '>' (List.mem_cons_self ..))
  · intro hp
    rcases h.resolve_left hp with hlater | hlater <;> simp [hlater, hspace]

/-- Of what is shown on later lines, only the mark of a quote is not white. -/
theorem laterStart_isBlank_iff (h : ∀ m ∈ margins, m.linePrefix.MarksOrIndents) :
    (∀ c ∈ laterStart margins, Text.isBlank c) ↔
      quoteMark ∉ margins.map Margin.linePrefix := by
  induction margins with
  | nil => simp [laterStart]
  | cons m rest ih =>
    rw [List.forall_mem_cons] at h
    have hstart : laterStart (m :: rest) = m.linePrefix.later.toList ++ laterStart rest := rfl
    rw [hstart, List.forall_mem_append, h.1.later_isBlank_iff, ih h.2, List.map_cons,
      List.mem_cons, not_or, ne_comm]

/-- The white space in front of a line matters if and only if it indents a quote. -/
theorem trim_laterStart_iff (h : ∀ m ∈ margins, m.linePrefix.MarksOrIndents) :
    Text.trim (laterStart margins) = Text.trimEnd (laterStart margins) ↔
      ¬ IndentsQuote (margins.map Margin.linePrefix) := by
  rw [Text.trim_eq_trimEnd_iff]
  induction margins with
  | nil => simp [laterStart, IndentsQuote]
  | cons m rest ih =>
    have hall := laterStart_isBlank_iff h
    rw [List.forall_mem_cons] at h
    have hstart : laterStart (m :: rest) = m.linePrefix.later.toList ++ laterStart rest := rfl
    rw [List.map_cons] at hall ⊢
    by_cases hquote : m.linePrefix = quoteMark
    · rw [hquote]
      refine iff_of_true (Or.inr ?_) (not_indentsQuote_quoteMark_cons _)
      rw [hstart, hquote]
      simp [quoteMark, LinePrefix.uniform, Text.isBlank]
    · rw [indentsQuote_cons hquote]
      rcases h.1.resolve_left hquote with hlater | hlater
      · have hspace : Text.isBlank ' ' := rfl
        rw [hall, if_neg (by rw [hlater]; decide), hstart, hlater]
        simp [Ne.symm hquote, hspace]
      · rw [if_pos hlater, hstart, hlater]
        exact ih h.2

/-! Where separating lines stand. -/

/-- A place on the page where a separating line stands: the block written last, the next block, and
the counts of the lines in front of that place and of those of the next block. -/
structure Joint where
  earlier : Block
  later : Block
  counts : LineCounts

/-- What the next line under the earlier block would start with. -/
def Joint.start (j : Joint) : List Char := (renderMargins j.earlier.margins j.counts).1

/-- The places where separating lines stand when blocks are joined. -/
def joints (earlier : Option Block) : List Block → LineCounts → List Joint
  | [], _ => []
  | block :: rest, counts =>
    let (shown, counts) := block.render counts
    if shown.isEmpty then joints earlier rest counts
    else
      let (line, after) := separatorLine earlier block counts
      let here := if line.isEmpty then [] else earlier.toList.map (⟨·, block, counts⟩)
      here ++ joints (some block) rest after

/-- A separating line stands between two blocks that are written one after the other. -/
def Separated (earlier later : Block) : Bool :=
  !(later.isHeading && earlier.isHeading) && !earlier.options.endsWithHardBreak

variable {earlier : Option Block} {b : Block} {blocks : List Block} {c : LineCounts} {j : Joint}

theorem separatorLine_eq_nil_iff (earlier : Option Block) (later : Block) (c : LineCounts) :
    (separatorLine earlier later c).1 = [] ↔ ∀ e ∈ earlier, Separated e later = false := by
  cases earlier with
  | none => simp [separatorLine]
  | some e =>
    simp only [separatorLine, Separated, Option.mem_some, forall_eq']
    cases later.isHeading && e.isHeading <;> cases e.options.endsWithHardBreak <;> simp

theorem joints_cons_of_nil (h : (b.render c).1 = []) :
    joints earlier (b :: blocks) c = joints earlier blocks (b.render c).2 := by
  simp [joints, h]

theorem joints_cons_of_ne (h : (b.render c).1 ≠ []) : joints earlier (b :: blocks) c =
    ((earlier.toList.filter (Separated · b)).map (⟨·, b, (b.render c).2⟩)) ++
      joints (some b) blocks (separatorLine earlier b (b.render c).2).2 := by
  have hline := separatorLine_eq_nil_iff earlier b (b.render c).2
  cases earlier with
  | none => simp [joints, h]
  | some e =>
    simp only [joints]
    cases hsep : Separated e b <;> simp_all

/-- Separating lines stand between any two neighbours on the page, but for two headings and behind
a hard break. -/
theorem map_joints (earlier : Option Block) (blocks : List Block) (c : LineCounts) :
    (joints earlier blocks c).map (fun j => (j.earlier, j.later)) =
      ((earlier.toList ++ shownBlocks earlier blocks c).zip
        (earlier.toList ++ shownBlocks earlier blocks c).tail).filter
          fun pair => Separated pair.1 pair.2 := by
  induction blocks generalizing earlier c with
  | nil => cases earlier <;> simp [joints, shownBlocks]
  | cons b rest ih =>
    by_cases hshown : (b.render c).1 = []
    · rw [joints_cons_of_nil hshown, shownBlocks_cons_of_nil hshown]
      exact ih earlier _
    · rw [joints_cons_of_ne hshown, shownBlocks_cons_of_ne hshown, List.map_append, ih (some b)]
      cases earlier with
      | none => simp
      | some e => cases hsep : Separated e b <;> simp [hsep]

/-- Under the earlier block of a separating line there have been lines. -/
theorem written_of_mem_joints (hj : j ∈ joints earlier blocks c)
    (hearlier : ∀ e ∈ earlier, Written e.margins c)
    (hcounted : ∀ b ∈ blocks, Counted b.margins c) : Written j.earlier.margins j.counts := by
  induction blocks generalizing earlier c with
  | nil => cases hj
  | cons b rest ih =>
    rw [List.forall_mem_cons] at hcounted
    have hlength := Block.length_render b c
    have hafter : ∀ e ∈ earlier, Written e.margins (b.render c).2 := fun e he =>
      (hearlier e he).render hcounted.1
    by_cases hshown : (b.render c).1 = []
    · rw [joints_cons_of_nil hshown] at hj
      exact ih hj hafter fun b hb => (hcounted.2 b hb).of_length_eq hlength
    · have hcontents : b.contents ≠ none := fun hnone => hshown (by rw [Block.render, hnone])
      have hzeros := separatorLine_sameZeros hafter b
      rw [joints_cons_of_ne hshown, List.mem_append] at hj
      rcases hj with hj | hj
      · obtain ⟨e, he, rfl⟩ := List.mem_map.1 hj
        exact hafter e (by simpa using (List.mem_filter.1 he).1)
      · refine ih hj (fun e he => ?_) fun b hb => ?_
        · obtain rfl : b = e := by simpa using he
          exact (b.written_render hcounted.1 hcontents).of_sameZeros hzeros
        · exact (hcounted.2 b hb).of_length_eq (hzeros.length_eq.symm.trans hlength)

/-- A line of its own in a text. -/
def LineOf (line text : List Char) : Prop :=
  ∃ front back, text = front ++ line ++ '\n' :: back ∧ ∀ c ∈ front.getLast?, c = '\n'

theorem LineOf.append_left {line text : List Char} (h : LineOf line text) {before : List Char}
    (hbefore : before.getLast? = some '\n') : LineOf line (before ++ text) := by
  obtain ⟨front, back, rfl, hfront⟩ := h
  refine ⟨before ++ front, back, by simp, fun x hx => ?_⟩
  rw [List.getLast?_append] at hx
  cases hlast : front.getLast? with
  | none => simpa [hlast, hbefore, eq_comm] using hx
  | some y => exact hfront x (by simpa [hlast] using hx)

theorem lineOf_of_mem_joints (hj : j ∈ joints earlier blocks c) :
    LineOf (Text.trim j.start) (joinBlocks earlier blocks c).1 := by
  induction blocks generalizing earlier c with
  | nil => cases hj
  | cons b rest ih =>
    by_cases hshown : (b.render c).1 = []
    · rw [joints_cons_of_nil hshown] at hj
      rw [joinBlocks_cons_of_nil hshown]
      exact ih hj
    · rw [joints_cons_of_ne hshown, List.mem_append] at hj
      rw [joinBlocks_cons_of_ne hshown]
      rcases hj with hj | hj
      · obtain ⟨e, he, rfl⟩ := List.mem_map.1 hj
        obtain ⟨he, hsep⟩ := List.mem_filter.1 he
        obtain rfl : earlier = some e := by simpa using he
        have hline : (separatorLine (some e) b (b.render c).2).1 =
            Text.trim (renderMargins e.margins (b.render c).2).1 ++ ['\n'] := by
          simp only [Separated, Bool.and_eq_true, Bool.not_eq_true'] at hsep
          simp [separatorLine, hsep]
        rw [hline]
        simp only [List.append_assoc]
        exact ⟨[], _, rfl, by simp⟩
      · refine (ih hj).append_left ?_
        rw [List.getLast?_append, Block.ending]
        split <;> simp

/-! Separating lines of a tree. -/

namespace Draft

/-- The places on the page where separating lines stand. -/
def joints (d : Draft) : List Joint := Layout.joints none d.blocks (LineCounts.start d.opened)

/-- What laying out leaves of the margins, as far as separating lines depend on it. -/
structure Separable (d : Draft) : Prop where
  counted : Counted d.allMargins (LineCounts.start d.opened)
  prefixes : ∀ m ∈ d.allMargins, m.linePrefix.MarksOrIndents

theorem separable_of_layOutline {o : Outline} {d : Draft} (h : layOutline o {} = .ok d) :
    d.Separable := by
  have hslots := marginInvariant_slots.respectsSteps.run o h (by simp [allMargins])
  have hprefixes := (marginInvariant_linePrefix @marksOrIndents_of_blockOf?).respectsSteps.run o h
    (by simp [allMargins])
  refine ⟨fun m hm => ?_, hprefixes⟩
  rw [LineCounts.start, List.length_replicate]
  exact hslots.1 m hm

variable {d : Draft}

theorem mem_blocks_of_mem_joints (hj : j ∈ d.joints) : j.earlier ∈ d.blocks := by
  have hpair : (j.earlier, j.later) ∈ d.joints.map fun j => (j.earlier, j.later) :=
    List.mem_map_of_mem hj
  rw [joints, map_joints] at hpair
  have hshown := (List.of_mem_zip (List.mem_filter.1 hpair).1).1
  exact (shownBlocks_sublist none d.blocks _).subset (by simpa using hshown)

theorem Separable.start_eq (h : d.Separable) (hj : j ∈ d.joints) :
    j.start = laterStart j.earlier.margins := by
  refine (written_of_mem_joints hj (by simp) fun b hb m hm => ?_).renderMargins_eq
  exact h.counted m (mem_allMargins_of_mem hb hm)

end Draft

/-- Whatever displays no ordered list and nothing below itself is laid out. Separating lines stand
between any two neighbours on the page, but for two headings and behind a hard break. Each of them
is what the next line under the earlier block would start with, and that is what its prefixes show
on later lines, with the white space cut off at both ends. With the white space at the end left out
of account the two are the same, unless the earlier block stands in a quote and something that
indents its contents stands around the outermost quote. -/
theorem layTree_separatingLines (t : Tree) (id : NodeId) (h : t.Displayable id) :
    ∃ draft, layTree t id = .ok draft ∧
      draft.joints.map (fun j => (j.earlier, j.later)) =
        (draft.shown.zip draft.shown.tail).filter (fun pair => Separated pair.1 pair.2) ∧
      ∀ j ∈ draft.joints,
        LineOf (Text.trim j.start) draft.body.1 ∧
        j.start = laterStart j.earlier.margins ∧
        (Text.trimEnd (Text.trim j.start) = Text.trimEnd j.start ↔
          ¬ IndentsQuote (j.earlier.margins.map Margin.linePrefix)) := by
  obtain ⟨draft, hlay, -⟩ :=
    writes_outline (t.outline id) (h.listless t.size) {} [] [] ⟨[], [], .start, rfl⟩
  have hseparable := Draft.separable_of_layOutline hlay
  refine ⟨draft, hlay, map_joints none draft.blocks _, fun j hj => ?_⟩
  have hstart := hseparable.start_eq hj
  have hmargins : ∀ m ∈ j.earlier.margins, m.linePrefix.MarksOrIndents := fun m hm =>
    hseparable.prefixes m (Draft.mem_allMargins_of_mem (Draft.mem_blocks_of_mem_joints hj) hm)
  refine ⟨lineOf_of_mem_joints hj, hstart, ?_⟩
  rw [Text.trimEnd_trim, hstart]
  exact trim_laterStart_iff hmargins

/-- A quote of two paragraphs in a list item. -/
def quotedItem : Tree :=
  ⟨#[{ kind := .document, children := [.node 1] },
    { kind := .listItem, children := [.node 2], parent := some 0 },
    { kind := .blockquote false, children := [.node 3, .node 4], parent := some 1 },
    { kind := .paragraph, children := [.text "a"], parent := some 2 },
    { kind := .paragraph, children := [.text "b"], parent := some 2 }]⟩

theorem layTree_separatingLines_quotedItem : quotedItem.Displayable Tree.root ∧
    ∃ draft, layTree quotedItem Tree.root = .ok draft ∧
      draft.joints.map (fun j => (j.earlier, j.later)) =
        (draft.shown.zip draft.shown.tail).filter (fun pair => Separated pair.1 pair.2) ∧
      ∀ j ∈ draft.joints,
        LineOf (Text.trim j.start) draft.body.1 ∧
        j.start = laterStart j.earlier.margins ∧
        (Text.trimEnd (Text.trim j.start) = Text.trimEnd j.start ↔
          ¬ IndentsQuote (j.earlier.margins.map Margin.linePrefix)) :=
  have hdisplayable := Tree.displayable_of_ascending (by decide) (by decide)
  ⟨hdisplayable, layTree_separatingLines quotedItem Tree.root hdisplayable⟩

/-- Between the two paragraphs, the mark of the quote has lost the indentation of the item. -/
theorem layTree_separatingLines_outdentedQuote :
    (layTree quotedItem Tree.root).map (fun draft =>
      (draft.bodyText, draft.joints.map fun j =>
        (String.ofList (Text.trimEnd (Text.trim j.start)), String.ofList (Text.trimEnd j.start)))) =
      .ok ("  - > a\n>\n    > b\n", [(">", "    >")]) := by
  decide +kernel

end Layout
end HtmlMarkdown
