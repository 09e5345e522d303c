import HtmlMarkdown.Proofs.BlankEnds
import HtmlMarkdown.Proofs.FilledBlocks
import HtmlMarkdown.Proofs.JoinedPage
import HtmlMarkdown.Proofs.PositionWalks

/-!
White space between block-level elements, on the page. A block of nothing but white space shows
what its margins show. Where that is nothing, the page does not change; where it is something, one
more line ends in a space.
-/
namespace HtmlMarkdown

open Document Layout

theorem Text.trimEnd_eq_nil {s : List Char} (h : ∀ x ∈ s, isBlank x) : trimEnd s = [] := by
  rw [trimEnd, dropEndWhile, List.reverse_eq_nil_iff, List.dropWhile_eq_nil_iff]
  simpa using h

namespace Layout

variable {w : String} {margins : List Margin} {c : LineCounts}

/-! A blank block. -/

theorem flatten_of_isBlank {text : List Char} (h : ∀ x ∈ text, Text.isBlank x) :
    flatten false text = [] := by
  have hmap : ∀ x ∈ (Text.stripTrailingNewlines text).map fun c => if c = '\n' then ' ' else c,
      Text.isBlank x := by
    intro x hx
    obtain ⟨y, hy, rfl⟩ := List.mem_map.1 hx
    split
    · rfl
    · exact h y ((Text.dropEndWhile_sublist _ text).subset hy)
  exact Text.trimEnd_eq_nil hmap

/-- White space is laid out as the margins alone. -/
theorem render_of_isBlank (hw : ∀ x ∈ w.toList, Text.isBlank x) (c : LineCounts) :
    ({ margins := margins, contents := some w } : Block).render c = renderMargins margins c := by
  have hpieces : pieces [] = [] := by rw [pieces]; rfl
  simp only [Block.render, wrap, flatten_of_isBlank hw, hpieces, layPieces, List.append_nil]

theorem rim?_eq_none_iff (p : LinePrefix) : p.rim? = none ↔ p.first = "" ∧ p.later = "" := by
  unfold LinePrefix.rim?
  by_cases hlater : p.later = "" <;> by_cases hfirst : p.first = "" <;> simp [hlater, hfirst]

theorem rim?_eq_always_iff (p : LinePrefix) : p.rim? = some .always ↔ p.later ≠ "" := by
  unfold LinePrefix.rim?
  by_cases hlater : p.later = "" <;> by_cases hfirst : p.first = "" <;> simp [hlater, hfirst]

theorem eq_nil_of_rimsOf_eq_nil (h : rimsOf margins = []) :
    ∀ m ∈ margins, m.linePrefix.first = "" ∧ m.linePrefix.later = "" := by
  rw [rimsOf, List.filterMap_eq_nil_iff] at h
  exact fun m hm => (rim?_eq_none_iff _).1 (h m hm)

theorem renderMargins_eq_nil (h : rimsOf margins = []) (c : LineCounts) :
    (renderMargins margins c).1 = [] := by
  have hnone := eq_nil_of_rimsOf_eq_nil h
  clear h
  induction margins generalizing c with
  | nil => rfl
  | cons m rest ih =>
    rw [List.forall_mem_cons] at hnone
    simp only [renderMargins, hnone.1, ite_self, ih _ hnone.2]
    rfl

theorem renderMargins_ne_nil (htidy : ∀ m ∈ margins, m.linePrefix.Tidy)
    (h : .always ∈ rimsOf margins) (c : LineCounts) : (renderMargins margins c).1 ≠ [] := by
  obtain ⟨m, hm, halways⟩ := List.mem_filterMap.1 h
  have hlater := (rim?_eq_always_iff _).1 halways
  have hfirst := (htidy m hm).first_ne hlater
  clear h htidy halways
  induction margins generalizing c with
  | nil => cases hm
  | cons m' rest ih =>
    rcases List.mem_cons.1 hm with rfl | hm
    · refine List.append_ne_nil_of_left_ne_nil ?_ _
      split <;> simpa
    · exact List.append_ne_nil_of_right_ne_nil _ (ih _ hm)

/-- Of margins without a heading, the first line is empty only if the others are. -/
theorem steady_of_rimsOf (htidy : ∀ m ∈ margins, m.linePrefix.Tidy)
    (h : .once ∉ rimsOf margins) : ∀ m ∈ margins, m.linePrefix.Steady EmptyAlike := by
  intro m hm
  have hrim : m.linePrefix.rim? ≠ some .once := fun hrim => h (List.mem_filterMap.2 ⟨m, hm, hrim⟩)
  have hfirst := (htidy m hm).first_ne
  unfold LinePrefix.rim? at hrim
  unfold LinePrefix.Steady EmptyAlike
  rw [String.toList_eq_nil_iff, String.toList_eq_nil_iff]
  by_cases hlater : m.linePrefix.later = ""
  · by_cases hempty : m.linePrefix.first = ""
    · simp [hlater, hempty]
    · simp [hlater, hempty] at hrim
  · simp [hlater, hfirst hlater]

/-! Drafts. -/

/-- A draft of a document: no two margins share a slot, and the blocks are tidy. -/
structure Draft.Orderly (d : Draft) : Prop where
  slot_lt : ∀ m ∈ d.allMargins, m.slot < d.opened
  slot_inj : ∀ m ∈ d.allMargins, ∀ m' ∈ d.allMargins, m.slot = m'.slot → m = m'
  tidy : ∀ b ∈ d.blocks, b.Tidy

theorem marginInvariant_slots : MarginInvariant fun ms n =>
    (∀ m ∈ ms, m.slot < n) ∧ ∀ m ∈ ms, ∀ m' ∈ ms, m.slot = m'.slot → m = m' where
  subset hsub h :=
    ⟨fun m hm => h.1 m (hsub hm), fun m hm m' hm' => h.2 m (hsub hm) m' (hsub hm')⟩
  opens := by
    rintro k p options ms n - ⟨hlt, hinj⟩
    have hne : ∀ m ∈ ms, m.slot ≠ n := fun m hm => Nat.ne_of_lt (hlt m hm)
    refine ⟨?_, ?_⟩
    · rw [List.forall_mem_cons]
      exact ⟨Nat.lt_succ_self n, fun m hm => Nat.lt_succ_of_lt (hlt m hm)⟩
    · intro m hm m' hm' hslot
      rcases List.mem_cons.1 hm with rfl | hm <;> rcases List.mem_cons.1 hm' with rfl | hm'
      · rfl
      · exact absurd hslot.symm (hne m' hm')
      · exact absurd hslot (hne m hm)
      · exact hinj m hm m' hm' hslot

/-- Lines are only kept as they are where they are not broken. -/
theorem optionInvariant_width : OptionInvariant (· ≠ .lineBreak) fun options _ =>
    options.endsWithHardBreak = false ∧
      (options.preserveNewlines = true → options.maxWidth = 0) where
  usual _ := by simp
  opens {k p options} _ _ h := by
    cases k with
    | document | link | bold | italic | orderedList | code | lineBreak | separator => cases h
    | heading | listItem | numberedItem | preformatted | paragraph | blockquote =>
      obtain ⟨-, rfl⟩ := Prod.mk.inj (Option.some.inj h)
      simp
  hardBreak hbreak := absurd rfl hbreak

/-! Pages. -/

section Page

variable {d : Draft} {before after : List Block}

theorem margins_subset_allMargins {b : Block} (hb : b ∈ d.blocks) : b.margins ⊆ d.allMargins :=
  fun _ hm => Draft.mem_allMargins_of_mem hb hm

/-- One more line under a block's margins is of no effect if they show alike on all lines. -/
theorem Draft.Orderly.alikeUnder (hd : d.Orderly) {T : List Char → List Char → Prop} {b : Block}
    (hb : b ∈ d.blocks) (hsteady : ∀ m ∈ b.margins, m.linePrefix.Steady T) (c : LineCounts) :
    AlikeUnder T d.allMargins c (renderMargins b.margins c).2 := by
  refine .of_quiet fun m hm hslot => Or.inl ?_
  obtain ⟨m', hm', hslot'⟩ := List.mem_map.1 hslot
  obtain rfl := hd.slot_inj m' (margins_subset_allMargins hb hm') m hm hslot'
  exact hsteady m' hm'

theorem Draft.Orderly.counted (hd : d.Orderly) {b : Block} (hb : b ∈ d.blocks) {c : LineCounts}
    (hc : c.length = d.opened) : Counted b.margins c := fun m hm => by
  rw [hc]
  exact hd.slot_lt m (Draft.mem_allMargins_of_mem hb hm)

/-- The pages of a draft without and with a text in some block have the same front, up to that
block. -/
theorem exists_front (hd : d.Orderly)
    (hblocks : d.blocks = before ++ { margins := margins } :: after) (w : String) :
    ∃ front last c, c.length = d.opened ∧ (∀ b ∈ last, Written b.margins c ∧ b ∈ d.blocks) ∧
      d.body.1 = front ++ (joinBlocks last after c).1 ∧
      (Draft.body { d with
          blocks := before ++ { margins := margins, contents := some w } :: after }).1 =
        front ++ (joinBlocks last ({ margins := margins, contents := some w } :: after) c).1 := by
  have hlength : (LineCounts.start d.opened).length = d.opened := List.length_replicate
  have hbefore : ∀ b ∈ before, b ∈ d.blocks := fun b hb => by simp [hblocks, hb]
  have hcounted : ∀ b ∈ before, Counted b.margins (LineCounts.start d.opened) := fun b hb =>
    hd.counted (hbefore b hb) hlength
  have hjoin := joinBlocks_append none before
  refine ⟨_, lastShown none before (LineCounts.start d.opened), _, ?_, fun b hb => ⟨?_, ?_⟩, ?_,
    hjoin _ _⟩
  · rw [length_joinBlocks, hlength]
  · exact written_lastShown (by simp) hcounted b hb
  · exact hbefore b ((mem_of_mem_lastShown hb).resolve_left (by simp))
  · rw [Draft.body, hblocks, hjoin, joinBlocks_cons_of_nil rfl]
    rfl

/-- White space under margins that show nothing is not seen. -/
theorem body_eq_of_unseen (hd : d.Orderly)
    (hblocks : d.blocks = before ++ { margins := margins } :: after)
    (hw : ∀ x ∈ w.toList, Text.isBlank x) (hms : rimsOf margins = []) :
    (Draft.body { d with
      blocks := before ++ { margins := margins, contents := some w } :: after }).1 = d.body.1 := by
  obtain ⟨front, last, c, -, hlast, hbody, hbody'⟩ := exists_front hd hblocks w
  have hblank : { margins := margins } ∈ d.blocks := by simp [hblocks]
  have hafter : ∀ b ∈ after, b.margins ⊆ d.allMargins := fun b hb =>
    margins_subset_allMargins (by simp [hblocks, hb])
  have halike : AlikeUnder Eq d.allMargins c (renderMargins margins c).2 := by
    refine hd.alikeUnder hblank (fun m hm => ?_) c
    obtain ⟨hfirst, hlater⟩ := eq_nil_of_rimsOf_eq_nil hms m hm
    rw [LinePrefix.Steady, hfirst, hlater]
  have hrest := joinBlocks_sameText (fun b hb => margins_subset_allMargins (hlast b hb).2)
    hafter halike
  rw [hbody, hbody', joinBlocks_cons_of_nil, render_of_isBlank hw, hrest.1]
  rw [render_of_isBlank hw]
  exact renderMargins_eq_nil hms c

/-- White space under margins that show something on every line is one more line that ends in a
space. -/
theorem blankEnds_joinBlocks_blank (hd : d.Orderly)
    (hblocks : d.blocks = before ++ { margins := margins } :: after)
    (hw : ∀ x ∈ w.toList, Text.isBlank x) (honce : .once ∉ rimsOf margins)
    (halways : .always ∈ rimsOf margins) {last : Option Block} (hlength : c.length = d.opened)
    (hlast : ∀ b ∈ last, Written b.margins c ∧ b ∈ d.blocks) :
    Text.blankEnds (joinBlocks last ({ margins := margins, contents := some w } :: after) c).1 =
      1 + Text.blankEnds (joinBlocks last after c).1 := by
  have hblank : { margins := margins } ∈ d.blocks := by simp [hblocks]
  have htidy : Block.Tidy { margins := margins } := hd.tidy _ hblank
  let blank : Block := { margins := margins, contents := some w }
  have hblank' : blank.Tidy := ⟨htidy.margins, htidy.noHardBreak, htidy.width⟩
  have hcounted : Counted margins c := hd.counted hblank hlength
  have hrender : blank.render c = renderMargins margins c := render_of_isBlank hw c
  have hstart : (blank.render c).1 ≠ [] := hrender ▸ renderMargins_ne_nil htidy.margins halways c
  -- the line of white space
  have hend : (blank.render c).1.getLast? = some ' ' := by
    rw [hrender] at hstart ⊢
    exact (renderMargins_endsBlank htidy.margins c).getLast?_eq_iff.2 hstart
  have hone : Text.blankEnds (blank.render c).1 = 1 := by
    rw [Text.blankEnds_eq (hrender ▸ newline_notMem_margins htidy.margins c), if_pos hend]
  -- what follows it
  have hbefore : ∀ b ∈ last, Written b.margins (blank.render c).2 := fun b hb =>
    (hlast b hb).1.render hcounted
  have hseparator := separatorLine_sameZeros hbefore blank
  have hwritten : Written margins (separatorLine last blank (blank.render c).2).2 :=
    (blank.written_render hcounted (by simp [blank])).of_sameZeros hseparator
  have halike : AlikeUnder EmptyAlike d.allMargins c
      (separatorLine last blank (blank.render c).2).2 := by
    have hcounts := hd.alikeUnder hblank (steady_of_rimsOf htidy.margins honce) c
    rw [← hrender] at hcounts
    exact hcounts.trans hseparator.alikeUnder
  have hmore : Text.blankEnds (joinBlocks last after c).1 =
      Text.blankEnds (joinBlocks (some blank) after
        (separatorLine last blank (blank.render c).2).2).1 := by
    refine blankEnds_joinBlocks (fun b hb => ?_) (fun b hb => ?_) (fun b hb => ?_) halike
    · have hmem : b ∈ d.blocks := by simp [hblocks, hb]
      exact ⟨hd.tidy b hmem, margins_subset_allMargins hmem, hd.counted hmem hlength⟩
    · exact ⟨hd.tidy b (hlast b hb).2, (hlast b hb).1⟩
    · obtain rfl : blank = b := by simpa using hb
      exact ⟨hblank', hwritten⟩
  rw [joinBlocks_cons_of_ne hstart, Block.ending, if_neg (by simp)]
  simp only [List.append_assoc, List.cons_append, List.nil_append]
  rw [blankEnds_separatorLine fun b hb => hd.tidy b (hlast b hb).2, Text.blankEnds_append_newline,
    hone, ← hmore]

/-- So it is seen. -/
theorem body_ne_of_seen (hd : d.Orderly)
    (hblocks : d.blocks = before ++ { margins := margins } :: after)
    (hw : ∀ x ∈ w.toList, Text.isBlank x) (honce : .once ∉ rimsOf margins)
    (halways : .always ∈ rimsOf margins) :
    (Draft.body { d with
      blocks := before ++ { margins := margins, contents := some w } :: after }).1 ≠ d.body.1 := by
  obtain ⟨front, last, c, hlength, hlast, hbody, hbody'⟩ := exists_front hd hblocks w
  have hcount := blankEnds_joinBlocks_blank hd hblocks hw honce halways hlength hlast
  rw [hbody, hbody']
  intro hsame
  rw [List.append_cancel_left hsame] at hcount
  omega

end Page

end Layout

theorem Document.Forest.Normalized.draft_orderly {document : List Html.Node}
    {options : ConversionOptions} {F : Forest} {draft : Draft}
    (hF : Normalized document options F)
    (h : layOutline (.node .document F.outlines) {} = .ok draft) : draft.Orderly := by
  have hall : F.AllKinds fun _ => True := everywhere_of_forall (fun _ _ => trivial) F
  have hslots := marginInvariant_slots.respectsSteps.layOutlines hall h (by simp [Draft.allMargins])
  have hprefixes := (marginInvariant_linePrefix @tidy_of_blockOf?).respectsSteps.layOutlines hall h
    (by simp [Draft.allMargins])
  have hoptions := (optionInvariant_width.respectsSteps (by simp)).layOutlines hF.noLineBreak h
    (by simp)
  refine ⟨hslots.1, hslots.2, fun b hb => ⟨fun m hm => ?_, (hoptions b hb).1, (hoptions b hb).2⟩⟩
  exact hprefixes m (Draft.mem_allMargins_of_mem hb hm)

variable {w : String} {around : List String} {document document' : List Html.Node}

theorem noDash_of_isBlank (hw : ∀ c ∈ w.toList, Text.isBlank c) : NoDash w := fun hmem => by
  have hblank := hw _ hmem
  revert hblank
  decide

/-- Drafts with the same reference lines give the same text if and only if their blocks do. -/
theorem markdownOfHtml_eq_iff {options : ConversionOptions} {draft : Draft} {bs : List Block}
    (h : draftOfHtml document options = .ok draft)
    (h' : draftOfHtml document' options = .ok { draft with blocks := bs }) :
    markdownOfHtml document' options = markdownOfHtml document options ↔
      (Draft.body { draft with blocks := bs }).1 = draft.body.1 := by
  obtain ⟨d, hd, hdocument⟩ := exists_draft_ofDocument document options
  obtain ⟨d', hd', hdocument'⟩ := exists_draft_ofDocument document' options
  obtain rfl : d = draft := Except.ok.inj (hd.symm.trans h)
  obtain rfl : d' = { d with blocks := bs } := Except.ok.inj (hd'.symm.trans h')
  have hpart : Draft.referencePart { d with blocks := bs } options.quote =
      d.referencePart options.quote := rfl
  rw [markdownOfHtml, markdownOfHtml, h, h', Except.map, Except.map, Except.ok.injEq,
    Draft.finished, Draft.finished, String.ofList_inj, hdocument.finish_eq, hdocument'.finish_eq,
    hpart]
  exact ⟨List.append_cancel_right, fun hbody => by rw [hbody]⟩

/-- White space between two adjacent block-level elements is not seen where conversion never reads
it. Where it is read, with no heading and no preformatted element around it, it is not seen at the
top of a document, and it is seen in a list item, in a block quote and where the whole document
stands in a quote. -/
theorem markdownOfHtml_spacedOut (h : Html.SpacedOut w around document document')
    (hw : ∀ c ∈ w.toList, c = ' ' ∨ c = '\t' ∨ c = '\n') (hpre : "PRE" ∉ around)
    (options : ConversionOptions) :
    (Html.Unread w around → markdownOfHtml document' options = markdownOfHtml document options) ∧
      ((∀ tag ∈ Html.headingTags, tag ∉ around) →
        (markdownOfHtml document' options = markdownOfHtml document options ↔
          Html.Unread w around ∨
            (options.quote = false ∧ "LI" ∉ around ∧ "BLOCKQUOTE" ∉ around))) := by
  have hblank : ∀ c ∈ w.toList, Text.isBlank c := fun c hc => by
    rcases hw c hc with rfl | rfl | rfl <;> rfl
  obtain ⟨F, draft, draft', hF, hlay, hrun, hrun', hunread, hfilled⟩ :=
    draftOfHtml_spacedOut h (noDash_of_isBlank hblank) hpre options
  have horderly := hF.draft_orderly hlay
  by_cases hread : Html.Unread w around
  · obtain rfl := hunread hread
    have hsame : markdownOfHtml document' options = markdownOfHtml document options := by
      rw [markdownOfHtml, markdownOfHtml, hrun, hrun']
    exact ⟨fun _ => hsame, fun _ => ⟨fun _ => Or.inl hread, fun _ => hsame⟩⟩
  · obtain ⟨before, margins, after, hrims, hblocks, rfl⟩ := hfilled hread
    refine ⟨fun hunread => absurd hunread hread, fun hheadings => ?_⟩
    rw [markdownOfHtml_eq_iff hrun hrun', or_iff_right hread,
      ← Html.rimsAround_eq_nil_iff hpre hheadings, ← hrims]
    refine ⟨fun hsame => ?_, fun hnil => body_eq_of_unseen horderly hblocks hblank hnil⟩
    by_contra hne
    have honce := hrims ▸ Html.once_notMem_rimsAround hheadings options.quote
    obtain ⟨rim, hrim⟩ := List.exists_mem_of_ne_nil _ hne
    cases rim with
    | once => exact honce hrim
    | always => exact body_ne_of_seen horderly hblocks hblank honce hrim hsame

namespace Html

/-- A paragraph that holds one text. -/
def Node.paragraph (contents : String) : Node := .element .html "p" [] [.text contents]

def Node.blockQuote (children : List Node) : Node := .element .html "blockquote" [] children

theorem Node.isBlock_paragraph (contents : String) : (paragraph contents).IsBlock := by
  have hupper : "p".map Char.toUpper = "P" := by decide +kernel
  rw [paragraph, IsBlock, hupper]
  decide

theorem SpacedOut.inBlockQuote {children children' : List Node}
    (h : SpacedOut w around children children') :
    SpacedOut w ("BLOCKQUOTE" :: around) [.blockQuote children] [.blockQuote children'] := by
  have hupper : "blockquote".map Char.toUpper = "BLOCKQUOTE" := by decide +kernel
  exact hupper ▸ .inElement [] .html "blockquote" [] [] h

theorem spacedOut_paragraphs (w s u : String) : SpacedOut w []
    [.paragraph s, .paragraph u] [.paragraph s, .text w, .paragraph u] :=
  .here [] [] [] [] (Node.isBlock_paragraph s) (Node.isBlock_paragraph u) (by simp) (by simp)

end Html

/-- Between two paragraphs, white space is not seen at the top of a document, and it is seen in a
block quote. -/
theorem markdownOfHtml_spacedOut_paragraphs :
    Html.SpacedOut " \t\n" [] [.paragraph "a", .paragraph "b"]
        [.paragraph "a", .text " \t\n", .paragraph "b"] ∧
      markdownOfHtml [.paragraph "a", .text " \t\n", .paragraph "b"] {} =
        markdownOfHtml [.paragraph "a", .paragraph "b"] {} ∧
      markdownOfHtml [.blockQuote [.paragraph "a", .text " \t\n", .paragraph "b"]] {} ≠
        markdownOfHtml [.blockQuote [.paragraph "a", .paragraph "b"]] {} := by
  have hspaced := Html.spacedOut_paragraphs " \t\n" "a" "b"
  have hw : ∀ c ∈ " \t\n".toList, c = ' ' ∨ c = '\t' ∨ c = '\n' := by simp
  have hunread : ∀ around ∈ [[], ["BLOCKQUOTE"]], ¬ Html.Unread " \t\n" around := by decide
  have htop := (markdownOfHtml_spacedOut hspaced hw (by simp) {}).2 (by simp)
  have hquoted := (markdownOfHtml_spacedOut hspaced.inBlockQuote hw (by simp) {}).2 (by decide)
  refine ⟨hspaced, htop.2 (Or.inr (by simp)), mt hquoted.1 ?_⟩
  rintro (hread | hnone)
  · exact hunread _ (by simp) hread
  · simp at hnone

/-- In a block quote a space becomes a line of its own, between two separating lines. -/
theorem markdownOfHtml_spaceInQuote :
    Html.SpacedOut " " ["BLOCKQUOTE"]
        [.blockQuote [.paragraph "a", .paragraph "b"]]
        [.blockQuote [.paragraph "a", .text " ", .paragraph "b"]] ∧
      markdownOfHtml [.blockQuote [.paragraph "a", .paragraph "b"]] {} =
        .ok "> a\n>\n> b\n" ∧
      markdownOfHtml [.blockQuote [.paragraph "a", .text " ", .paragraph "b"]] {} =
        .ok "> a\n>\n> \n>\n> b\n" := by
  refine ⟨(Html.spacedOut_paragraphs " " "a" "b").inBlockQuote, ?_⟩
  simp only [markdownOfHtml, draftOfHtml, Tree.ofHtml, Tree.normalize_eq_countedPasses]
  decide +kernel

end HtmlMarkdown
