import HtmlMarkdown.Proofs.Stages
import HtmlMarkdown.Proofs.Survival
import HtmlMarkdown.Proofs.VisibleText
import HtmlMarkdown.Proofs.Writings

/-!
No text of a document is lost. Its texts outside line breaks, with their dashes spelled and
without their white space, are kept by the conversion and by the passes, each of them is written
into a block, and what the blocks hold can be read in the Markdown from left to right.
-/
namespace HtmlMarkdown

open Document Layout

namespace Html

mutual

/-- The texts of a node in document order, joined. Those below a `br` element, in comments and the
like and in documents inside the document do not count. -/
def Node.shownText : Node → String
  | .text contents => contents
  | .element _ tag _ children => if tag.map Char.toUpper = "BR" then "" else shownTexts children
  | .comment _ | .doctype _ | .instruction _ _ | .document _ => ""

def shownTexts : List Node → String
  | [] => ""
  | first :: rest => first.shownText ++ shownTexts rest

end

end Html

/-- The characters of a text that are not white space, with its dashes spelled. -/
def visibleSpelled (s : String) : List Char := Text.visible (spellDashes s).toList

theorem visibleSpelled_append (s u : String) :
    visibleSpelled (s ++ u) = visibleSpelled s ++ visibleSpelled u := by
  simp [visibleSpelled, spellDashes_append, String.toList_append]

/-! From the document to the forest. -/

mutual

theorem visible_shownText_ofNode (pre : Bool) (n : NodeId) : ∀ x : Html.Node,
    visibleSpelled (Forest.ofNode pre n x).shownText = visibleSpelled x.shownText
  | .text contents => by
    rw [Forest.ofNode, Html.Node.shownText]
    split
    · rw [Forest.shownText, Forest.shownText, String.append_empty]
    · rename_i hskip
      have hnewline : contents = "\n" := by
        by_contra hne
        exact hskip (by simp [hne])
      rw [hnewline]
      rfl
  | .element _ tag attributes children => by
    have hbelow := fun pre n => visible_shownText_ofNodes pre n children
    have hbreak := elementKind?_eq_lineBreak_iff tag attributes
    rw [Forest.ofNode, Html.Node.shownText]
    cases hkind : elementKind? tag attributes with
    | none =>
      have hne : ¬ tag.map Char.toUpper = "BR" := fun he => by simp [hbreak.2 he] at hkind
      rw [if_neg hne]
      exact hbelow pre n
    | some kind =>
      simp only [Forest.shownText, String.append_empty]
      by_cases hk : kind = .lineBreak
      · rw [if_pos hk, if_pos (hbreak.1 (by rw [hkind, hk]))]
      · have hne : ¬ tag.map Char.toUpper = "BR" := fun he =>
          hk (by simpa [hkind] using hbreak.2 he)
        rw [if_neg hk, if_neg hne]
        exact hbelow _ _
  | .comment _ | .doctype _ | .instruction _ _ | .document _ => by
    rw [Forest.ofNode, Html.Node.shownText, Forest.shownText]

theorem visible_shownText_ofNodes (pre : Bool) (n : NodeId) : ∀ xs : List Html.Node,
    visibleSpelled (Forest.ofNodes pre n xs).shownText = visibleSpelled (Html.shownTexts xs)
  | [] => rfl
  | first :: rest => by
    rw [Forest.ofNodes, Html.shownTexts, Forest.shownText_append, visibleSpelled_append,
      visibleSpelled_append, visible_shownText_ofNode pre n first,
      visible_shownText_ofNodes pre _ rest]

end

theorem visible_shownText_ofDocument (quote : Bool) (document : List Html.Node) :
    visibleSpelled (Forest.ofDocument quote document).shownText =
      visibleSpelled (Html.shownTexts document) := by
  unfold Forest.ofDocument
  cases quote with
  | true => simpa [Forest.shownText] using visible_shownText_ofNodes false 2 document
  | false => exact visible_shownText_ofNodes false 1 document

/-! From the forest to the blocks. -/

/-- Where nothing is hidden, the texts that are written are all texts of the forest. -/
theorem join_leavesOf_outlines {F : Forest} (hbreaks : F.AllKinds (· ≠ .lineBreak))
    (hseparators : F.SeparatorsChildless) (around : List LinePrefix) :
    String.join ((leavesOf (allInscriptions around F.outlines)).map Prod.snd) = F.wholeText := by
  unfold Forest.AllKinds at hbreaks
  unfold Forest.SeparatorsChildless at hseparators
  induction F generalizing around with
  | nil => rfl
  | text s rest ih =>
    have hrest := ih hbreaks hseparators around
    simpa [Forest.outlines, allInscriptions, inscriptions, leavesOf, Inscription.leaf?,
      Forest.wholeText] using hrest
  | node id k below rest ihb ihr =>
    have hbelow := ihb hbreaks.2.1 hseparators.2.1 (around ++ prefixesOf k)
    have hrest := ihr hbreaks.2.2 hseparators.2.2 around
    have hone : String.join ((leavesOf (inscriptions around (.node k below.outlines))).map
        Prod.snd) = below.wholeText := by
      cases hk : k.endsBlock with
      | false => rw [leavesOf_inscriptions hk, hbelow]
      | true =>
        have hsep : k = .separator := by
          simp only [Kind.endsBlock, Bool.or_eq_true, beq_iff_eq, Kind.eq_lineBreak_iff,
            Kind.eq_separator_iff] at hk
          exact hk.resolve_left hbreaks.1
        rw [leavesOf_inscriptions_of_endsBlock hk, hseparators.1 hsep]
        rfl
    rw [Forest.outlines, allInscriptions, leavesOf_append, List.map_append, String.join_append,
      hone, hrest, Forest.wholeText]

theorem leaves_sublist_texts (hrefs : List String) (ws : List Inscription) :
    (String.join ((leavesOf ws).map Prod.snd)).toList.Sublist
      (String.join (ws.map fun w => w.writing.text hrefs)).toList := by
  induction ws with
  | nil => exact List.Sublist.refl _
  | cons w rest ih =>
    obtain ⟨around, writing⟩ := w
    cases writing with
    | leaf contents =>
      simpa [leavesOf, Inscription.leaf?, Writing.text, String.toList_append] using ih
    | mark | reference =>
      simp only [leavesOf, Inscription.leaf?, List.map_cons,
        String.join_cons, String.toList_append]
      exact ih.trans (List.sublist_append_right _ _)

/-- The blocks hold all that has been written, in order. -/
theorem Layout.flatMap_text_of_shows {hrefs : List String} {lead : List Margin}
    {blocks : List Block} {written : List (List Inscription)}
    (h : List.Forall₂ (fun block ws => block.Shows hrefs lead ws) blocks written) :
    blocks.flatMap Block.text =
      (String.join (written.flatten.map fun w => w.writing.text hrefs)).toList := by
  induction h with
  | nil => rfl
  | @cons block ws _ _ hblock _ ih =>
    have htext : block.text = (String.join (ws.map fun w => w.writing.text hrefs)).toList := by
      rw [Block.text, hblock.contents_eq]
      by_cases hws : ws = []
      · simp [hws]
      · simp [hws]
    rw [List.flatMap_cons, htext, ih, List.flatten_cons, List.map_append, String.join_append,
      String.toList_append]

theorem Document.Forest.allListless {F : Forest}
    (hF : F.AllKinds fun k => k.name ≠ .orderedList) : Outline.AllListless F.outlines := by
  unfold AllKinds at hF
  induction F with
  | nil => trivial
  | text s rest ih => exact ⟨trivial, ih hF⟩
  | node id k below rest ihb ihr => exact ⟨⟨hF.1, fun _ => ihb hF.2.1⟩, ihr hF.2.2⟩

/-- For every document, what can be seen of its texts can be read in its Markdown from left to
right. -/
theorem markdownOfHtml_keeps_text (document : List Html.Node) (options : ConversionOptions) :
    ∃ markdown, markdownOfHtml document options = .ok markdown ∧
      (Text.visible (spellDashes (Html.shownTexts document)).toList).Sublist markdown.toList := by
  obtain ⟨F, hF, hdraft⟩ := exists_normalized document options
  have hlistless : (Outline.node .document F.outlines).Listless :=
    ⟨by simp [Kind.name], fun _ => Forest.allListless hF.noOrderedList⟩
  obtain ⟨draft, hlay, -, lead, written, hbears, hflat⟩ :=
    writes_outline _ hlistless {} [] [] ⟨[], [], .start, rfl⟩
  refine ⟨draft.finished, ?_, ?_⟩
  · rw [markdownOfHtml, hdraft, hlay]
    rfl
  · have hkept : visibleSpelled (Html.shownTexts document) = Text.visible F.wholeText.toList := by
      obtain ⟨n, hrewrites⟩ := hF.rewrites
      rw [← visible_shownText_ofDocument options.quote document, visibleSpelled,
        ← hrewrites.spellDashes_shownText, (Forest.noDash_shownText hF.noDash).spellDashes_eq,
        Forest.wholeText_eq_shownText hF.noLineBreak]
    have hleaves : leavesOf (inscriptions [] (.node .document F.outlines)) =
        leavesOf (allInscriptions [] F.outlines) := leavesOf_inscriptions rfl F.outlines
    have hwritten : F.wholeText.toList.Sublist (draft.blocks.flatMap Block.text) := by
      rw [flatMap_text_of_shows hbears.shows, hflat,
        ← join_leavesOf_outlines hF.noLineBreak hF.separators [], ← hleaves]
      exact leaves_sublist_texts draft.hrefs _
    have hfinish := draft.visible_sublist_finish
    rw [← visibleSpelled, hkept, Draft.finished, String.toList_ofList]
    exact (hwritten.filter _).trans hfinish

end HtmlMarkdown
