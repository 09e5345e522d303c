import HtmlMarkdown.Proofs.Conversion
import HtmlMarkdown.Proofs.Outlines

/-!
What a document says, read from the top down. The only thing handed down is whether a preformatted
element lies above, and the meaning of an element is looked up in a table. Conversion, which works
on a growing table of nodes and asks the nodes above for what lies around, makes the same of every
document.
-/
namespace HtmlMarkdown

open Document

namespace Html

/-- The elements that mean something whatever their attributes are, by their tags in upper
case. -/
def meanings : List (String × Kind) :=
  [("H1", .heading { value := 1 }), ("H2", .heading { value := 2 }),
    ("H3", .heading { value := 3 }), ("H4", .heading { value := 4 }),
    ("H5", .heading { value := 5 }), ("H6", .heading { value := 6 }),
    ("B", .bold), ("STRONG", .bold), ("I", .italic), ("EM", .italic),
    ("OL", .orderedList), ("LI", .listItem), ("PRE", .preformatted),
    ("P", .paragraph), ("DL", .paragraph), ("DT", .paragraph),
    ("BLOCKQUOTE", .blockquote false), ("TT", .code), ("CODE", .code), ("BR", .lineBreak)]

/-- What an element means. An `a` element is a link if its first target is not empty. -/
def meaning? (tag : String) (attributes : List Attribute) : Option Kind :=
  let upper := tag.map Char.toUpper
  if upper = "A" then ((attribute? attributes "href").filter (· ≠ "")).map .link
  else meanings.lookup upper

/-- What holds of each row of the table and of each link holds of all meanings. -/
theorem forall_meaning? {P : String → Kind → Prop} (hlink : ∀ href, P "A" (.link href))
    (hrows : ∀ row ∈ meanings, P row.1 row.2) {tag : String} {attributes : List Attribute}
    {k : Kind} (h : meaning? tag attributes = some k) : P (tag.map Char.toUpper) k := by
  unfold meaning? at h
  generalize tag.map Char.toUpper = upper at h ⊢
  by_cases hanchor : upper = "A"
  · rw [if_pos hanchor, Option.map_eq_some_iff] at h
    obtain ⟨href, -, rfl⟩ := h
    exact hanchor ▸ hlink href
  · rw [if_neg hanchor] at h
    obtain ⟨before, after, htable, -⟩ := List.lookup_eq_some_iff.1 h
    exact hrows (upper, k) (by simp [htable])

mutual

/-- What a node says, inside a preformatted element or not. -/
def Node.reading (pre : Bool) : Node → List Outline
  | .text contents => if contents = "\n" ∧ pre = false then [] else [.text contents]
  | .element _ tag attributes children =>
    match meaning? tag attributes with
    | some kind => [.node kind (readings (pre || kind = .preformatted) children)]
    | none => readings pre children
  | .comment _ | .doctype _ | .instruction _ _ | .document _ => []

def readings (pre : Bool) : List Node → List Outline
  | [] => []
  | first :: rest => first.reading pre ++ readings pre rest

end

/-- What a whole document says, in one block quote if `quote` is set. -/
def reading (quote : Bool) (document : List Node) : Outline :=
  .node .document (if quote then [.node (.blockquote true) (readings false document)]
    else readings false document)

end Html

namespace Document

theorem elementKind?_eq_meaning? (tag : String) (attributes : List Html.Attribute) :
    elementKind? tag attributes = Html.meaning? tag attributes := by
  simp only [elementKind?, kindOfElement, Html.meaning?]
  generalize tag.map Char.toUpper = upper
  split
  case h_13 =>
    rw [if_pos rfl]
    cases Html.attribute? attributes "href" with
    | none => rfl
    | some href => by_cases hempty : href = "" <;> simp [Except.toOption, hempty]
  case h_22 =>
    -- no row of the table has this tag
    have hnone : Html.meanings.lookup upper = none := by
      rw [List.lookup_eq_none_iff]
      simp only [Html.meanings, List.forall_mem_cons, bne_iff_ne, List.not_mem_nil,
        false_implies, implies_true, and_true]
      and_intros <;> assumption
    rw [hnone, if_neg (by assumption)]
    rfl
  all_goals rfl

/-- No element means a quote that accepts reference lines. -/
theorem elementKind?_ne_acceptingQuote {tag : String} {attributes : List Html.Attribute} {k : Kind}
    (h : elementKind? tag attributes = some k) : k ≠ .blockquote true := by
  rw [elementKind?_eq_meaning?] at h
  exact Html.forall_meaning? (P := fun _ k => k ≠ .blockquote true) (by simp) (by decide) h

namespace Forest

@[simp] theorem outlines_append (F G : Forest) : (F ++ G).outlines = F.outlines ++ G.outlines := by
  induction F with
  | nil => rfl
  | text s rest ih => rw [text_append, outlines, outlines, ih, List.cons_append]
  | node id k below rest _ ih => rw [node_append, outlines, outlines, ih, List.cons_append]

mutual

theorem outlines_ofNode (pre : Bool) (n : NodeId) :
    ∀ x : Html.Node, (ofNode pre n x).outlines = x.reading pre
  | .text contents => by
    rw [ofNode, Html.Node.reading]
    by_cases hskip : contents = "\n" ∧ pre = false
    · rw [if_pos hskip, if_neg (by simp [hskip])]
      rfl
    · rw [if_neg hskip, if_pos (by simpa [Decidable.imp_iff_not_or] using hskip)]
      rfl
  | .element _ tag attributes children => by
    rw [ofNode, Html.Node.reading, elementKind?_eq_meaning?]
    cases Html.meaning? tag attributes with
    | none => exact outlines_ofNodes pre n children
    | some kind =>
      have hpre : (kind.name == .preformatted) = decide (kind = .preformatted) := by
        cases kind <;> rfl
      simp only [outlines, outlines_ofNodes, hpre]
  | .comment _ | .doctype _ | .instruction _ _ | .document _ => by
    rw [ofNode, Html.Node.reading, outlines]

theorem outlines_ofNodes (pre : Bool) (n : NodeId) :
    ∀ xs : List Html.Node, (ofNodes pre n xs).outlines = Html.readings pre xs
  | [] => rfl
  | first :: rest => by
    rw [ofNodes, Html.readings, outlines_append, outlines_ofNode pre n first,
      outlines_ofNodes pre _ rest]

end

theorem outlines_ofDocument (quote : Bool) (document : List Html.Node) :
    Outline.node .document (ofDocument quote document).outlines = Html.reading quote document := by
  rw [ofDocument, Html.reading]
  cases quote with
  | false => rw [if_neg Bool.false_ne_true, if_neg Bool.false_ne_true, outlines_ofNodes]
  | true => rw [if_pos rfl, if_pos rfl, outlines, outlines_ofNodes, outlines]

end Forest

/-- The tree of every document is what the document says: each node of what is read stands in the
table once, below the root, with its texts and nodes in order. -/
theorem Tree.rawOfHtml_reads (document : List Html.Node) (options : ConversionOptions) :
    ∃ t F, rawOfHtml document options = .ok t ∧ t.Spans F ∧
      .node .document F.outlines = Html.reading options.quote document ∧
      t.outline root = Html.reading options.quote document := by
  obtain ⟨t, hraw, hspans⟩ := rawOfHtml_spans document options
  have hreading := Forest.outlines_ofDocument options.quote document
  exact ⟨t, _, hraw, hspans, hreading, by rw [hspans.outline_eq, hreading]⟩

end Document
end HtmlMarkdown
