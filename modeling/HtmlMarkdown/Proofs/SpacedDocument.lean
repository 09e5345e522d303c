import HtmlMarkdown.Proofs.Reading
import HtmlMarkdown.Proofs.Spaced
import HtmlMarkdown.Proofs.Stages

/-!
White space between block-level elements. Two documents are compared, the second of which has one
more text, somewhere between two block-level elements. What they become is alike but for that text,
and it is only there if conversion reads it at all.
-/
namespace HtmlMarkdown

open Document Layout

namespace Html

/-- The tags of headings, in upper case. -/
def headingTags : List String := ["H1", "H2", "H3", "H4", "H5", "H6"]

/-- The tags of block-level elements, in upper case. -/
def blockTags : List String := headingTags ++ ["P", "LI", "BLOCKQUOTE", "PRE"]

def Node.IsBlock : Node → Prop
  | .element _ tag _ _ => tag.map Char.toUpper ∈ blockTags
  | _ => False

/-- Comments and the like stand between elements without keeping them apart. -/
def Node.IsRemark : Node → Prop
  | .comment _ | .doctype _ | .instruction _ _ => True
  | _ => False

/-- The second document is the first with one more text `w`, between two block-level elements that
no other element and no text keeps apart. The names are those of the nodes around it, from the
outside in. -/
inductive SpacedOut (w : String) : List String → List Node → List Node → Prop
  | here (before : List Node) {a : Node} (remarks remarks' : List Node) {b : Node}
      (after : List Node) (ha : a.IsBlock) (hb : b.IsBlock) (h : ∀ x ∈ remarks, x.IsRemark)
      (h' : ∀ x ∈ remarks', x.IsRemark) :
      SpacedOut w [] (before ++ a :: (remarks ++ (remarks' ++ b :: after)))
        (before ++ a :: (remarks ++ .text w :: (remarks' ++ b :: after)))
  | inElement {around : List String} {children children' : List Node} (before : List Node)
      (space : Namespace) (tag : String) (attributes : List Attribute) (after : List Node)
      (h : SpacedOut w around children children') :
      SpacedOut w (tag.map Char.toUpper :: around)
        (before ++ .element space tag attributes children :: after)
        (before ++ .element space tag attributes children' :: after)
  | inDocument {around : List String} {children children' : List Node} (before after : List Node)
      (h : SpacedOut w around children children') :
      SpacedOut w ("#document" :: around) (before ++ .document children :: after)
        (before ++ .document children' :: after)

/-- A text that conversion never reads: it is a lone newline, or it is in a `br` element or in a
document inside the document. -/
def Unread (w : String) (around : List String) : Prop :=
  w = "\n" ∨ "BR" ∈ around ∨ "#document" ∈ around

instance (w : String) (around : List String) : Decidable (Unread w around) :=
  inferInstanceAs (Decidable (_ ∨ _ ∨ _))

/-- What an element puts in front of the lines of its contents. -/
def rimOfTag? (upper : String) : Option Rim :=
  if upper ∈ headingTags then some .once
  else if upper ∈ ["LI", "BLOCKQUOTE", "PRE"] then some .always
  else none

theorem meaning?_rims {tag : String} {attributes : List Attribute} {k : Kind}
    (h : meaning? tag attributes = some k) : k.rims = (rimOfTag? (tag.map Char.toUpper)).toList :=
  forall_meaning? (P := fun upper k => k.rims = (rimOfTag? upper).toList) (fun _ => rfl)
    (by decide) h

theorem eq_of_meaning?_preformatted {tag : String} {attributes : List Attribute} {k : Kind}
    (h : meaning? tag attributes = some k) (hk : k.name = .preformatted) :
    tag.map Char.toUpper = "PRE" :=
  forall_meaning? (P := fun upper k => k.name = .preformatted → upper = "PRE")
    (by simp [Kind.name]) (by decide) h hk

theorem rimOfTag?_of_meaning?_eq_none {tag : String} {attributes : List Attribute}
    (h : meaning? tag attributes = none) : rimOfTag? (tag.map Char.toUpper) = none := by
  unfold meaning? at h
  generalize tag.map Char.toUpper = upper at h ⊢
  by_cases hlink : upper = "A"
  · subst hlink
    rfl
  · rw [if_neg hlink, List.lookup_eq_none_iff] at h
    have hrow : ∀ {tag : String}, tag ∈ meanings.map Prod.fst → upper ≠ tag := by
      intro tag htag
      obtain ⟨row, hmem, rfl⟩ := List.mem_map.1 htag
      simpa using h row hmem
    have hnot : ∀ tags ⊆ meanings.map Prod.fst, upper ∉ tags := fun tags hsub hmem =>
      hrow (hsub hmem) rfl
    rw [rimOfTag?, if_neg (hnot _ (by decide)), if_neg (hnot _ (by decide))]

theorem meaning?_of_mem_blockTags {tag : String} (h : tag.map Char.toUpper ∈ blockTags)
    (attributes : List Attribute) : ∃ k, meaning? tag attributes = some k ∧ k.opensBlock := by
  unfold meaning?
  generalize tag.map Char.toUpper = upper at h ⊢
  have hall : ∀ upper ∈ blockTags, upper ≠ "A" ∧
      ((meanings.lookup upper).any Kind.opensBlock) = true := by decide
  obtain ⟨hlink, hmeans⟩ := hall upper h
  rw [if_neg hlink]
  exact Option.any_eq_true _ _ |>.1 hmeans

/-- No tag in upper case is the name of a document. -/
theorem map_toUpper_ne_document (tag : String) : tag.map Char.toUpper ≠ "#document" := by
  have hlower : ∀ c : Char, c.toUpper ≠ 'd' := by
    intro c hc
    unfold Char.toUpper at hc
    split at hc
    · rename_i h
      have hval := congrArg Char.val hc
      simp only [Char.reduceVal] at hval h
      have hc : c.val = 100 - (65 - 97) := by rw [← hval, UInt32.add_sub_cancel]
      rw [hc] at h
      exact absurd h.2 (by decide)
    · rename_i h
      rw [hc] at h
      exact h (by decide)
  intro h
  have hmem : 'd' ∈ (tag.map Char.toUpper).toList := by rw [h]; decide
  rw [String.toList_map] at hmem
  obtain ⟨c, -, hc⟩ := List.mem_map.1 hmem
  exact hlower c hc

/-- What stands in front of the lines at the place of the new text. -/
def rimsAround (around : List String) (quote : Bool) : List Rim :=
  (if quote then [.always] else []) ++ around.filterMap rimOfTag?

theorem rimOfTag?_eq_none_iff (tag : String) :
    rimOfTag? tag = none ↔ tag ∉ headingTags ∧ tag ∉ ["LI", "BLOCKQUOTE", "PRE"] := by
  unfold rimOfTag?
  by_cases hheading : tag ∈ headingTags
  · simp [hheading]
  · by_cases hrest : tag ∈ ["LI", "BLOCKQUOTE", "PRE"] <;> simp [hheading, hrest]

theorem rimsAround_eq_nil_iff {around : List String} (hpre : "PRE" ∉ around)
    (hheadings : ∀ tag ∈ headingTags, tag ∉ around) (quote : Bool) :
    rimsAround around quote = [] ↔ quote = false ∧ "LI" ∉ around ∧ "BLOCKQUOTE" ∉ around := by
  have hquote : (if quote then [Rim.always] else []) = [] ↔ quote = false := by
    cases quote <;> simp
  rw [rimsAround, List.append_eq_nil_iff, hquote, List.filterMap_eq_nil_iff]
  refine and_congr_right fun _ => ⟨fun h => ?_, fun h tag htag => ?_⟩
  · refine ⟨fun hmem => ?_, fun hmem => ?_⟩
    · exact absurd (h _ hmem) (by decide)
    · exact absurd (h _ hmem) (by decide)
  · rw [rimOfTag?_eq_none_iff]
    refine ⟨fun hheading => hheadings tag hheading htag, fun hmem => ?_⟩
    simp only [List.mem_cons, List.not_mem_nil, or_false] at hmem
    rcases hmem with rfl | rfl | rfl
    · exact h.1 htag
    · exact h.2 htag
    · exact hpre htag

theorem once_notMem_rimsAround {around : List String}
    (hheadings : ∀ tag ∈ headingTags, tag ∉ around) (quote : Bool) :
    .once ∉ rimsAround around quote := by
  intro hmem
  rcases List.mem_append.1 hmem with hmem | hmem
  · cases quote <;> simp at hmem
  · obtain ⟨tag, htag, honce⟩ := List.mem_filterMap.1 hmem
    unfold rimOfTag? at honce
    split at honce
    · exact hheadings tag ‹_› htag
    · split at honce <;> simp at honce

/-- Where the new text stands in what the document becomes. -/
def placesOf (w : String) (around : List String) : List (List Rim) :=
  if Unread w around then [] else [around.filterMap rimOfTag?]

theorem placesOf_of_unread {w : String} {around : List String} (h : Unread w around) :
    placesOf w around = [] := if_pos h

theorem placesOf_cons {w tag : String} {around : List String} (hbreak : tag ≠ "BR")
    (hdocument : tag ≠ "#document") :
    placesOf w (tag :: around) = (placesOf w around).map ((rimOfTag? tag).toList ++ ·) := by
  have hunread : Unread w (tag :: around) ↔ Unread w around := by
    simp [Unread, Ne.symm hbreak, Ne.symm hdocument]
  unfold placesOf
  by_cases h : Unread w around
  · rw [if_pos h, if_pos (hunread.2 h), List.map_nil]
  · rw [if_neg h, if_neg (mt hunread.1 h), List.filterMap_cons]
    cases rimOfTag? tag <;> rfl

end Html

namespace Document.Forest

open Html

variable {w : String} {places : List (List Rim)}

theorem exists_of_isBlock {a : Html.Node} (ha : a.IsBlock) :
    ∃ k pre children, k.opensBlock ∧
      ∀ n, ofNode false n a = node n k (ofNodes pre (n + 1) children) nil := by
  cases a with
  | element _ tag attributes children =>
    obtain ⟨k, hk, hopens⟩ := meaning?_of_mem_blockTags ha attributes
    exact ⟨k, _, children, hopens, fun n => by rw [ofNode, elementKind?_eq_meaning?, hk]⟩
  | text | comment | doctype | instruction | document => exact ha.elim

theorem ofNodes_remarks {remarks : List Html.Node} (h : ∀ x ∈ remarks, x.IsRemark) (pre : Bool)
    (n : NodeId) (rest : List Html.Node) :
    ofNodes pre n (remarks ++ rest) = ofNodes pre n rest := by
  induction remarks with
  | nil => rfl
  | cons x remarks ih =>
    rw [List.forall_mem_cons] at h
    have hx : ofNode pre n x = nil := by
      cases x with
      | comment | doctype | instruction => rw [ofNode]
      | text | element | document => exact h.1.elim
    rw [List.cons_append, ofNodes, hx, nil_append]
    exact ih h.2

theorem ofNodes_text_cons (w : String) (n : NodeId) (rest : List Html.Node) :
    ofNodes false n (.text w :: rest) =
      if w = "\n" then ofNodes false n rest else text w (ofNodes false n rest) := by
  rw [ofNodes, ofNode]
  by_cases hw : w = "\n"
  · rw [if_neg (by simp [hw]), if_pos hw]
    rfl
  · rw [if_pos (by simp [hw]), if_neg hw]
    rfl

namespace Spaced

/-- The same nodes become the same, whatever numbers they get. -/
theorem ofNodes_self (pre : Bool) (n m : NodeId) (xs : List Html.Node) :
    Spaced w [] (ofNodes pre n xs) (ofNodes pre m xs) :=
  of_outlines_eq (by rw [outlines_ofNodes, outlines_ofNodes])

theorem ofNodes_behind {pre : Bool} {xs ys : List Html.Node} (before : List Html.Node)
    (h : ∀ n m, Spaced w places (ofNodes pre n xs) (ofNodes pre m ys)) (n m : NodeId) :
    Spaced w places (ofNodes pre n (before ++ xs)) (ofNodes pre m (before ++ ys)) := by
  induction before generalizing n m with
  | nil => exact h n m
  | cons first before ih =>
    have hfirst : Spaced w [] (ofNode pre n first) (ofNode pre m first) :=
      of_outlines_eq (by rw [outlines_ofNode, outlines_ofNode])
    rw [List.cons_append, List.cons_append, ofNodes, ofNodes]
    exact hfirst.append (ih _ _)

theorem ofNodes_cons {pre : Bool} {x y : Html.Node} (after : List Html.Node)
    (h : ∀ n m, Spaced w places (ofNode pre n x) (ofNode pre m y)) (n m : NodeId) :
    Spaced w places (ofNodes pre n (x :: after)) (ofNodes pre m (y :: after)) := by
  have hall := (h n m).append (ofNodes_self pre (n + (ofNode pre n x).ids.length)
    (m + (ofNode pre m y).ids.length) after)
  rw [List.append_nil] at hall
  rw [ofNodes, ofNodes]
  exact hall

/-- One more text between block-level elements is one more text in what they become, unless it is
not read. -/
theorem of_spacedOut {around : List String} {document document' : List Html.Node}
    (h : SpacedOut w around document document') (hpre : "PRE" ∉ around) (n m : NodeId) :
    Spaced w (placesOf w around) (ofNodes false n document) (ofNodes false m document') := by
  induction h generalizing n m with
  | @here before a remarks remarks' b after ha hb hremarks hremarks' =>
    refine ofNodes_behind before (fun n m => ?_) n m
    obtain ⟨k, pre, children, hk, hnode⟩ := exists_of_isBlock ha
    obtain ⟨k', pre', children', hk', hnode'⟩ := exists_of_isBlock hb
    rw [ofNodes, ofNodes, hnode n, hnode m, ofNodes_remarks hremarks, ofNodes_remarks hremarks',
      ofNodes_remarks hremarks, ofNodes_text_cons, ofNodes_remarks hremarks']
    generalize n + List.length _ = n'
    generalize m + List.length _ = m'
    have hbelow : Spaced w [] (ofNodes pre (n + 1) children) (ofNodes pre (m + 1) children) :=
      ofNodes_self pre _ _ children
    have hafter : Spaced w [] (ofNodes false n' (b :: after)) (ofNodes false m' (b :: after)) :=
      ofNodes_self false _ _ (b :: after)
    by_cases hw : w = "\n"
    · rw [placesOf_of_unread (Or.inl hw), if_pos hw]
      exact .node n m k (Kind.name_ne_of_opensBlock hk).2.2 (fun _ => rfl) hbelow hafter
    · have hplaces : placesOf w [] = [[]] := if_neg (by simp [Unread, hw])
      rw [hplaces, if_neg hw]
      refine .gap n m k hk (fun _ => rfl) hbelow hafter ?_
      rw [ofNodes, hnode']
      exact hk'
  | @inElement around children children' before space tag attributes after _ ih =>
    rw [List.mem_cons, not_or] at hpre
    refine ofNodes_behind before (ofNodes_cons after fun n m => ?_) n m
    have hbelow := ih hpre.2
    have hlineBreak := elementKind?_eq_lineBreak_iff tag attributes
    rw [ofNode, ofNode]
    rw [elementKind?_eq_meaning?] at hlineBreak ⊢
    cases hkind : meaning? tag attributes with
    | none =>
      have hbreak : tag.map Char.toUpper ≠ "BR" := fun htag => by simp [hlineBreak.2 htag] at hkind
      rw [placesOf_cons hbreak (map_toUpper_ne_document tag), rimOfTag?_of_meaning?_eq_none hkind]
      simpa using hbelow n m
    | some k =>
      by_cases hk : k = .lineBreak
      · have hbreak : tag.map Char.toUpper = "BR" := hlineBreak.1 (by rw [hkind, hk])
        rw [placesOf_of_unread (by simp [Unread, hbreak]), hk]
        exact .lineBreak n m _ _ .nil
      · have hbreak : tag.map Char.toUpper ≠ "BR" := fun htag =>
          hk (by simpa [hkind] using hlineBreak.2 htag)
        have hname : k.name ≠ .preformatted := fun hname =>
          hpre.1 (eq_of_meaning?_preformatted hkind hname).symm
        have hpre' : (false || k.name == .preformatted) = false := by simpa using hname
        rw [placesOf_cons hbreak (map_toUpper_ne_document tag), ← meaning?_rims hkind,
          ← List.append_nil (List.map _ _)]
        refine .node n m k hk (fun hk => absurd (by rw [hk, Kind.name]) hname) ?_ .nil
        rw [hpre']
        exact hbelow _ _
  | inDocument before after _ _ =>
    refine ofNodes_behind before (ofNodes_cons after fun n m => ?_) n m
    rw [placesOf_of_unread (by simp [Unread]), ofNode, ofNode]
    exact .nil

theorem of_spacedOut_ofDocument {around : List String} {document document' : List Html.Node}
    (h : SpacedOut w around document document') (hpre : "PRE" ∉ around) (quote : Bool) :
    Spaced w ((placesOf w around).map ((if quote then [.always] else []) ++ ·))
      (ofDocument quote document) (ofDocument quote document') := by
  unfold ofDocument
  cases quote with
  | false => simpa using of_spacedOut h hpre 1 1
  | true =>
    have hquote := Spaced.node 1 1 (.blockquote true) (by simp) (by simp) (of_spacedOut h hpre 2 2)
      .nil
    rw [List.append_nil] at hquote
    exact hquote

theorem document_iff {i j : NodeId} {F G : Forest} :
    Spaced w places (Forest.node i .document F .nil) (Forest.node j .document G .nil) ↔
      Spaced w places F G := by
  have hrims : (Kind.document.rims ++ ·) = (id : List Rim → List Rim) := rfl
  constructor
  · rintro (_ | _ | _ | ⟨_, _, _, _, _, hbelow, hrest⟩)
    rw [hrest.places_eq_nil, hrims, List.map_id, List.append_nil]
    exact hbelow
  · intro h
    have hnode := Spaced.node i j .document (by simp) (by simp) h .nil
    rwa [hrims, List.map_id, List.append_nil] at hnode

end Spaced

/-- What the passes make of both documents is alike as well. -/
theorem Normalized.spaced {around : List String} {document document' : List Html.Node}
    {options : ConversionOptions} {F G : Forest} (hF : Normalized document options F)
    (hG : Normalized document' options G) (hw : NoDash w)
    (h : SpacedOut w around document document') (hpre : "PRE" ∉ around) :
    Spaced w ((placesOf w around).map ((if options.quote then [.always] else []) ++ ·)) F G := by
  obtain ⟨n, hstepsF⟩ := hF.steps
  obtain ⟨m, hstepsG⟩ := hG.steps
  have hraw := Spaced.of_spacedOut_ofDocument h hpre options.quote
  have hkeeps := keepsSpaced_steps hw n m !options.links
  exact Spaced.document_iff.1 ((Spaced.document_iff.2 hraw).visitedAll hkeeps hstepsF hstepsG)

end Document.Forest
end HtmlMarkdown
