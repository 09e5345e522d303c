import HtmlMarkdown.Proofs.Condensed
import HtmlMarkdown.Proofs.Links

/-!
Dropping links is the same as never having had them. With links dropped, the first passes leave a
forest that differs from the one without links in what condensing forgets. The other passes read
nothing but the condensed forest, and in normal form a forest without links is laid out as its
condensed form is.
-/
namespace HtmlMarkdown

open Document

namespace Document.Forest

variable {F G G' : Forest} {Step : Kind → Forest → Forest → Prop}

/-! Walks over condensed forests. -/

theorem Visited.condensed_eq (hstep : ∀ k D D', Step k D D' → D'.condensed = D.condensed)
    (h : Visited Step F G) : G.condensed = F.condensed := by
  induction h with
  | nil => rfl
  | text s _ ih => rw [condensed_text, ih, condensed_text]
  | node id k hs _ _ ihb ihr => simp only [condensed, ihr, ihb, hstep k _ _ hs]

/-- On forests without links the step does what `f` does to the condensed forest. -/
def Reads (Step : Kind → Forest → Forest → Prop) (f : Kind → Forest → Forest) : Prop :=
  ∀ k D D', D.Linkless → Step k D D' → D'.Linkless ∧ D'.condensed = (f k D.condensed).condensed

/-- The step that `f` takes between condensed forests. -/
def CondensedStep (f : Kind → Forest → Forest) (k : Kind) (D D' : Forest) : Prop :=
  D' = (f k D).condensed

theorem Visited.glue (s : String) (h : Visited Step F G) :
    Visited Step (glue s F) (glue s G) := by
  cases h with
  | nil => exact .text s .nil
  | text u h => exact .text (s ++ u) h
  | node id k hs hbelow hrest => exact .text s (.node id k hs hbelow hrest)

/-- A walk over a forest without links is one over the condensed forest. -/
theorem Visited.condensed {f : Kind → Forest → Forest} (hreads : Reads Step f)
    (h : Visited Step F G) (hF : F.Linkless) :
    G.Linkless ∧ Visited (CondensedStep f) F.condensed G.condensed := by
  unfold Linkless AllKinds at hF ⊢
  induction h with
  | nil => exact ⟨trivial, .nil⟩
  | text s _ ih =>
    obtain ⟨hG, hvisit⟩ := ih hF
    exact ⟨hG, hvisit.glue (spellDashes s)⟩
  | node id k hs _ _ ihb ihr =>
    obtain ⟨hmid, hcondensed⟩ := hreads k _ _ hF.2.1 hs
    obtain ⟨hbelow, hvisit⟩ := ihb hmid
    obtain ⟨hrest, hvisit'⟩ := ihr hF.2.2
    rw [condensed_node hF.1, condensed_node hF.1]
    exact ⟨⟨hF.1, hbelow, hrest⟩, .node 0 k hcondensed hvisit hvisit'⟩

theorem Visited.eq_of_condensedStep {f : Kind → Forest → Forest}
    (h : Visited (CondensedStep f) F G) (h' : Visited (CondensedStep f) F G') : G = G' := by
  induction h generalizing G' with
  | nil =>
    cases h'
    rfl
  | text s _ ih =>
    cases h' with
    | text _ h' => rw [ih h']
  | node id k hs _ _ ihb ihr =>
    cases h' with
    | node _ _ hs' hbelow hrest =>
      -- both steps have the same outcome, so the walks go on from the same list
      cases hs.trans hs'.symm
      rw [ihb hbelow, ihr hrest]

/-- Two runs of steps that read the condensed forest alike, from forests that are condensed to
the same, end so. -/
theorem VisitedAll.condensed_eq {Steps Steps' : List (Kind → Forest → Forest → Prop)}
    (hsteps : List.Forall₂ (fun S S' => ∃ f, Reads S f ∧ Reads S' f) Steps Steps') {F' : Forest}
    (hF : F.Linkless) (hF' : F'.Linkless) (heq : F.condensed = F'.condensed)
    (h : VisitedAll Steps F G) (h' : VisitedAll Steps' F' G') : G.condensed = G'.condensed := by
  induction hsteps generalizing F F' with
  | nil =>
    cases h
    cases h'
    exact heq
  | cons hread _ ih =>
    obtain ⟨f, hreads, hreads'⟩ := hread
    cases h with
    | cons hvisit hrest =>
      cases h' with
      | cons hvisit' hrest' =>
        obtain ⟨hlinkless, hrun⟩ := hvisit.condensed hreads hF
        obtain ⟨hlinkless', hrun'⟩ := hvisit'.condensed hreads' hF'
        rw [← heq] at hrun'
        exact ih hlinkless hlinkless' (hrun.eq_of_condensedStep hrun') hrest hrest'

/-! The steps of the passes. -/

theorem Rewrites.linkless {n : NodeId} (h : Rewrites n F G) (hF : F.Linkless) : G.Linkless :=
  h.allKinds (by simp [Kind.name]) (by simp [Kind.name]) hF

theorem reads_of_rewrites {f : Kind → Forest → Forest}
    (hrewrites : ∀ k D D', Step k D D' → Rewrites 0 D D')
    (h : ∀ k D D', D.Linkless → Step k D D' → D'.condensed = (f k D.condensed).condensed) :
    Reads Step f := fun k D D' hD hstep =>
  ⟨(hrewrites k D D' hstep).linkless hD, h k D D' hD hstep⟩

/-- The steps behind those that have to do with links. -/
def laterSteps (n : NodeId) : List (Kind → Forest → Forest → Prop) :=
  [CollapsesCode, NumbersLists, PairsBreaks n, Joins]

theorem laterSteps_read (n m : NodeId) :
    List.Forall₂ (fun S S' => ∃ f, Reads S f ∧ Reads S' f) (laterSteps n) (laterSteps m) := by
  have hcode : Reads CollapsesCode collapseCode := by
    refine reads_of_rewrites (fun k D D' h => h ▸ rewrites_collapseCode k D) ?_
    rintro k D _ hD rfl
    exact condensed_collapseCode k hD
  have hlists : Reads NumbersLists fun _ => unlisted none := by
    refine reads_of_rewrites (fun k D D' => NumbersLists.rewrites) fun k D D' hD h => ?_
    rw [Dissolved.eq_unlisted h, condensed_unlisted none hD]
  have hbreaks : ∀ n, Reads (PairsBreaks n) fun _ => pairBreaks 0 := by
    intro n
    refine reads_of_rewrites ?_ ?_
    · rintro k D _ ⟨fresh, -, rfl⟩
      exact rewrites_pairBreaks (Nat.zero_le fresh) D
    · rintro k D _ hD ⟨fresh, -, rfl⟩
      exact condensed_pairBreaks fresh 0 hD
  have hjoins : Reads Joins fun _ D => D := by
    refine reads_of_rewrites (fun k D D' h => h ▸ rewrites_joinTexts D) ?_
    rintro k D _ - rfl
    rw [condensed_joinTexts, condensed_condensed]
  exact .cons ⟨_, hcode, hcode⟩ (.cons ⟨_, hlists, hlists⟩ (.cons ⟨_, hbreaks n, hbreaks m⟩
    (.cons ⟨_, hjoins, hjoins⟩ .nil)))

/-- The first steps leave the condensed forest as it is. -/
theorem VisitedAll.condensed_eq_of_first (h : VisitedAll [Joins, Spells, DropsLinks] F G) :
    G.condensed = F.condensed := by
  cases h with
  | cons hjoins h =>
    cases h with
    | cons hspells h =>
      cases h with
      | cons hdrops h =>
        cases h
        rw [hdrops.condensed_eq, hspells.condensed_eq, hjoins.condensed_eq]
        · rintro k D _ rfl
          exact condensed_joinTexts D
        · rintro k D _ rfl
          exact condensed_spellTexts D
        · rintro k D _ rfl
          exact condensed_dropEmptyLinks D

/-- Behind the steps for links there is a forest without links, if they are to be dropped or there
has been none. -/
theorem VisitedAll.exists_linkless {n : NodeId} {w : Bool} (h : VisitedAll (steps n w) F G)
    (htop : ∀ k ∈ F.topKinds, k.name ≠ .link) (hlinks : w = false → F.Linkless) :
    ∃ F₁, F₁.Linkless ∧ F₁.condensed = F.condensed ∧ VisitedAll (laterSteps n) F₁ G := by
  cases w with
  | false =>
    have hsteps : VisitedAll ([Joins, Spells, DropsLinks] ++ laterSteps n) F G := h
    obtain ⟨F₁, hfirst, hlater⟩ := hsteps.exists_append
    have hmem : ∀ S ∈ [Joins, Spells, DropsLinks], S ∈ steps n false := fun S hS =>
      List.mem_append_left (laterSteps n) hS
    have hrewrites : Rewrites n F F₁ := hfirst.rewrites fun S hS _ _ _ =>
      rewrites_of_mem_steps (hmem S hS)
    exact ⟨F₁, hrewrites.linkless (hlinks rfl), hfirst.condensed_eq_of_first, hlater⟩
  | true =>
    have hsteps : VisitedAll ([Joins, Spells, DropsLinks] ++ DissolvesLinks :: laterSteps n) F G :=
      h
    obtain ⟨F₁, F₂, hfirst, hdissolves, hlater⟩ := hsteps.split
    refine ⟨F₂, allKinds_iff.2 ⟨?_, ?_⟩, ?_, hlater⟩
    · rwa [hdissolves.topKinds_eq, hfirst.topKinds_eq]
    · refine hdissolves.everywhere (fun k D D' hs => Dissolved.name_ne hs) ?_
      exact fun k D D' _ hk hD => by rwa [hk]
    · rw [hdissolves.condensed_eq fun k D D' hs => Dissolved.condensed_eq hs,
        hfirst.condensed_eq_of_first]

end Document.Forest

/-! Documents. -/

namespace Html

mutual

/-- The node with another tag in place of that of every `a` element. -/
def Node.retagAnchors (tag' : String) : Node → Node
  | .element space tag attributes children =>
    .element space (if tag.map Char.toUpper = "A" then tag' else tag) attributes
      (retagAnchors tag' children)
  | .document children => .document (retagAnchors tag' children)
  | .text contents => .text contents
  | .comment contents => .comment contents
  | .doctype name => .doctype name
  | .instruction target data => .instruction target data

def retagAnchors (tag' : String) : List Node → List Node
  | [] => []
  | first :: rest => first.retagAnchors tag' :: retagAnchors tag' rest

end

mutual

theorem Node.targets_retagAnchors {tag' : String} (htag : tag'.map Char.toUpper ≠ "A") :
    ∀ x : Node, (x.retagAnchors tag').targets = []
  | .element space tag attributes children => by
    have hne : (if tag.map Char.toUpper = "A" then tag' else tag).map Char.toUpper ≠ "A" := by
      split <;> assumption
    rw [Node.retagAnchors, Node.targets, if_neg hne, targets_retagAnchors htag children,
      List.nil_append]
  | .document _ | .text _ | .comment _ | .doctype _ | .instruction _ _ => by
    rw [Node.retagAnchors, Node.targets]

theorem targets_retagAnchors {tag' : String} (htag : tag'.map Char.toUpper ≠ "A") :
    ∀ xs : List Node, targets (retagAnchors tag' xs) = []
  | [] => rfl
  | first :: rest => by
    rw [retagAnchors, targets, first.targets_retagAnchors htag, targets_retagAnchors htag rest,
      List.nil_append]

end

end Html

namespace Document

/-- Elements with the tag have no meaning in Markdown. -/
def Meaningless (tag : String) : Prop := ∀ attributes, kindOfElement tag attributes = .ok none

theorem Meaningless.elementKind?_eq {tag : String} (h : Meaningless tag)
    (attributes : List Html.Attribute) : elementKind? tag attributes = none := by
  rw [elementKind?, h attributes]
  rfl

theorem Meaningless.ne_anchor {tag : String} (h : Meaningless tag) :
    tag.map Char.toUpper ≠ "A" := by
  intro hanchor
  have hlink : elementKind? tag [⟨"href", "a", .plain⟩] = some (.link "a") := by
    rw [elementKind?_eq_link_iff]
    exact ⟨hanchor, rfl, by decide⟩
  simp [h.elementKind?_eq] at hlink

namespace Forest

theorem LinksTo.linkless {F : Forest} (h : F.LinksTo []) : F.Linkless := by
  refine Everywhere.mono (fun k _ hk hname => ?_) h
  cases k with
  | link href => exact absurd (hk href rfl) List.not_mem_nil
  | _ => simp [Kind.name] at hname

mutual

/-- In the condensed forest an `a` element leaves no more than an element without a meaning. -/
theorem condensed_ofNode {tag' : String} (htag : Meaningless tag') (pre : Bool) (n n' : NodeId) :
    ∀ x : Html.Node, (ofNode pre n x).condensed = (ofNode pre n' (x.retagAnchors tag')).condensed
  | .element space tag attributes children => by
    have hbelow := fun pre n n' => condensed_ofNodes htag pre n n' children
    rw [Html.Node.retagAnchors, ofNode, ofNode]
    by_cases hanchor : tag.map Char.toUpper = "A"
    · rw [if_pos hanchor, htag.elementKind?_eq]
      cases hkind : elementKind? tag attributes with
      | none => exact hbelow pre n n'
      | some kind =>
        have hlink := elementKind?_of_anchor hanchor hkind
        -- a link does not change whether lone newlines below it are kept
        have hpre : (pre || kind.name == .preformatted) = pre := by simp [hlink]
        simp only [condensed_link hlink, hpre]
        rw [← condensed_append, append_nil]
        exact hbelow pre (n + 1) n'
    · rw [if_neg hanchor]
      cases elementKind? tag attributes with
      | none => exact hbelow pre n n'
      | some kind => simp only [condensed, hbelow _ (n + 1) (n' + 1)]
  | .text contents => by
    rw [Html.Node.retagAnchors, ofNode, ofNode]
  | .comment _ | .doctype _ | .instruction _ _ | .document _ => by
    rw [Html.Node.retagAnchors, ofNode, ofNode]

theorem condensed_ofNodes {tag' : String} (htag : Meaningless tag') (pre : Bool) (n n' : NodeId) :
    ∀ xs : List Html.Node,
      (ofNodes pre n xs).condensed = (ofNodes pre n' (Html.retagAnchors tag' xs)).condensed
  | [] => rfl
  | first :: rest => by
    rw [Html.retagAnchors, ofNodes, ofNodes, condensed_append, condensed_append,
      condensed_ofNode htag pre n n' first, condensed_ofNodes htag pre _ _ rest]

end

theorem condensed_ofDocument {tag' : String} (htag : Meaningless tag') (quote : Bool)
    (document : List Html.Node) : (ofDocument quote document).condensed =
      (ofDocument quote (Html.retagAnchors tag' document)).condensed := by
  unfold ofDocument
  cases quote with
  | true => simp only [condensed, if_true, condensed_ofNodes htag false 2 2 document]
  | false => exact condensed_ofNodes htag false 1 1 document

/-- What is laid out without links looks like what is laid out if there have never been any. -/
theorem Normalized.outlines_eq {tag' : String} (htag : Meaningless tag') {quote : Bool}
    {document : List Html.Node} {F F' : Forest} (h : Normalized document ⟨quote, false⟩ F)
    (h' : Normalized (Html.retagAnchors tag' document) ⟨quote, true⟩ F') :
    F.outlines = F'.outlines := by
  have hdocument : Kind.document.name ≠ .link := by simp [Kind.name]
  have htop : ∀ F : Forest, ∀ k ∈ (node Tree.root .document F nil).topKinds, k.name ≠ .link := by
    simp [topKinds, hdocument]
  have hraw : (ofDocument quote (Html.retagAnchors tag' document)).Linkless := by
    have hlinks := ofDocument_linksTo quote (Html.retagAnchors tag' document)
    rw [Html.targets_retagAnchors htag.ne_anchor] at hlinks
    exact hlinks.linkless
  have hlinkless : F.Linkless := h.noLink rfl
  have hlinkless' : F'.Linkless := by
    obtain ⟨n, hrewrites⟩ := h'.rewrites
    exact hrewrites.linkless hraw
  have hcondensed : F.condensed = F'.condensed := by
    obtain ⟨n, hsteps⟩ := h.steps
    obtain ⟨n', hsteps'⟩ := h'.steps
    obtain ⟨F₁, hF₁, heq, hlater⟩ := hsteps.exists_linkless (htop _) (by simp)
    obtain ⟨F₁', hF₁', heq', hlater'⟩ := hsteps'.exists_linkless (htop _)
      fun _ => ⟨hdocument, hraw, trivial⟩
    have hsame : F₁.condensed = F₁'.condensed := by
      rw [heq, heq', condensed_node hdocument, condensed_node hdocument,
        condensed_ofDocument htag quote document]
    have hend := VisitedAll.condensed_eq (laterSteps_read n n') hF₁ hF₁' hsame hlater hlater'
    rw [condensed_node hdocument, condensed_node hdocument] at hend
    exact (node.inj hend).2.2.1
  rw [← outlines_condensed hlinkless h.noDash h.joined.1 h.joined.2, hcondensed,
    outlines_condensed hlinkless' h'.noDash h'.joined.1 h'.joined.2]

end Forest
end Document

/-- For every document, dropping its links leads to the same Markdown as keeping the links of the
document in which the `a` elements have a tag without a meaning. -/
theorem markdownOfHtml_withoutLinks {tag' : String} (htag : Meaningless tag')
    (document : List Html.Node) (quote : Bool) :
    markdownOfHtml document ⟨quote, false⟩ =
      markdownOfHtml (Html.retagAnchors tag' document) ⟨quote, true⟩ := by
  obtain ⟨F, hF, hdraft⟩ := exists_normalized document ⟨quote, false⟩
  obtain ⟨F', hF', hdraft'⟩ :=
    exists_normalized (Html.retagAnchors tag' document) ⟨quote, true⟩
  rw [markdownOfHtml, markdownOfHtml, hdraft, hdraft', hF.outlines_eq htag hF']

/-- Links around an item, between two line breaks and around a code. -/
def linked : List Html.Node :=
  let link := fun children => Html.Node.element .html "A" [⟨"href", "b", .plain⟩] children
  let plain := fun tag children => Html.Node.element .html tag [] children
  [plain "ol" [link [plain "li" [.text "c"]]], .text "d", plain "br" [], link [plain "br" []],
    plain "pre" [link [plain "code" [.text "e"]]]]

theorem markdownOfHtml_withoutLinks_span :
    Meaningless "span" ∧
      markdownOfHtml linked ⟨true, false⟩ =
        markdownOfHtml (Html.retagAnchors "span" linked) ⟨true, true⟩ := by
  have hspan : Meaningless "span" := by
    intro attributes
    have hupper : "span".map Char.toUpper = "SPAN" := by
      rw [← String.toList_inj, String.toList_map]
      decide
    simp [kindOfElement, hupper]
  exact ⟨hspan, markdownOfHtml_withoutLinks hspan linked true⟩

end HtmlMarkdown
