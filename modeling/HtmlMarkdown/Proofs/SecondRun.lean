import HtmlMarkdown.Proofs.Conversion
import HtmlMarkdown.Proofs.NormalForm
import HtmlMarkdown.Proofs.Outlines
import HtmlMarkdown.Proofs.PositionWalks

/-!
What a second run of all passes does. A link that has lost its contents, or a code that is alone
in a preformatted node only now, is left by the first run and removed by the second. Where there
is neither, the second run changes nothing at all; otherwise it leaves fewer nodes.
-/
namespace HtmlMarkdown.Document
namespace Forest

variable {n m id : NodeId} {E F G : Forest} {w : Bool} {Step : Kind → Forest → Forest → Prop}

/-! Walks that change nothing. -/

theorem Visited.eq_self (h : Visited Step F G)
    (hF : F.Everywhere fun k D => ∀ D', Step k D D' → D' = D) : G = F := by
  induction h with
  | nil => rfl
  | text s _ ih => rw [ih hF]
  | node id k hstep _ _ ihb ihr =>
    obtain rfl := hF.1 _ hstep
    rw [ihb hF.2.1, ihr hF.2.2]

theorem VisitedAll.eq_self {Steps : List (Kind → Forest → Forest → Prop)}
    (h : VisitedAll Steps F G)
    (hF : ∀ Step ∈ Steps, F.Everywhere fun k D => ∀ D', Step k D D' → D' = D) : G = F := by
  induction h with
  | nil => rfl
  | cons hvisit _ ih =>
    obtain rfl := hvisit.eq_self (hF _ (List.mem_cons_self ..))
    exact ih fun Step hmem => hF Step (List.mem_cons_of_mem _ hmem)

/-- A step that changes something only by taking nodes away. -/
def Shrinks (Step : Kind → Forest → Forest → Prop) (k : Kind) (D : Forest) : Prop :=
  ∀ D', Step k D D' → D.ids.length ≤ D'.ids.length → D' = D

/-- If such a walk takes no node away, each of its steps has nothing to do. -/
theorem Visited.fixed (hstep : ∀ k D D', Step k D D' → Rewrites n D D')
    (h : Visited Step F G) (hF : F.Everywhere (Shrinks Step))
    (hlen : F.ids.length ≤ G.ids.length) : G = F ∧ F.Everywhere fun k D => Step k D D := by
  induction h with
  | nil => exact ⟨rfl, trivial⟩
  | text s _ ih =>
    obtain ⟨rfl, hall⟩ := ih hF hlen
    exact ⟨rfl, hall⟩
  | node id k hs hb hr ihb ihr =>
    have hmid := (hstep k _ _ hs).length_ids_le
    have hbelow := (hb.rewrites hstep).length_ids_le
    have hrest := (hr.rewrites hstep).length_ids_le
    simp only [ids, List.length_cons, List.length_append] at hlen
    obtain rfl := hF.1 _ hs (by omega)
    obtain ⟨rfl, hallb⟩ := ihb hF.2.1 (by omega)
    obtain ⟨rfl, hallr⟩ := ihr hF.2.2 (by omega)
    exact ⟨rfl, hs, hallb, hallr⟩

theorem VisitedAll.fixed {Steps : List (Kind → Forest → Forest → Prop)}
    (hsteps : ∀ Step ∈ Steps, ∀ k D D', Step k D D' → Rewrites n D D')
    (h : VisitedAll Steps F G) (hF : ∀ Step ∈ Steps, F.Everywhere (Shrinks Step))
    (hlen : F.ids.length ≤ G.ids.length) :
    ∀ Step ∈ Steps, F.Everywhere fun k D => Step k D D := by
  induction h with
  | nil => simp
  | cons hvisit hrest ih =>
    have hfirst := hsteps _ (List.mem_cons_self ..)
    have htail := fun Step hmem => hsteps Step (List.mem_cons_of_mem _ hmem)
    have hle := (hrest.rewrites htail).length_ids_le
    obtain ⟨rfl, hall⟩ := hvisit.fixed hfirst (hF _ (List.mem_cons_self ..)) (by omega)
    have hothers := ih htail (fun Step hmem => hF Step (List.mem_cons_of_mem _ hmem)) hlen
    intro Step hmem
    rcases List.mem_cons.1 hmem with rfl | hmem
    · exact hall
    · exact hothers Step hmem

/-! The two steps that may find something to do in a tree in normal form. -/

theorem shrinks_dropsLinks (k : Kind) (D : Forest) : Shrinks DropsLinks k D := by
  rintro _ rfl hlen
  induction D with
  | nil => rfl
  | text s rest ih => rw [dropEmptyLinks, ih hlen]
  | node id k below rest _ ih =>
    have hle := (rewrites_dropEmptyLinks (n := 0) rest).length_ids_le
    simp only [dropEmptyLinks] at hlen ⊢
    split at hlen
    · simp only [ids, List.length_cons, List.length_append] at hlen
      omega
    · rename_i hfull
      simp only [ids, List.length_cons, List.length_append] at hlen
      rw [if_neg hfull, ih (by omega)]

theorem shrinks_collapsesCode (k : Kind) (D : Forest) : Shrinks CollapsesCode k D := by
  rintro _ rfl hlen
  fun_cases collapseCode k D with
  | case1 id inner below hpre =>
    simp only [collapseCode, if_pos hpre, ids, List.length_cons, List.length_append] at hlen
    omega
  | case2 | case3 => rfl

/-- The other steps find nothing to do. -/
theorem VisitedAll.eq_self_of_mem (h : VisitedAll (steps n w) (.node id .document E .nil) F)
    (hmem : Step ∈ steps m w) :
    Step = DropsLinks ∨ Step = CollapsesCode ∨
      F.Everywhere fun k D => ∀ D', Step k D D' → D' = D := by
  rcases mem_steps hmem with rfl | rfl | rfl | ⟨rfl, rfl⟩ | rfl | rfl | rfl
  · refine Or.inr (Or.inr (h.joined.mono ?_))
    rintro k D hD _ rfl
    exact joinTexts_eq_self hD
  · refine Or.inr (Or.inr ((allTexts_iff.1 (h.noDash (by simp [children]))).2.mono ?_))
    rintro k D hD _ rfl
    exact spellTexts_eq_self hD
  · exact Or.inl rfl
  · have hlink := h.noLink (by simp [topKinds, Kind.name])
    refine Or.inr (Or.inr ((allKinds_iff.1 hlink).2.mono ?_))
    intro k D hD D' hstep
    exact Dissolved.eq_self hD hstep
  · exact Or.inr (Or.inl rfl)
  · have hlist := h.noOrderedList (by simp [topKinds, Kind.name])
    refine Or.inr (Or.inr ((allKinds_iff.1 hlist).2.mono ?_))
    intro k D hD D' hstep
    exact Dissolved.eq_self hD hstep
  · have hbreak := h.noLineBreak (by simp [topKinds])
    refine Or.inr (Or.inr ((allKinds_iff.1 hbreak).2.mono ?_))
    rintro k D hD _ ⟨fresh, -, rfl⟩
    exact pairBreaks_eq_self fresh hD

/-- Neither of the two steps has anything to do. -/
def Settled : Forest → Prop :=
  Everywhere fun k below => below.dropEmptyLinks = below ∧ below.collapseCode k = below

/-- A second run changes nothing in a settled forest. -/
theorem VisitedAll.eq_self_of_settled (h : VisitedAll (steps n w) (.node id .document E .nil) F)
    (h' : VisitedAll (steps m w) F G) (hF : F.Settled) : G = F := by
  refine h'.eq_self fun Step hmem => ?_
  rcases h.eq_self_of_mem hmem with rfl | rfl | hsame
  · exact hF.mono fun k D hD D' hstep => hstep.trans hD.1
  · exact hF.mono fun k D hD D' hstep => hstep.trans hD.2
  · exact hsame

/-- A second run that takes no node away has found a settled forest. -/
theorem VisitedAll.settled_of_length_le
    (h : VisitedAll (steps n w) (.node id .document E .nil) F) (h' : VisitedAll (steps m w) F G)
    (hlen : F.ids.length ≤ G.ids.length) : F.Settled := by
  have hfixed := h'.fixed (fun _ hmem _ _ _ hstep => rewrites_of_mem_steps hmem hstep)
    (fun Step hmem => ?_) hlen
  · have hdrop : DropsLinks ∈ steps m w := by simp [steps]
    have hcollapse : CollapsesCode ∈ steps m w := by simp [steps]
    refine ((hfixed _ hdrop).and (hfixed _ hcollapse)).mono ?_
    exact fun k D hD => ⟨hD.1.symm, hD.2.symm⟩
  · rcases h.eq_self_of_mem hmem with rfl | rfl | hsame
    · exact everywhere_of_forall shrinks_dropsLinks F
    · exact everywhere_of_forall shrinks_collapsesCode F
    · exact hsame.mono fun k D hD D' hstep _ => hD D' hstep

/-- Said of the links themselves: none is empty. -/
theorem everywhere_dropEmptyLinks_iff :
    (F.dropEmptyLinks = F ∧ F.Everywhere fun _ D => D.dropEmptyLinks = D) ↔
      F.Everywhere fun k D => ¬ (k.name = .link ∧ D = nil) := by
  induction F with
  | nil => simp [dropEmptyLinks, Everywhere]
  | text s rest ih => simpa [dropEmptyLinks, Everywhere] using ih
  | node id k below rest ihb ihr =>
    by_cases hempty : k.name = .link ∧ below = nil
    · have hle := (rewrites_dropEmptyLinks (n := 0) rest).length_ids_le
      refine iff_of_false ?_ fun h => h.1 hempty
      rintro ⟨hself, -⟩
      rw [dropEmptyLinks, if_pos hempty] at hself
      simp only [hself, ids, List.length_cons, List.length_append] at hle
      omega
    · simp only [dropEmptyLinks, if_neg hempty, Everywhere, node.injEq, true_and, ← ihb, ← ihr]
      tauto

theorem collapseCode_eq_self_iff {k : Kind} : F.collapseCode k = F ↔
    ∀ id inner below, F = node id inner below nil → k.name = .preformatted →
      inner.name ≠ .code := by
  constructor
  · rintro hself id inner below rfl hk hinner
    have hlen := congrArg (fun G : Forest => G.ids.length) hself
    simp [collapseCode, hk, hinner, ids] at hlen
  · intro h
    fun_cases collapseCode k F with
    | case1 id inner below hpre => exact absurd hpre.2 (h id inner below rfl hpre.1)
    | case2 | case3 => rfl

end Forest

namespace Tree

variable {t t' : Tree} {above : Option NodeId} {F : Forest} {Q : Kind → Forest → Prop}

/-- What holds of each node that can be reached holds everywhere in the forest. -/
theorem Holds.everywhere (h : t.Holds above F)
    (hQ : ∀ x ∈ F.ids, ∀ above' k D, t.Holds above' (.node x k D .nil) → Q k D) :
    F.Everywhere Q := by
  induction F generalizing above with
  | nil => trivial
  | text s rest ih => exact ih h hQ
  | node id k below rest ihb ihr =>
    simp only [Forest.ids, List.mem_cons, List.mem_append] at hQ
    exact ⟨hQ id (Or.inl rfl) above k below ⟨h.1, h.2.1, trivial⟩,
      ihb h.2.1 fun x hx => hQ x (Or.inr (Or.inl hx)),
      ihr h.2.2 fun x hx => hQ x (Or.inr (Or.inr hx))⟩

/-- No link is empty, and no code is alone in a preformatted node. -/
structure Settled (t : Tree) : Prop where
  link : ∀ {id}, t.Attached id → t.name id = .link → t.children id ≠ []
  code : ∀ {id inner}, t.Attached id → t.name id = .preformatted →
    t.children id = [.node inner] → t.name inner ≠ .code

theorem Spans.settled_iff (h : t.Spans F) :
    t.Settled ↔ (Forest.node root .document F .nil).Settled := by
  have hdrop : (Forest.node root .document F .nil).dropEmptyLinks =
      .node root .document F .nil := by simp [Forest.dropEmptyLinks, Kind.name]
  have hatt : ∀ x ∈ (Forest.node root .document F .nil).ids, t.Attached x := fun x hx =>
    h.attached_iff.2 hx
  constructor
  · intro hsettled
    refine Forest.Everywhere.and (Forest.everywhere_dropEmptyLinks_iff.2 ?_).2 ?_
    · refine h.holds.everywhere fun x hx above k D hD hempty => ?_
      exact hsettled.link (hatt x hx) (hD.name_eq.trans hempty.1)
        (by rw [hD.children_eq, hempty.2]; rfl)
    · refine h.holds.everywhere fun x hx above k D hD => ?_
      rw [Forest.collapseCode_eq_self_iff]
      rintro id inner below rfl hk
      rw [← hD.2.1.name_eq]
      exact hsettled.code (hatt x hx) (hD.name_eq.trans hk) (by rw [hD.children_eq]; rfl)
  · intro hsettled
    have hlink := Forest.everywhere_dropEmptyLinks_iff.1
      ⟨hdrop, hsettled.mono fun k D hD => hD.1⟩
    refine ⟨fun hx hname hnil => ?_, fun {id code} hx hname hcode => ?_⟩
    · obtain ⟨D, hD, hfull⟩ := h.of_everywhere hlink hx
      rw [hD] at hnil
      exact hfull ⟨hname, Forest.eq_nil_of_children_eq_nil hnil⟩
    · obtain ⟨above, k, D, hD, -, hall⟩ := h.holds.exists_branch (h.attached_iff.1 hx)
      have hself := (hall _ hsettled).1.2
      rw [Forest.collapseCode_eq_self_iff] at hself
      rw [hD.children_eq] at hcode
      rw [hD.name_eq] at hname
      cases D with
      | nil | text => simp [Forest.children] at hcode
      | node x inner below rest =>
        simp only [Forest.children, List.cons.injEq, Child.node.injEq] at hcode
        obtain ⟨rfl, hrest⟩ := hcode
        obtain rfl := Forest.eq_nil_of_children_eq_nil hrest
        rw [hD.2.1.name_eq]
        exact hself x inner below rfl hname

/-- A second run on a well-formed tree leaves every node, list and text as it is, or it takes
nodes away. -/
theorem normalize_second (h : t.WellFormed) (w : Bool) :
    ∃ once twice, normalize w t = .ok () once ∧ normalize w once = .ok () twice ∧
      (once.Settled → twice.forest = once.forest) ∧
      (¬ once.Settled → twice.forest.ids.length < once.forest.ids.length) ∧
      (twice.outline root = once.outline root ↔ once.Settled) := by
  obtain ⟨F, hF⟩ := h.exists_spans
  obtain ⟨once, F₁, hrun₁, -, hvisit₁, hF₁, -⟩ := normalize_runs hF w
  obtain ⟨twice, F₂, hrun₂, -, hvisit₂, hF₂, -⟩ := normalize_runs hF₁ w
  have hsame : once.Settled → F₂ = F₁ := fun hsettled => by
    have hwhole := hvisit₁.eq_self_of_settled hvisit₂ (hF₁.settled_iff.1 hsettled)
    simpa using hwhole
  have hless : ¬ once.Settled → F₂.ids.length < F₁.ids.length := fun hunsettled => by
    refine Nat.lt_of_not_le fun hle => hunsettled (hF₁.settled_iff.2 ?_)
    exact hvisit₁.settled_of_length_le hvisit₂ (by simpa [Forest.ids] using hle)
  refine ⟨once, twice, hrun₁, hrun₂, ?_, ?_, ?_, ?_⟩
  · rw [hF₁.forest_eq, hF₂.forest_eq]
    exact hsame
  · rw [hF₁.forest_eq, hF₂.forest_eq]
    exact hless
  all_goals rw [hF₁.outline_eq, hF₂.outline_eq]
  · intro houtline
    by_contra hunsettled
    have hlen := Forest.length_ids_of_outlines_eq (by simpa using houtline)
    exact Nat.ne_of_lt (hless hunsettled) hlen
  · exact fun hsettled => by rw [hsame hsettled]

/-- For every document, what the first run leaves is unchanged by a second run exactly if no link
in it is empty and no code is alone in a preformatted node. -/
theorem normalize_rawOfHtml_second (document : List Html.Node) (options : ConversionOptions)
    (withoutLinks : Bool) :
    ∃ raw once twice, rawOfHtml document options = .ok raw ∧
      normalize withoutLinks raw = .ok () once ∧ normalize withoutLinks once = .ok () twice ∧
      (once.Settled → twice.forest = once.forest) ∧
      (¬ once.Settled → twice.forest.ids.length < once.forest.ids.length) ∧
      (twice.outline root = once.outline root ↔ once.Settled) := by
  obtain ⟨raw, hraw, hspans⟩ := rawOfHtml_spans document options
  obtain ⟨once, twice, hfirst, hsecond, hall⟩ := normalize_second hspans.wellFormed withoutLinks
  exact ⟨raw, once, twice, hraw, hfirst, hsecond, hall⟩

/-- A line break is all that the link has. The first run takes the break away and the second the
link. -/
theorem normalize_second_breakInLink :
    ∃ raw once twice, rawOfHtml [.element .html "a" [⟨"href", "b", .plain⟩]
        [.element .html "br" [] []]] {} = .ok raw ∧
      normalize false raw = .ok () once ∧ normalize false once = .ok () twice ∧
      once.outline root = .node .document [.node (.link "b") []] ∧
      twice.outline root = .node .document [] ∧ twice.outline root ≠ once.outline root := by
  let raw : Tree := ⟨#[{ kind := .document, children := [.node 1] },
    { kind := .link "b", children := [.node 2], parent := some 0 },
    { kind := .lineBreak, parent := some 1 }]⟩
  let once : Tree := ⟨#[{ kind := .document, children := [.node 1] },
    { kind := .link "b", parent := some 0 }, { kind := .lineBreak }]⟩
  let twice : Tree := ⟨#[{ kind := .document }, { kind := .link "b" }, { kind := .lineBreak }]⟩
  have honce : once.outline root = .node .document [.node (.link "b") []] := rfl
  have htwice : twice.outline root = .node .document [] := rfl
  have hfirst : normalize false raw = .ok () once := by
    rw [normalize_eq_countedPasses]
    decide +kernel
  have hsecond : normalize false once = .ok () twice := by
    rw [normalize_eq_countedPasses]
    decide +kernel
  exact ⟨raw, once, twice, by decide +kernel, hfirst, hsecond, honce, htwice,
    by simp [honce, htwice]⟩

end Tree
end HtmlMarkdown.Document
