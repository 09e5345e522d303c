import HtmlMarkdown.Proofs.Steps
import Mathlib.Data.List.Forall2

/-!
What no change loses, repeats or puts in another order: the text outside line breaks, the old
nodes in preorder, the nodes of lasting kinds, and the nearest node above each node that is still
there in the end. A law about one change comes first, then the one about a run of changes.
-/
namespace HtmlMarkdown.Document
namespace Forest

variable {n : NodeId} {F G : Forest}

/-! Text. -/

/-- All texts in document order, joined. -/
def wholeText : Forest → String
  | nil => ""
  | text s rest => s ++ wholeText rest
  | node _ _ below rest => wholeText below ++ wholeText rest

/-- All texts that are not below a line break, joined. -/
def shownText : Forest → String
  | nil => ""
  | text s rest => s ++ shownText rest
  | node _ k below rest => (if k = .lineBreak then "" else shownText below) ++ shownText rest

theorem shownText_append (F G : Forest) : (F ++ G).shownText = F.shownText ++ G.shownText := by
  induction F with
  | nil => simp [shownText]
  | text s rest ih => simp [shownText, ih, String.append_assoc]
  | node id k below rest _ ih => simp [shownText, ih, String.append_assoc]

theorem wholeText_eq_shownText (h : F.AllKinds (· ≠ .lineBreak)) : F.wholeText = F.shownText := by
  unfold AllKinds at h
  induction F with
  | nil => rfl
  | text s rest ih => rw [wholeText, shownText, ih h]
  | node id k below rest ihb ihr => rw [wholeText, shownText, if_neg h.1, ihb h.2.1, ihr h.2.2]

theorem noDash_shownText (h : F.AllTexts NoDash) : NoDash F.shownText := by
  induction F with
  | nil => simp [NoDash, shownText]
  | text s rest ih => exact h.1.append (ih h.2)
  | node id k below rest ihb ihr =>
    rw [shownText]
    split
    · exact NoDash.append (by simp [NoDash]) (ihr h.2)
    · exact (ihb h.1).append (ihr h.2)

theorem Rewrite.spellDashes_shownText (h : Rewrite n F G) :
    spellDashes G.shownText = spellDashes F.shownText := by
  induction h with
  | join s u F => simp [shownText, String.append_assoc]
  | spell s F =>
    simp only [shownText, spellDashes_append, (noDash_spellDashes s).spellDashes_eq]
  | dissolve id k F G hk =>
    have hne : k ≠ .lineBreak := by
      rintro rfl
      simp [Kind.dissolves, Kind.name] at hk
    rw [shownText_append, shownText, if_neg hne]
  | number => simp [shownText]
  | pair | drop => simp [shownText]
  | behindText s h ih => simp only [shownText, spellDashes_append, ih]
  | inside id k rest h ih =>
    simp only [shownText, spellDashes_append]
    split
    · rfl
    · rw [ih]
  | behindNode id k F' h ih => simp only [shownText, spellDashes_append, ih]

theorem Rewrites.spellDashes_shownText (h : Rewrites n F G) :
    spellDashes G.shownText = spellDashes F.shownText := by
  induction h with
  | refl => rfl
  | tail _ hstep ih => rw [hstep.spellDashes_shownText, ih]

/-! Old nodes. -/

/-- The nodes in preorder whose numbers are below `n`. -/
def oldIds (n : NodeId) (F : Forest) : List NodeId := F.ids.filter fun x => x < n

theorem Rewrite.oldIds_sublist (h : Rewrite n F G) : (G.oldIds n).Sublist (F.oldIds n) := by
  unfold oldIds
  induction h with
  | join | spell | number => exact List.Sublist.refl _
  | dissolve id k F G =>
    rw [ids_append]
    exact (List.sublist_cons_self id _).filter _
  | pair i j fresh F G H hfresh =>
    have hnew : ¬ fresh < n := Nat.not_lt.2 hfresh
    have hsub : H.ids.Sublist (i :: (F.ids ++ j :: (G.ids ++ H.ids))) :=
      (((List.sublist_append_right G.ids H.ids).cons j).trans
        (List.sublist_append_right F.ids _)).cons i
    simpa [ids, hnew] using hsub.filter fun x => x < n
  | drop id F G =>
    exact ((List.sublist_append_right F.ids G.ids).cons id).filter _
  | behindText s h ih => exact ih
  | inside id k rest h ih =>
    simp only [ids, List.filter_cons, List.filter_append]
    split
    · exact (ih.append_right _).cons_cons id
    · exact ih.append_right _
  | behindNode id k F' h ih =>
    simp only [ids, List.filter_cons, List.filter_append]
    split
    · exact (ih.append_left _).cons_cons id
    · exact ih.append_left _

theorem Rewrites.oldIds_sublist (h : Rewrites n F G) : (G.oldIds n).Sublist (F.oldIds n) := by
  induction h with
  | refl => exact List.Sublist.refl _
  | tail _ hstep ih => exact hstep.oldIds_sublist.trans ih

/-- New nodes are separators with nothing below them. -/
def NewSeparators (n : NodeId) : Forest → Prop
  | nil => True
  | text _ rest => NewSeparators n rest
  | node id k below rest =>
    (n ≤ id → k = .separator ∧ below = nil) ∧ NewSeparators n below ∧ NewSeparators n rest

theorem newSeparators_append :
    (F ++ G).NewSeparators n ↔ F.NewSeparators n ∧ G.NewSeparators n := by
  induction F with
  | nil => simp [NewSeparators]
  | text s rest ih => simpa [NewSeparators] using ih
  | node id k below rest _ ih => simp [NewSeparators, ih, and_assoc]

theorem newSeparators_of_lt (h : ∀ x ∈ F.ids, x < n) : F.NewSeparators n := by
  induction F with
  | nil => trivial
  | text s rest ih => exact ih h
  | node id k below rest ihb ihr =>
    simp only [ids, List.mem_cons, List.mem_append] at h
    exact ⟨fun hle => absurd (h id (Or.inl rfl)) (Nat.not_lt.2 hle),
      ihb fun x hx => h x (Or.inr (Or.inl hx)), ihr fun x hx => h x (Or.inr (Or.inr hx))⟩

theorem Rewrite.newSeparators (h : Rewrite n F G) (hF : F.NewSeparators n) :
    G.NewSeparators n := by
  induction h with
  | join | spell => exact hF
  | dissolve id k F G => exact newSeparators_append.2 hF.2
  | number id i F G => exact ⟨fun hle => absurd (hF.1 hle).1 (by simp), hF.2⟩
  | pair => exact ⟨fun _ => ⟨rfl, rfl⟩, trivial, hF.2.2.2.2⟩
  | drop => exact hF.2.2
  | behindText s h ih => exact ih hF
  | inside id k rest h ih =>
    exact ⟨fun hle => absurd (hF.1 hle).2 h.ne_nil, ih hF.2.1, hF.2.2⟩
  | behindNode id k F' h ih => exact ⟨hF.1, hF.2.1, ih hF.2.2⟩

theorem Rewrites.newSeparators (h : Rewrites n F G) (hF : F.NewSeparators n) :
    G.NewSeparators n :=
  h.invariant (fun _ _ hstep => hstep.newSeparators) hF

/-! Lasting nodes. -/

/-- The old nodes of lasting kinds that are not below a line break, in preorder. -/
def lasting (n : NodeId) : Forest → List (NodeId × Kind)
  | nil => []
  | text _ rest => lasting n rest
  | node id k below rest =>
    (if k.lasts ∧ id < n then [(id, k)] else [])
      ++ (if k = .lineBreak then [] else lasting n below) ++ lasting n rest

theorem lasting_append (F G : Forest) :
    (F ++ G).lasting n = F.lasting n ++ G.lasting n := by
  induction F with
  | nil => rfl
  | text s rest ih => simpa [lasting] using ih
  | node id k below rest _ ih => simp [lasting, ih]

theorem lasting_sublist (n : NodeId) (F : Forest) :
    ((F.lasting n).map Prod.fst).Sublist F.ids := by
  induction F with
  | nil => exact List.Sublist.refl _
  | text s rest ih => exact ih
  | node id k below rest ihb ihr =>
    simp only [lasting, ids, List.map_append, List.append_assoc]
    have hbelow : (List.map Prod.fst (if k = .lineBreak then [] else below.lasting n)).Sublist
        below.ids := by
      split
      · exact List.nil_sublist _
      · exact ihb
    have htail := hbelow.append ihr
    split
    · exact htail.cons_cons id
    · exact htail.cons id

/-- The same node, of a kind that the first may become. -/
def SameNode (a b : NodeId × Kind) : Prop := b.1 = a.1 ∧ a.2.Becomes b.2

theorem SameNode.refl (a : NodeId × Kind) : SameNode a a := ⟨rfl, Or.inl rfl⟩

theorem SameNode.trans {a b c : NodeId × Kind} (h : SameNode a b) (h' : SameNode b c) :
    SameNode a c :=
  ⟨h'.1.trans h.1, h.2.trans h'.2⟩

theorem forall₂_sameNode_refl (rows : List (NodeId × Kind)) : List.Forall₂ SameNode rows rows :=
  List.forall₂_same.2 fun a _ => SameNode.refl a

theorem forall₂_sameNode_trans {as bs cs : List (NodeId × Kind)}
    (h : List.Forall₂ SameNode as bs) (h' : List.Forall₂ SameNode bs cs) :
    List.Forall₂ SameNode as cs := by
  induction h generalizing cs with
  | nil => exact h'
  | cons hab _ ih =>
    cases h' with
    | cons hbc hrest => exact .cons (hab.trans hbc) (ih hrest)

theorem exists_sameNode {as bs : List (NodeId × Kind)} (h : List.Forall₂ SameNode as bs)
    {a : NodeId × Kind} (ha : a ∈ as) : ∃ b ∈ bs, SameNode a b := by
  induction h with
  | nil => simp at ha
  | cons hab _ ih =>
    rcases List.mem_cons.1 ha with rfl | ha
    · exact ⟨_, List.mem_cons_self .., hab⟩
    · obtain ⟨b, hb, hsame⟩ := ih ha
      exact ⟨b, List.mem_cons_of_mem _ hb, hsame⟩

theorem map_fst_of_sameNode {as bs : List (NodeId × Kind)} (h : List.Forall₂ SameNode as bs) :
    bs.map Prod.fst = as.map Prod.fst := by
  induction h with
  | nil => rfl
  | cons hab _ ih => rw [List.map_cons, List.map_cons, hab.1, ih]

theorem Rewrite.lasting (h : Rewrite n F G) :
    List.Forall₂ SameNode (F.lasting n) (G.lasting n) := by
  induction h with
  | join | spell => exact forall₂_sameNode_refl _
  | dissolve id k F G hk =>
    have hne : k ≠ .lineBreak := by
      rintro rfl
      simp [Kind.dissolves, Kind.name] at hk
    have hlasts : k.lasts = false := by simp [Kind.lasts, hk]
    have hsame : (node id k F G).lasting n = (F ++ G).lasting n := by
      simp [Forest.lasting, lasting_append, hne, hlasts]
    rw [hsame]
    exact forall₂_sameNode_refl _
  | number id i F G =>
    have hitem : Kind.listItem.lasts = true := rfl
    have hnumbered : (Kind.numberedItem i).lasts = true := rfl
    simp only [Forest.lasting, hitem, hnumbered, true_and, reduceCtorEq, if_false]
    refine List.rel_append (List.rel_append ?_ (forall₂_sameNode_refl _)) (forall₂_sameNode_refl _)
    split
    · exact .cons ⟨rfl, Or.inr ⟨rfl, i, rfl⟩⟩ .nil
    · exact .nil
  | pair i j fresh F G H hfresh =>
    have hnew : ¬ fresh < n := Nat.not_lt.2 hfresh
    have hbreak : Kind.lineBreak.lasts = false := rfl
    simpa [Forest.lasting, hnew, hbreak] using forall₂_sameNode_refl _
  | drop id F G =>
    have hbreak : Kind.lineBreak.lasts = false := rfl
    simpa [Forest.lasting, hbreak] using forall₂_sameNode_refl _
  | behindText s h ih => exact ih
  | inside id k rest h ih =>
    refine List.rel_append (List.rel_append (forall₂_sameNode_refl _) ?_) (forall₂_sameNode_refl _)
    split
    · exact .nil
    · exact ih
  | behindNode id k F' h ih => exact List.rel_append (forall₂_sameNode_refl _) ih

theorem Rewrites.lasting (h : Rewrites n F G) :
    List.Forall₂ SameNode (F.lasting n) (G.lasting n) := by
  induction h with
  | refl => exact forall₂_sameNode_refl _
  | tail _ hstep ih => exact forall₂_sameNode_trans ih hstep.lasting

/-! The nearest node above that survives. -/

/-- The nodes that survive, in preorder, each with the nearest surviving node above it. Above
the top level that is `near`. -/
def survivors (alive : NodeId → Bool) (near : NodeId) : Forest → List (NodeId × NodeId)
  | nil => []
  | text _ rest => survivors alive near rest
  | node id _ below rest =>
    (if alive id then (id, near) :: survivors alive id below else survivors alive near below)
      ++ survivors alive near rest

variable {alive : NodeId → Bool}

theorem survivors_append (near : NodeId) (F G : Forest) :
    (F ++ G).survivors alive near = F.survivors alive near ++ G.survivors alive near := by
  induction F with
  | nil => rfl
  | text s rest ih => exact ih
  | node id k below rest _ ih => simp [survivors, ih]

theorem map_fst_survivors (near : NodeId) (F : Forest) :
    (F.survivors alive near).map Prod.fst = F.ids.filter alive := by
  induction F generalizing near with
  | nil => rfl
  | text s rest ih => exact ih near
  | node id k below rest ihb ihr =>
    simp only [survivors, ids, List.filter_cons, List.filter_append, List.map_append, ihr]
    split <;> simp [ihb]

theorem survivors_eq_nil (near : NodeId) (h : F.ids.countP alive = 0) :
    F.survivors alive near = [] := by
  have hmap : (F.survivors alive near).map Prod.fst = F.ids.filter alive :=
    map_fst_survivors near F
  rw [List.countP_eq_length_filter, List.length_eq_zero_iff] at h
  rwa [h, List.map_eq_nil_iff] at hmap

theorem survivors_congr {alive' : NodeId → Bool} (near : NodeId)
    (h : ∀ x ∈ F.ids, alive x = alive' x) : F.survivors alive near = F.survivors alive' near := by
  induction F generalizing near with
  | nil => rfl
  | text s rest ih => exact ih near h
  | node id k below rest ihb ihr =>
    simp only [ids, List.mem_cons, List.mem_append] at h
    have hbelow := fun near => ihb near fun x hx => h x (Or.inr (Or.inl hx))
    have hrest := fun near => ihr near fun x hx => h x (Or.inr (Or.inr hx))
    simp only [survivors, h id (Or.inl rfl), hbelow, hrest]

theorem Rewrite.countP_le (h : Rewrite n F G) (hold : ∀ x, alive x → x < n) :
    G.ids.countP alive ≤ F.ids.countP alive := by
  have hcount : ∀ H : Forest, H.ids.countP alive = (H.oldIds n).countP alive := by
    intro H
    rw [oldIds, List.countP_filter]
    congr 1
    funext x
    cases hx : alive x with
    | false => rfl
    | true => simp [hold x hx]
  rw [hcount, hcount]
  exact h.oldIds_sublist.countP_le

theorem Rewrites.countP_le (h : Rewrites n F G) (hold : ∀ x, alive x → x < n) :
    G.ids.countP alive ≤ F.ids.countP alive := by
  induction h with
  | refl => exact Nat.le_refl _
  | tail _ hstep ih => exact Nat.le_trans (hstep.countP_le hold) ih

/-- A change that takes away no survivor keeps what is nearest above each. -/
theorem Rewrite.survivors (h : Rewrite n F G) (hold : ∀ x, alive x → x < n)
    (hcount : F.ids.countP alive ≤ G.ids.countP alive) (near : NodeId) :
    G.survivors alive near = F.survivors alive near := by
  induction h generalizing near with
  | join | spell | number => rfl
  | dissolve id k F G =>
    simp only [ids, ids_append, List.countP_cons, List.countP_append] at hcount
    have hid : ¬ alive id := fun hid => by
      simp only [hid, if_true] at hcount
      omega
    rw [survivors_append, Forest.survivors, if_neg hid]
  | pair i j fresh F G H hfresh =>
    have hnew : ¬ alive fresh := fun hx => Nat.not_lt.2 hfresh (hold fresh hx)
    simp only [ids, List.countP_cons, List.countP_append, List.countP_nil, if_neg hnew] at hcount
    have hi : ¬ alive i := fun hi => by
      simp only [hi, if_true] at hcount
      omega
    have hj : ¬ alive j := fun hj => by
      simp only [hj, if_true] at hcount
      omega
    have hF : F.survivors alive near = [] := survivors_eq_nil near (by omega)
    have hG : G.survivors alive near = [] := survivors_eq_nil near (by omega)
    simp [Forest.survivors, hnew, hi, hj, hF, hG]
  | drop id F G =>
    simp only [ids, List.countP_cons, List.countP_append] at hcount
    have hid : ¬ alive id := fun hid => by
      simp only [hid, if_true] at hcount
      omega
    have hF : F.survivors alive near = [] := survivors_eq_nil near (by omega)
    simp [Forest.survivors, hid, hF]
  | behindText s h ih => exact ih hcount near
  | inside id k rest h ih =>
    simp only [ids, List.countP_cons, List.countP_append] at hcount
    simp only [Forest.survivors, ih (by omega)]
  | behindNode id k F' h ih =>
    simp only [ids, List.countP_cons, List.countP_append] at hcount
    simp only [Forest.survivors, ih (by omega)]

theorem Rewrites.survivors (h : Rewrites n F G) (hold : ∀ x, alive x → x < n)
    (hcount : F.ids.countP alive ≤ G.ids.countP alive) (near : NodeId) :
    G.survivors alive near = F.survivors alive near := by
  induction h with
  | refl => rfl
  | @tail G' G hrun hstep ih =>
    have hlast := hstep.countP_le hold
    have hfirst := Rewrites.countP_le hrun hold
    rw [hstep.survivors hold (by omega), ih (by omega)]

end Forest
end HtmlMarkdown.Document
