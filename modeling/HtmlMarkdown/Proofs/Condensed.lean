import HtmlMarkdown.Proofs.Outlines
import HtmlMarkdown.Proofs.Steps

/-!
What forests have in common that differ in the numbers of their nodes, in where a run of text is
cut, in how dashes are spelled, and in links around what they hold. The condensed forest is the
one of them without links, in which all texts are spelled and joined.
-/
namespace HtmlMarkdown.Document.Forest

/-- A text in front of a forest, joined with the text that the forest begins with. -/
def glue (s : String) : Forest → Forest
  | text u rest => text (s ++ u) rest
  | F => text s F

/-- One forest in front of another; two texts that meet are joined. -/
def join : Forest → Forest → Forest
  | nil, G => G
  | text s rest, G => glue s (join rest G)
  | node id k below rest, G => node id k below (join rest G)

/-- The forest without links, its texts spelled and joined, and all nodes with the same number. -/
def condensed : Forest → Forest
  | nil => nil
  | text s rest => glue (spellDashes s) (condensed rest)
  | node _ k below rest =>
    if k.name = .link then join (condensed below) (condensed rest)
    else node 0 k (condensed below) (condensed rest)

variable {F G : Forest}

@[simp] theorem condensed_nil : nil.condensed = nil := rfl

theorem condensed_text (s : String) (F : Forest) :
    (text s F).condensed = glue (spellDashes s) F.condensed := rfl

theorem condensed_link {k : Kind} (hk : k.name = .link) (id : NodeId) (F G : Forest) :
    (node id k F G).condensed = join F.condensed G.condensed := if_pos hk

theorem condensed_node {k : Kind} (hk : k.name ≠ .link) (id : NodeId) (F G : Forest) :
    (node id k F G).condensed = node 0 k F.condensed G.condensed := if_neg hk

theorem glue_glue (s u : String) (F : Forest) : glue s (glue u F) = glue (s ++ u) F := by
  cases F <;> simp [glue, String.append_assoc]

theorem join_glue (s : String) (F G : Forest) : join (glue s F) G = glue s (join F G) := by
  cases F with
  | nil | node => rfl
  | text u rest => rw [glue, join, join, glue_glue]

theorem join_assoc (F G H : Forest) : join (join F G) H = join F (join G H) := by
  induction F with
  | nil => rfl
  | text s rest ih => rw [join, join_glue, ih, join]
  | node id k below rest _ ih => rw [join, join, ih, join]

theorem condensed_append (F G : Forest) :
    (F ++ G).condensed = join F.condensed G.condensed := by
  induction F with
  | nil => rfl
  | text s rest ih => rw [text_append, condensed_text, ih, condensed_text, join_glue]
  | node id k below rest _ ih =>
    rw [node_append]
    by_cases hk : k.name = .link
    · rw [condensed_link hk, condensed_link hk, ih, join_assoc]
    · rw [condensed_node hk, condensed_node hk, ih, join]

theorem condensed_glue (s : String) (F : Forest) :
    (glue s F).condensed = glue (spellDashes s) F.condensed := by
  cases F with
  | nil | node => rfl
  | text u rest => rw [glue, condensed_text, condensed_text, glue_glue, spellDashes_append]

theorem condensed_join (F G : Forest) :
    (join F G).condensed = join F.condensed G.condensed := by
  induction F with
  | nil => rfl
  | text s rest ih => rw [join, condensed_glue, ih, condensed_text, join_glue]
  | node id k below rest _ ih =>
    rw [join]
    by_cases hk : k.name = .link
    · rw [condensed_link hk, condensed_link hk, ih, join_assoc]
    · rw [condensed_node hk, condensed_node hk, ih, join]

theorem spellDashes_spellDashes (s : String) : spellDashes (spellDashes s) = spellDashes s :=
  (noDash_spellDashes s).spellDashes_eq

/-- There is nothing left to condense. -/
@[simp] theorem condensed_condensed (F : Forest) : F.condensed.condensed = F.condensed := by
  induction F with
  | nil => rfl
  | text s rest ih => rw [condensed_text, condensed_glue, ih, spellDashes_spellDashes]
  | node id k below rest ihb ihr =>
    by_cases hk : k.name = .link
    · rw [condensed_link hk, condensed_join, ihb, ihr]
    · rw [condensed_node hk, condensed_node hk, ihb, ihr]

/-! What the first passes do is not seen. -/

theorem condensed_joinTexts (F : Forest) : F.joinTexts.condensed = F.condensed := by
  induction F with
  | nil => rfl
  | text s rest ih =>
    have hglue : (text s rest).joinTexts = glue s rest.joinTexts := by
      rw [joinTexts]
      cases rest.joinTexts <;> rfl
    rw [hglue, condensed_glue, ih, condensed_text]
  | node id k below rest _ ih => simp only [joinTexts, condensed, ih]

theorem condensed_spellTexts (F : Forest) : F.spellTexts.condensed = F.condensed := by
  induction F with
  | nil => rfl
  | text s rest ih => rw [spellTexts, condensed_text, ih, spellDashes_spellDashes, condensed_text]
  | node id k below rest _ ih => simp only [spellTexts, condensed, ih]

theorem condensed_dropEmptyLinks (F : Forest) : F.dropEmptyLinks.condensed = F.condensed := by
  induction F with
  | nil => rfl
  | text s rest ih => rw [dropEmptyLinks, condensed_text, ih, condensed_text]
  | node id k below rest _ ih =>
    rw [dropEmptyLinks]
    split
    · rename_i h
      rw [ih, condensed_link h.1, h.2, condensed_nil, join]
    · simp only [condensed, ih]

theorem Dissolved.condensed_eq (h : Dissolved .link (fun D => D) F G) :
    G.condensed = F.condensed := by
  induction h with
  | nil => rfl
  | text s _ ih => rw [condensed_text, ih, condensed_text]
  | keep id k below hk _ ih => rw [condensed_node hk, ih, condensed_node hk]
  | dissolve id k below hk _ ih => rw [ih, condensed_append, condensed_link hk]

/-! What the other passes do can be done to the condensed forest. -/

/-- A forest without links. -/
def Linkless (F : Forest) : Prop := F.AllKinds fun k => k.name ≠ .link

theorem condensed_eq_nil_iff (hF : F.Linkless) : F.condensed = nil ↔ F = nil := by
  cases F with
  | nil => simp
  | text s rest =>
    rw [condensed_text]
    cases rest.condensed <;> simp [glue]
  | node id k below rest => simp [condensed_node hF.1]

theorem collapseCode_of_ne_nil (k inner : Kind) (id : NodeId) (below : Forest) (hG : G ≠ nil) :
    collapseCode k (node id inner below G) = node id inner below G := by
  cases G with
  | nil => exact absurd rfl hG
  | text | node => rfl

theorem condensed_collapseCode (k : Kind) (hF : F.Linkless) :
    (collapseCode k F).condensed = (collapseCode k F.condensed).condensed := by
  have hglue : ∀ (s : String) (D : Forest), collapseCode k (glue s D) = glue s D := by
    intro s D
    cases D <;> rfl
  cases F with
  | nil => rfl
  | text s rest =>
    rw [condensed_text, hglue, ← condensed_text s, condensed_condensed]
    rfl
  | node id inner below rest =>
    rw [condensed_node hF.1]
    by_cases hrest : rest = nil
    · subst hrest
      simp only [collapseCode, condensed_nil]
      split
      · rw [condensed_condensed]
      · simp [condensed_node hF.1]
    · have hrest' : rest.condensed ≠ nil := mt (condensed_eq_nil_iff hF.2.2).1 hrest
      rw [collapseCode_of_ne_nil k inner id below hrest, collapseCode_of_ne_nil _ _ _ _ hrest']
      simp [condensed_node hF.1]

/-- The ordered lists give way to their items. If the forest stands in such a list itself, `next`
is the number of its next item. -/
def unlisted : (next : Option Nat) → Forest → Forest
  | _, nil => nil
  | next, text s rest => text s (unlisted next rest)
  | next, node id k below rest =>
    if k.name = .orderedList then unlisted (some 1) below ++ unlisted next rest
    else if k = .listItem then
      node id (next.elim .listItem .numberedItem) below (unlisted (next.map (· + 1)) rest)
    else node id k below (unlisted next rest)

theorem Dissolved.unique {name : Kind.Name} {ready : Forest → Forest} {G' : Forest}
    (h : Dissolved name ready F G) (h' : Dissolved name ready F G') : G = G' := by
  induction h generalizing G' with
  | nil =>
    cases h'
    rfl
  | text s _ ih =>
    cases h' with
    | text _ h' => rw [ih h']
  | keep id k below hk _ ih =>
    cases h' with
    | keep _ _ _ _ h' => rw [ih h']
    | dissolve _ _ _ hk' => exact absurd hk' hk
  | dissolve id k below hk _ ih =>
    cases h' with
    | keep _ _ _ hk' => exact absurd hk hk'
    | dissolve _ _ _ _ h' => exact ih h'

/-- The forest with its items numbered, if it stands in a list. -/
def itemsFrom (next : Option Nat) (F : Forest) : Forest := next.elim F (numberFrom · F)

theorem itemsFrom_text (next : Option Nat) (s : String) (F : Forest) :
    itemsFrom next (text s F) = text s (itemsFrom next F) := by
  cases next <;> rfl

theorem itemsFrom_node {k : Kind} (hk : k ≠ .listItem) (next : Option Nat) (id : NodeId)
    (F G : Forest) : itemsFrom next (node id k F G) = node id k F (itemsFrom next G) := by
  cases next with
  | none => rfl
  | some i => rw [itemsFrom, Option.elim_some, numberFrom, if_neg hk, itemsFrom, Option.elim_some]

theorem itemsFrom_item (next : Option Nat) (id : NodeId) (F G : Forest) :
    itemsFrom next (node id .listItem F G) =
      node id (next.elim .listItem .numberedItem) F (itemsFrom (next.map (· + 1)) G) := by
  cases next <;> rfl

/-- `R` is what stands behind the forest. The items of a list come to stand in front of it. -/
theorem dissolved_unlisted (next : Option Nat) (F : Forest) {R R' : Forest}
    (h : Dissolved .orderedList (numberFrom 1) R R') :
    Dissolved .orderedList (numberFrom 1) (itemsFrom next F ++ R) (unlisted next F ++ R') := by
  induction F generalizing next R R' with
  | nil => cases next <;> exact h
  | text s rest ih =>
    rw [itemsFrom_text]
    exact (ih next h).text s
  | node id k below rest ihb ihr =>
    rw [unlisted]
    by_cases hlist : k.name = .orderedList
    · have hitem : k ≠ .listItem := by
        rintro rfl
        simp [Kind.name] at hlist
      have hbelow := ihb (some 1) (ihr next h)
      rw [itemsFrom_node hitem, if_pos hlist, append_assoc]
      exact .dissolve id k below hlist hbelow
    · rw [if_neg hlist]
      by_cases hitem : k = .listItem
      · have hkind : (next.elim Kind.listItem .numberedItem).name ≠ .orderedList := by
          cases next <;> simp [Kind.name]
        rw [if_pos hitem, hitem, itemsFrom_item]
        exact .keep id _ below hkind (ihr _ h)
      · rw [itemsFrom_node hitem, if_neg hitem]
        exact .keep id k below hlist (ihr next h)

/-- What numbering the lists comes to. -/
theorem Dissolved.eq_unlisted (h : Dissolved .orderedList (numberFrom 1) F G) :
    G = F.unlisted none := by
  have hself := dissolved_unlisted none F .nil
  rw [append_nil, append_nil] at hself
  exact h.unique hself

/-- What goes past texts goes past them in the condensed forest too, wherever they are cut. -/
theorem condensed_past_text {f g : Forest → Forest} (hf : ∀ u D, f (text u D) = text u (f D))
    (hg : ∀ u D, g (text u D) = text u (g D)) (s : String)
    (h : (f F).condensed = (g F.condensed).condensed) :
    (f (text s F)).condensed = (g (text s F).condensed).condensed := by
  have hglue : ∀ (u : String) (D : Forest),
      (g (glue u D)).condensed = glue (spellDashes u) (g D).condensed := by
    intro u D
    cases D with
    | nil | node => exact congrArg condensed (hg u _)
    | text v rest =>
      rw [glue, hg, hg, condensed_text, condensed_text, glue_glue, spellDashes_append]
  rw [hf, condensed_text, h, condensed_text, hglue, spellDashes_spellDashes]

theorem condensed_unlisted (next : Option Nat) (hF : F.Linkless) :
    (F.unlisted next).condensed = (F.condensed.unlisted next).condensed := by
  unfold Linkless AllKinds at hF
  induction F generalizing next with
  | nil => rfl
  | text s rest ih =>
    have hpast : ∀ u D, unlisted next (text u D) = text u (unlisted next D) := fun _ _ => rfl
    exact condensed_past_text hpast hpast s (ih next hF)
  | node id k below rest ihb ihr =>
    rw [condensed_node hF.1, unlisted, unlisted]
    by_cases hlist : k.name = .orderedList
    · rw [if_pos hlist, if_pos hlist, condensed_append, condensed_append, ihb (some 1) hF.2.1,
        ihr next hF.2.2]
    · rw [if_neg hlist, if_neg hlist]
      by_cases hitem : k = .listItem
      · have hkind : (next.elim Kind.listItem .numberedItem).name ≠ .link := by
          cases next <;> simp [Kind.name]
        rw [if_pos hitem, if_pos hitem, condensed_node hkind, condensed_node hkind,
          condensed_condensed, ihr _ hF.2.2]
      · rw [if_neg hitem, if_neg hitem, condensed_node hF.1, condensed_node hF.1,
          condensed_condensed, ihr next hF.2.2]

/-- The condensed forest begins with the same kind of node. -/
theorem exists_of_condensed_eq_node (hF : F.Linkless) {id : NodeId} {k : Kind}
    {below rest : Forest} (h : F.condensed = node id k below rest) :
    ∃ id' below' rest', F = node id' k below' rest' := by
  cases F with
  | nil => simp at h
  | text s more =>
    rw [condensed_text] at h
    cases hmore : more.condensed <;> simp [hmore, glue] at h
  | node id' k' below' rest' =>
    rw [condensed_node hF.1] at h
    obtain ⟨-, rfl, -, -⟩ := node.inj h
    exact ⟨id', below', rest', rfl⟩

theorem condensed_pairBreaks (fresh other : NodeId) (hF : F.Linkless) :
    (F.pairBreaks fresh).condensed = (F.condensed.pairBreaks other).condensed := by
  have hbreak : Kind.lineBreak.name ≠ .link := by simp [Kind.name]
  have hseparator : Kind.separator.name ≠ .link := by simp [Kind.name]
  fun_induction pairBreaks fresh F generalizing other with
  | case1 => rfl
  | case2 fresh s rest ih =>
    have hpast : ∀ n u D, pairBreaks n (text u D) = text u (pairBreaks n D) := fun _ _ _ => by
      rw [pairBreaks]
    exact condensed_past_text (hpast fresh) (hpast other) s (ih other hF)
  | case3 fresh i F j G rest ih =>
    rw [condensed_node hseparator, condensed_node hbreak, condensed_node hbreak, pairBreaks,
      condensed_node hseparator, ih (other + 1) hF.2.2.2.2]
  | case4 fresh i F rest hlone ih =>
    -- a break without a second one is alone in the condensed forest too
    have hlone' : ∀ j G more, rest.condensed = node j .lineBreak G more → False := by
      intro j G more h
      obtain ⟨j', G', more', hrest⟩ := exists_of_condensed_eq_node hF.2.2 h
      exact hlone j' G' more' hrest
    rw [condensed_node hbreak, pairBreaks, ih other hF.2.2]
    exact hlone'
  | case5 fresh id k below rest hpair hk ih =>
    rw [condensed_node hF.1, condensed_node hF.1, pairBreaks, condensed_node hF.1,
      condensed_condensed, ih other hF.2.2]
    · exact fun _ _ _ he _ => hk he
    · exact hk

/-- In normal form a forest without links looks as its condensed form does. -/
theorem outlines_condensed (hlinks : F.Linkless) (hdash : F.AllTexts NoDash)
    (htop : NoNeighbouringTexts F.children)
    (hjoined : F.Everywhere fun _ below => NoNeighbouringTexts below.children) :
    F.condensed.outlines = F.outlines := by
  unfold Linkless AllKinds at hlinks
  induction F with
  | nil => rfl
  | text s rest ih =>
    simp only [children, noNeighbouringTexts_text_cons] at htop
    have hrest := ih hlinks hdash.2 htop.2 hjoined
    rw [condensed_text, hdash.1.spellDashes_eq, outlines, ← hrest]
    cases hcondensed : rest.condensed with
    | nil | node => rfl
    | text u more =>
      rw [hcondensed] at hrest
      cases rest with
      | nil => simp at hcondensed
      | text u' more' => exact absurd rfl (htop.1 u')
      | node => simp [outlines] at hrest
  | node id k below rest ihb ihr =>
    simp only [children, noNeighbouringTexts_node_cons] at htop
    rw [condensed_node hlinks.1, outlines, outlines, ihb hlinks.2.1 hdash.1 hjoined.1 hjoined.2.1,
      ihr hlinks.2.2 hdash.2 htop hjoined.2.2]

end HtmlMarkdown.Document.Forest
