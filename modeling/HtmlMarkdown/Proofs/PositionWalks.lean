import HtmlMarkdown.Proofs.BreakScan
import HtmlMarkdown.Proofs.Normalize

/-!
The passes that set a whole list at once, as walks over the positions of the list. A walk reads and
changes one entry at a time, and each position that it reads or changes must be in use. Main
statement: bringing a tree into normal form by these walks leaves the same tree, so that no position
is ever out of range.
-/
namespace HtmlMarkdown.Document.Tree

variable {t t' : Tree} {owner id : NodeId} {c : Child} {X cs rest gone : List Child} {bound : Nat}
  {s u : String} {pass other : NodeId → Edit Unit}

/-! What is left of a list. -/

theorem setChildren_self (t : Tree) (owner : NodeId) :
    t.setChildren owner (t.children owner) = t := by
  refine ext_node (size_update ..) fun (x : Nat) => ?_
  rw [setChildren, node_update]
  split
  next h => rw [h.1]; rfl
  next => rfl

theorem setChildren_reparent (t : Tree) (owner : NodeId) (cs gone : List Child)
    (above : Option NodeId) :
    (t.reparent gone above).setChildren owner cs =
      (t.setChildren owner cs).reparent gone above := by
  have hsize : ((t.reparent gone above).setChildren owner cs).size =
      ((t.setChildren owner cs).reparent gone above).size := by
    simp only [size_setChildren, size_reparent]
  refine ext_node hsize fun (x : Nat) => ?_
  simp only [setChildren, node_update, node_reparent, size_update, size_reparent]
  split <;> split <;> rfl

theorem name_setChildren (t : Tree) (owner x : NodeId) (cs : List Child) :
    (t.setChildren owner cs).name x = t.name x := by
  rw [name_eq, setChildren, node_update]
  split <;> rfl

theorem rewriteTexts_of_ne (f : List Child → List Child) (hname : t.name owner ≠ .separator) :
    rewriteTexts f owner t = .ok () (t.setChildren owner (f (t.children owner))) := by
  simp only [rewriteTexts, if_neg hname]
  split
  next hsame => rw [hsame, setChildren_self]
  next => rfl

/-- The list of a separator is only looked at. -/
theorem rewriteTexts_of_separator {f : List Child → List Child}
    (hname : t.name owner = .separator) (hchange : f (t.children owner) ≠ t.children owner) :
    rewriteTexts f owner t = .error .childOfSeparator t := by
  simp only [rewriteTexts, if_pos hname, if_neg hchange]

theorem rewriteTexts_of_eq {f : List Child → List Child}
    (hsame : f (t.children owner) = t.children owner) : rewriteTexts f owner t = .ok () t := by
  simp only [rewriteTexts, if_pos hsame]

/-- A text takes the place of a text. -/
theorem setChild_text (hname : t.name owner ≠ .separator)
    (hlist : t.children owner = X ++ .text s :: rest) :
    setChild owner X.length (.text u) t =
      .ok () (t.setChildren owner (X ++ .text u :: rest)) := by
  have hset : replaceChild owner X.length (.text u) t = _ := replaceChild_eq hlist
  rw [if_neg hname] at hset
  rw [setChild, bind_of_ok hset, detach, attach, setChildren_setChildren]
  simp only [List.append_assoc, List.singleton_append]
  rfl

theorem setChild_of_separator (hname : t.name owner = .separator)
    (hlist : t.children owner = X ++ c :: rest) :
    setChild owner X.length (.text u) t = .error .childOfSeparator t := by
  have hset : replaceChild owner X.length (.text u) t = _ := replaceChild_eq hlist
  rw [if_pos hname] at hset
  rw [setChild, bind_of_error hset]

/-! Joining texts. -/

/-- Puts one text in the place of two, of which the first has the position. -/
def joinAt (owner : NodeId) (position : Nat) (s u : String) : Edit Unit := do
  setChild owner position (.text (s ++ u))
  let _ ← removeChild owner (position + 1)

/-- Goes through the list of `owner` from the position on, in at most `bound` steps, and joins each
text with the one behind it. -/
def scanTexts (owner : NodeId) : (bound position : Nat) → Edit Unit
  | 0, _ => pure ()
  | bound + 1, position => do
    let t ← get
    if (t.children owner).length ≤ position + 1 then pure ()
    else
      let first ← childAt owner position
      let second ← childAt owner (position + 1)
      match first, second with
      | .text s, .text u =>
        joinAt owner position s u
        scanTexts owner bound position
      | _, _ => scanTexts owner bound (position + 1)

theorem joinTexts_text_text (s u : String) (rest : List Child) :
    joinTexts (.text s :: .text u :: rest) = joinTexts (.text (s ++ u) :: rest) := by
  simp only [joinTexts]
  cases joinTexts rest with
  | nil => rfl
  | cons c more =>
    cases c with
    | text v => simp only [String.append_assoc]
    | node id => rfl

theorem length_joinTexts_le (cs : List Child) : (joinTexts cs).length ≤ cs.length := by
  fun_induction joinTexts cs <;> grind

/-- Between two entries that are not both texts nothing is joined. -/
theorem joinTexts_cons {second : Child} (h : ∀ s u, ¬ (c = .text s ∧ second = .text u)) :
    joinTexts (c :: second :: rest) = c :: joinTexts (second :: rest) := by
  cases c with
  | node id => rfl
  | text s =>
    cases second with
    | node id => rfl
    | text u => exact absurd ⟨rfl, rfl⟩ (h s u)

theorem joinAt_eq (hname : t.name owner ≠ .separator)
    (hlist : t.children owner = X ++ .text s :: .text u :: rest) :
    joinAt owner X.length s u t =
      .ok () (t.setChildren owner (X ++ .text (s ++ u) :: rest)) := by
  let t₁ := t.setChildren owner (X ++ .text (s ++ u) :: .text u :: rest)
  have howner : owner < t.size := lt_size_of_children_ne_nil (by simp [hlist])
  have hset : setChild owner X.length (.text (s ++ u)) t = .ok () t₁ := setChild_text hname hlist
  have hlist₁ : t₁.children owner = (X ++ [.text (s ++ u)]) ++ .text u :: rest := by
    rw [children_setChildren howner, if_pos rfl, List.append_assoc, List.singleton_append]
  have hremove := removeChild_eq hlist₁
  rw [List.length_append, List.length_singleton] at hremove
  rw [joinAt, bind_of_ok hset, bind_of_ok hremove, detach, setChildren_setChildren,
    List.append_assoc, List.singleton_append]
  rfl

theorem joinAt_of_separator (hname : t.name owner = .separator)
    (hlist : t.children owner = X ++ c :: rest) :
    joinAt owner X.length s u t = .error .childOfSeparator t :=
  bind_of_error (setChild_of_separator hname hlist)

/-! The two kinds of steps. -/

theorem scanTexts_join (hlist : t.children owner = X ++ .text s :: .text u :: rest) :
    scanTexts owner (bound + 1) X.length t =
      (do joinAt owner X.length s u; scanTexts owner bound X.length : Edit Unit) t := by
  have hnext : t.children owner = (X ++ [.text s]) ++ .text u :: rest := by
    rw [hlist, List.append_assoc, List.singleton_append]
  have hsecond := childAt_eq hnext
  rw [List.length_append, List.length_singleton] at hsecond
  rw [scanTexts, get_bind, hlist, if_neg (by simp), bind_of_ok (childAt_eq hlist),
    bind_of_ok hsecond]

theorem scanTexts_skip {second : Child} (hlist : t.children owner = X ++ c :: second :: rest)
    (h : ∀ s u, ¬ (c = .text s ∧ second = .text u)) :
    scanTexts owner (bound + 1) X.length t = scanTexts owner bound (X ++ [c]).length t := by
  have hnext : t.children owner = (X ++ [c]) ++ second :: rest := by
    rw [hlist, List.append_assoc, List.singleton_append]
  have hsecond := childAt_eq hnext
  rw [List.length_append, List.length_singleton] at hsecond ⊢
  rw [scanTexts, get_bind, hlist, if_neg (by simp), bind_of_ok (childAt_eq hlist),
    bind_of_ok hsecond]
  cases c with
  | node id => rfl
  | text s =>
    cases second with
    | node id => rfl
    | text u => exact absurd ⟨rfl, rfl⟩ (h s u)

/-- The walk stands behind `X`, and what it leaves of the rest is the list with its texts joined. A
join makes the rest shorter, so the induction is on the steps that are left. -/
theorem scanTexts_eq (hlist : t.children owner = X ++ cs) (hbound : cs.length ≤ bound) :
    scanTexts owner bound X.length t = rewriteTexts (fun _ => X ++ joinTexts cs) owner t := by
  induction bound generalizing t X cs with
  | zero =>
    obtain rfl := List.length_eq_zero_iff.1 (Nat.le_zero.1 hbound)
    exact (rewriteTexts_of_eq hlist.symm).symm
  | succ bound ih =>
    match cs, hlist, hbound with
    | [], hlist, _ =>
      rw [scanTexts, get_bind, hlist, if_pos (by simp)]
      exact (rewriteTexts_of_eq hlist.symm).symm
    | [c], hlist, _ =>
      have hjoined : joinTexts [c] = [c] := by
        cases c <;> rfl
      rw [scanTexts, get_bind, hlist, if_pos (by simp), hjoined]
      exact (rewriteTexts_of_eq hlist.symm).symm
    | c :: second :: rest, hlist, hbound =>
      by_cases htexts : ∃ s u, c = .text s ∧ second = .text u
      · obtain ⟨s, u, rfl, rfl⟩ := htexts
        rw [scanTexts_join hlist, joinTexts_text_text]
        by_cases hname : t.name owner = .separator
        · -- The first join fails, and the list with its texts joined is a shorter one.
          have hshort := length_joinTexts_le (.text (s ++ u) :: rest)
          have hchange : X ++ joinTexts (.text (s ++ u) :: rest) ≠ t.children owner := by
            intro hsame
            have hlength := congrArg List.length hsame
            simp only [hlist, List.length_append, List.length_cons] at hlength hshort
            omega
          rw [bind_of_error (joinAt_of_separator hname hlist),
            rewriteTexts_of_separator hname hchange]
        · have howner : owner < t.size := lt_size_of_children_ne_nil (by simp [hlist])
          let t₁ := t.setChildren owner (X ++ .text (s ++ u) :: rest)
          have hlist₁ : t₁.children owner = X ++ .text (s ++ u) :: rest := by
            rw [children_setChildren howner, if_pos rfl]
          have hname₁ : t₁.name owner ≠ .separator := by
            rwa [name_setChildren]
          rw [bind_of_ok (joinAt_eq hname hlist), ih hlist₁ (Nat.le_of_succ_le_succ hbound),
            rewriteTexts_of_ne _ hname₁, rewriteTexts_of_ne _ hname, setChildren_setChildren]
      · have hapart : ∀ s u, ¬ (c = .text s ∧ second = .text u) :=
          fun s u h => htexts ⟨s, u, h⟩
        have hnext : t.children owner = (X ++ [c]) ++ second :: rest := by
          rw [hlist, List.append_assoc, List.singleton_append]
        rw [scanTexts_skip hlist hapart, ih hnext (Nat.le_of_succ_le_succ hbound),
          joinTexts_cons hapart, List.append_assoc, List.singleton_append]

/-- Joins neighbouring texts one pair at a time. -/
def joinByPositions (owner : NodeId) : Edit Unit := do
  let t ← get
  scanTexts owner (t.children owner).length 0

theorem joinByPositions_eq : joinByPositions = concatenateStrings := by
  funext owner t
  exact scanTexts_eq (X := []) rfl (Nat.le_refl _)

/-! Spelling dashes. -/

/-- Spells the dashes of the entry at the position, if it is a text that has any. -/
def spellAt (owner : NodeId) (position : Nat) : Edit Unit := do
  let child ← childAt owner position
  match child with
  | .text s =>
    if '—' ∈ s.toList then setChild owner position (.text (Document.spellDashes s)) else pure ()
  | .node _ => pure ()

/-- Spells the dashes of `count` entries, of which the first has the position. -/
def scanDashes (owner : NodeId) : (count position : Nat) → Edit Unit
  | 0, _ => pure ()
  | count + 1, position => do
    spellAt owner position
    scanDashes owner count (position + 1)

theorem spellAt_eq (hlist : t.children owner = X ++ c :: rest) :
    spellAt owner X.length t =
      rewriteTexts (fun _ => X ++ c.spellDashes :: rest) owner t := by
  rw [spellAt, bind_of_ok (childAt_eq hlist)]
  cases c with
  | node id => exact (rewriteTexts_of_eq hlist.symm).symm
  | text s =>
    simp only [Child.spellDashes]
    split_ifs with hdash
    · have hchange : Document.spellDashes s ≠ s := by
        intro hsame
        have hnone := noDash_spellDashes s
        rw [hsame] at hnone
        exact hnone hdash
      by_cases hname : t.name owner = .separator
      · rw [setChild_of_separator hname hlist, rewriteTexts_of_separator hname]
        simpa [hlist] using hchange
      · rw [setChild_text hname hlist, rewriteTexts_of_ne _ hname]
    · rw [NoDash.spellDashes_eq hdash, rewriteTexts_of_eq hlist.symm]
      rfl

theorem scanDashes_eq (hlist : t.children owner = X ++ cs) :
    scanDashes owner cs.length X.length t =
      rewriteTexts (fun _ => X ++ cs.map Child.spellDashes) owner t := by
  induction cs generalizing t X with
  | nil => exact (rewriteTexts_of_eq hlist.symm).symm
  | cons c rest ih =>
    have hstep := spellAt_eq hlist
    rw [List.length_cons, scanDashes]
    by_cases hsame : c.spellDashes = c
    · have hnext : t.children owner = (X ++ [c]) ++ rest := by
        rw [hlist, List.append_assoc, List.singleton_append]
      have hon := ih hnext
      rw [List.length_append, List.length_singleton] at hon
      rw [hsame, rewriteTexts_of_eq hlist.symm] at hstep
      rw [bind_of_ok hstep, hon, List.map_cons, hsame, List.append_assoc, List.singleton_append]
    by_cases hname : t.name owner = .separator
    · rw [rewriteTexts_of_separator hname (by simpa [hlist] using hsame)] at hstep
      rw [bind_of_error hstep, rewriteTexts_of_separator hname]
      simp [hlist, hsame]
    · have howner : owner < t.size := lt_size_of_children_ne_nil (by simp [hlist])
      let t₁ := t.setChildren owner (X ++ c.spellDashes :: rest)
      have hlist₁ : t₁.children owner = (X ++ [c.spellDashes]) ++ rest := by
        rw [children_setChildren howner, if_pos rfl, List.append_assoc, List.singleton_append]
      have hname₁ : t₁.name owner ≠ .separator := by
        rwa [name_setChildren]
      have hon := ih hlist₁
      rw [List.length_append, List.length_singleton] at hon
      rw [rewriteTexts_of_ne _ hname] at hstep
      rw [bind_of_ok hstep, hon, rewriteTexts_of_ne _ hname₁, rewriteTexts_of_ne _ hname,
        setChildren_setChildren, List.map_cons, List.append_assoc, List.singleton_append]

/-- Spells dashes one text at a time. -/
def spellByPositions (owner : NodeId) : Edit Unit := do
  let t ← get
  scanDashes owner (t.children owner).length 0

theorem spellByPositions_eq : spellByPositions = replaceEmDashes := by
  funext owner t
  exact scanDashes_eq (X := []) rfl

/-! Dropping empty links. -/

/-- Goes through the list of `owner` from the position on, in at most `bound` steps, and takes
each empty link out of it. -/
def scanEmptyLinks (owner : NodeId) : (bound position : Nat) → Edit Unit
  | 0, _ => pure ()
  | bound + 1, position => do
    let t ← get
    if (t.children owner).length ≤ position then pure ()
    else
      let child ← childAt owner position
      if t.isEmptyLink child then
        let _ ← removeChild owner position
        scanEmptyLinks owner bound position
      else scanEmptyLinks owner bound (position + 1)

/-- Taking an entry out of a list makes no other entry an empty link, nor a link one with
contents. -/
theorem isEmptyLink_detach (hlist : t.children owner = X ++ c :: rest) {d : Child} (hd : d ∈ rest) :
    (t.detach owner X [c] rest).isEmptyLink d = t.isEmptyLink d := by
  have howner : owner < t.size := lt_size_of_children_ne_nil (by simp [hlist])
  cases d with
  | text s => rfl
  | node x =>
    have hname : (t.detach owner X [c] rest).name x = t.name x := by
      rw [detach, name_eq, node_reparent, size_setChildren]
      split <;> exact name_setChildren t owner x (X ++ rest)
    simp only [isEmptyLink, hname, children_detach howner]
    by_cases hx : x = owner
    · -- A node that lists itself has contents before and after.
      subst hx
      have hafter : X ++ rest ≠ [] := List.append_ne_nil_of_right_ne_nil X (List.ne_nil_of_mem hd)
      have hbefore : X ++ c :: rest ≠ [] := by simp
      rw [if_pos rfl, hlist, List.isEmpty_eq_false_iff.2 hafter,
        List.isEmpty_eq_false_iff.2 hbefore]
    · rw [if_neg hx]

theorem scanEmptyLinks_eq {isEmpty : Child → Bool} (hlist : t.children owner = X ++ cs)
    (hempty : ∀ c ∈ cs, t.isEmptyLink c = isEmpty c) (hbound : cs.length ≤ bound) :
    scanEmptyLinks owner bound X.length t =
      .ok () ((t.setChildren owner (X ++ cs.filter fun c => !isEmpty c)).reparent
        (cs.filter isEmpty) none) := by
  induction bound generalizing t X cs with
  | zero =>
    obtain rfl := List.length_eq_zero_iff.1 (Nat.le_zero.1 hbound)
    rw [List.filter_nil, List.filter_nil, ← hlist, setChildren_self]
    rfl
  | succ bound ih =>
    cases cs with
    | nil =>
      rw [scanEmptyLinks, get_bind, hlist, if_pos (by simp), List.filter_nil, List.filter_nil,
        ← hlist, setChildren_self]
      rfl
    | cons c rest =>
      have hfewer : rest.length ≤ bound := Nat.le_of_succ_le_succ hbound
      have hrest : ∀ d ∈ rest, t.isEmptyLink d = isEmpty d :=
        fun d hd => hempty d (List.mem_cons_of_mem c hd)
      rw [scanEmptyLinks, get_bind, hlist, if_neg (by simp), bind_of_ok (childAt_eq hlist),
        hempty c (List.mem_cons_self ..)]
      by_cases hc : isEmpty c = true
      · have howner : owner < t.size := lt_size_of_children_ne_nil (by simp [hlist])
        have hlist₁ : (t.detach owner X [c] rest).children owner = X ++ rest := by
          rw [children_detach howner, if_pos rfl]
        have hempty₁ : ∀ d ∈ rest, (t.detach owner X [c] rest).isEmptyLink d = isEmpty d := by
          intro d hd
          rw [isEmptyLink_detach hlist hd, hrest d hd]
        rw [if_pos hc, bind_of_ok (removeChild_eq hlist), ih hlist₁ hempty₁ hfewer, detach,
          setChildren_reparent, setChildren_setChildren, List.filter_cons_of_pos hc,
          List.filter_cons_of_neg (by simp [hc])]
        rfl
      · have hnext : t.children owner = (X ++ [c]) ++ rest := by
          rw [hlist, List.append_assoc, List.singleton_append]
        have hon := ih hnext hrest hfewer
        rw [List.length_append, List.length_singleton] at hon
        rw [if_neg hc, hon, List.filter_cons_of_neg hc, List.filter_cons_of_pos (by simp [hc]),
          List.append_assoc, List.singleton_append]

/-- Drops empty links one at a time. -/
def dropByPositions (owner : NodeId) : Edit Unit := do
  let t ← get
  scanEmptyLinks owner (t.children owner).length 0

theorem dropByPositions_eq : dropByPositions = removeEmptyLinks := by
  funext owner t
  exact scanEmptyLinks_eq (X := []) rfl (fun _ _ => rfl) (Nat.le_refl _)

/-! Dissolving nodes. -/

theorem length_children_le_edgeCount (t : Tree) (owner : NodeId) :
    (t.children owner).length ≤ t.edgeCount := by
  by_cases howner : owner < t.size
  · have h := edgeCount_setChildren t owner [] howner
    rw [List.length_nil, Nat.add_zero] at h
    omega
  · rw [children_eq, node_of_not_lt howner]
    exact Nat.zero_le _

/-- Goes through the list of `owner` from the position on, in at most `bound` steps. A node of the
given name is made ready and gives its place to its children, which are looked at next. -/
def scanNamed (name : Kind.Name) (prepare : NodeId → Tree → Tree) (owner : NodeId) :
    (bound position : Nat) → Edit Unit
  | 0, _ => pure ()
  | bound + 1, position => do
    let t ← get
    if (t.children owner).length ≤ position then pure ()
    else
      let child ← childAt owner position
      match child with
      | .text _ => scanNamed name prepare owner bound (position + 1)
      | .node id =>
        if t.name id = name then
          modify (prepare id)
          replaceWithChildren id
          scanNamed name prepare owner bound position
        else scanNamed name prepare owner bound (position + 1)

variable {name : Kind.Name} {prepare : NodeId → Tree → Tree}
  {keeps : ∀ id t, (prepare id t).edgeCount = t.edgeCount} {position : Nat}

theorem childAt_of_getElem? (h : (t.children owner)[position]? = some c) :
    childAt owner position t = .ok c t := by
  simp only [childAt, h]

/-- With each step there is one position less ahead of the walk or one entry less in all lists, so
there are no more steps than entries. -/
theorem scanNamed_eq (hbound : t.edgeCount ≤ bound + position) :
    scanNamed name prepare owner bound position t =
      dissolveFrom name prepare keeps owner position t := by
  have hlength := length_children_le_edgeCount t owner
  induction bound generalizing t position with
  | zero =>
    have hend : (t.children owner)[position]? = none := List.getElem?_eq_none (by omega)
    rw [dissolveFrom_of_none hend]
    rfl
  | succ bound ih =>
    rw [scanNamed, get_bind]
    by_cases hend : (t.children owner).length ≤ position
    · rw [if_pos hend, dissolveFrom_of_none (List.getElem?_eq_none hend)]
      rfl
    obtain ⟨c, hc⟩ : ∃ c, (t.children owner)[position]? = some c :=
      ⟨_, List.getElem?_eq_getElem (Nat.not_le.1 hend)⟩
    have hrest : t.edgeCount ≤ bound + (position + 1) := by omega
    rw [if_neg hend, bind_of_ok (childAt_of_getElem? hc)]
    cases c with
    | text s =>
      rw [dissolveFrom_of_text hc]
      exact ih hrest hlength
    | node id =>
      by_cases hname : t.name id = name
      · have hready : (modify (prepare id) : Edit Unit) t = .ok () (prepare id t) := rfl
        simp only [if_pos hname]
        rw [bind_of_ok hready]
        cases hrun : replaceWithChildren id (prepare id t) with
        | ok u t₁ =>
          have hfewer := edgeCount_replaceWithChildren hrun
          rw [keeps] at hfewer
          rw [bind_of_ok hrun, dissolveFrom_of_eq hc hname hrun]
          exact ih (by omega) (length_children_le_edgeCount t₁ owner)
        | error fault t₁ => rw [bind_of_error hrun, dissolveFrom_of_error hc hname hrun]
      · simp only [if_neg hname]
        rw [dissolveFrom_of_ne hc hname]
        exact ih hrest hlength

/-- Lets every node of the given name in the list of `owner` give its place to its children. -/
def dissolveByPositions (name : Kind.Name) (prepare : NodeId → Tree → Tree) (owner : NodeId) :
    Edit Unit := do
  let t ← get
  scanNamed name prepare owner t.edgeCount 0

theorem dissolveByPositions_link_eq :
    dissolveByPositions .link (fun _ t => t) = removeLinks := by
  funext owner t
  exact scanNamed_eq (Nat.le_refl _)

theorem dissolveByPositions_orderedList_eq :
    dissolveByPositions .orderedList (fun list t => t.numberItems 1 (t.children list)) =
      numberLists := by
  funext owner t
  exact scanNamed_eq (Nat.le_refl _)

/-- Lets code that is the only child of a preformatted node give its place to its contents. -/
def collapseByPositions (owner : NodeId) : Edit Unit := do
  let t ← get
  if t.name owner ≠ .preformatted ∨ (t.children owner).length ≠ 1 then pure ()
  else
    let child ← childAt owner 0
    match child with
    | .text _ => pure ()
    | .node code => if t.name code = .code then replaceWithChildren code else pure ()

theorem collapseByPositions_eq : collapseByPositions = collapseCodeInsidePre := by
  funext owner t
  rw [collapseByPositions, get_bind]
  by_cases hskip : t.name owner ≠ .preformatted ∨ (t.children owner).length ≠ 1
  · rw [if_pos hskip]
    simp only [collapseCodeInsidePre]
    split
    next code hlist =>
      have hname : t.name owner ≠ .preformatted := hskip.resolve_right (by simp [hlist])
      rw [if_neg fun h => hname h.1]
      rfl
    next => rfl
  · simp only [not_or, not_not] at hskip
    obtain ⟨c, hlist⟩ := List.length_eq_one_iff.1 hskip.2
    have hchild : childAt owner 0 t = .ok c t := childAt_eq (X := []) (Y := []) hlist
    rw [if_neg (by simp [hskip]), bind_of_ok hchild]
    cases c with
    | text s =>
      simp only [collapseCodeInsidePre, hlist]
      rfl
    | node code =>
      simp only [collapseCodeInsidePre, hlist, hskip.1, true_and]
      split <;> rfl

/-! Making separators of breaks. -/

/-- Makes separators of line breaks one pair at a time. -/
def pairByPositions (owner : NodeId) : Edit Unit := do
  let t ← get
  scanBreaks owner (t.children owner).length 0

theorem twoBreaksMakeOneSeparator_of_nil (hnil : t.children owner = []) :
    twoBreaksMakeOneSeparator owner t = .ok () t := by
  have hself : t.setChildren owner [] = t := by
    rw [← hnil, setChildren_self]
  simp only [twoBreaksMakeOneSeparator, hnil, firstPair?, pairBreaks, List.filter_nil]
  split
  next _ hpair => cases hpair
  next => exact congrArg (EStateM.Result.ok ()) hself

/-- On every node of a held forest both passes have the same outcome. -/
def SameOnHeld (pass other : NodeId → Edit Unit) : Prop :=
  ∀ (t : Tree) (above : Option NodeId) (id : NodeId) (k : Kind) (F : Forest),
    t.Holds above (.node id k F .nil) → (Forest.node id k F .nil).ids.Nodup →
    (k = .separator → F = .nil) → pass id t = other id t

theorem SameOnHeld.of_eq (h : pass = other) : SameOnHeld pass other :=
  fun _ _ id _ _ _ _ _ => by rw [h]

theorem sameOnHeld_pairByPositions :
    SameOnHeld twoBreaksMakeOneSeparator pairByPositions := by
  intro t above id k F h hnd hsep
  obtain ⟨hown, -⟩ := Forest.nodup_ids_node.1 hnd
  have hmem {x : NodeId} (hx : .node x ∈ t.children id) : x ∈ F.ids := by
    rw [h.children_eq] at hx
    exact Forest.mem_ids_of_mem_children hx
  by_cases hname : t.name id = .separator
  · -- A separator has nothing to look at.
    have hnil : t.children id = [] := by
      rw [h.name_eq, Kind.eq_separator_iff] at hname
      rw [h.children_eq, hsep hname]
      rfl
    rw [twoBreaksMakeOneSeparator_of_nil hnil, pairByPositions, get_bind, hnil]
    rfl
  · have hstart : ScansFrom (t.isNamed · .lineBreak) id t [] (t.children id) := by
      refine ⟨h.1.1, hname, rfl, fun x hx => ⟨h.2.1.lt_size x (hmem hx), ?_⟩, fun _ _ => rfl⟩
      rintro rfl
      exact hown (hmem hx)
    rw [twoBreaksMakeOneSeparator_eq_pairedUp hname fun x hx => h.2.1.lt_size x (hmem hx)]
    exact (scanBreaks_eq_afterPairing t.size (t.children id) rfl hstart (Nat.le_refl _)).symm

/-! All passes. -/

/-- The passes, of which those that dissolve nodes count their steps. Such a pass can be run on a
given tree, as `dissolveFrom` cannot. -/
def countedPasses (withoutLinks : Bool) : List (NodeId → Edit Unit) :=
  [concatenateStrings, replaceEmDashes, removeEmptyLinks]
    ++ (if withoutLinks then [dissolveByPositions .link fun _ t => t] else [])
    ++ [collapseCodeInsidePre,
      dissolveByPositions .orderedList fun list t => t.numberItems 1 (t.children list),
      twoBreaksMakeOneSeparator, concatenateStrings]

theorem normalize_eq_countedPasses (w : Bool) :
    normalize w = (countedPasses w).forM fun pass => visit pass root := by
  rw [normalize, passes, countedPasses, dissolveByPositions_link_eq,
    dissolveByPositions_orderedList_eq]

/-- The passes, each as a walk over positions. -/
def passesByPositions (withoutLinks : Bool) : List (NodeId → Edit Unit) :=
  [joinByPositions, spellByPositions, dropByPositions]
    ++ (if withoutLinks then [dissolveByPositions .link fun _ t => t] else [])
    ++ [collapseByPositions,
      dissolveByPositions .orderedList fun list t => t.numberItems 1 (t.children list),
      pairByPositions, joinByPositions]

theorem sameOnHeld_passes (w : Bool) :
    List.Forall₂ SameOnHeld (passes w) (passesByPositions w) := by
  have hlast := List.Forall₂.cons (SameOnHeld.of_eq collapseByPositions_eq.symm)
    (.cons (.of_eq dissolveByPositions_orderedList_eq.symm) (.cons sameOnHeld_pairByPositions
      (.cons (.of_eq joinByPositions_eq.symm) .nil)))
  refine .cons (.of_eq joinByPositions_eq.symm) (.cons (.of_eq spellByPositions_eq.symm)
    (.cons (.of_eq dropByPositions_eq.symm) ?_))
  cases w with
  | false => exact hlast
  | true => exact .cons (.of_eq dissolveByPositions_link_eq.symm) hlast

/-! Walks of passes that do the same. -/

/-- What the second edit achieves, the first does as well. -/
def Includes {α : Type} (e e' : Edit α) : Prop :=
  ∀ t a t', e' t = .ok a t' → e t = .ok a t'

theorem exists_of_bind_eq {α β : Type} {e : Edit α} {f : α → Edit β} {b : β}
    (h : (e >>= f) t = .ok b t') : ∃ a t₁, e t = .ok a t₁ ∧ f a t₁ = .ok b t' := by
  cases he : e t with
  | ok a t₁ =>
    rw [bind_of_ok he] at h
    exact ⟨a, t₁, rfl, h⟩
  | error fault t₁ =>
    rw [bind_of_error he] at h
    cases h

theorem includes_bind {α β : Type} {e e' : Edit α} {f f' : α → Edit β} (he : Includes e e')
    (hf : ∀ a, Includes (f a) (f' a)) : Includes (e >>= f) (e' >>= f') := by
  intro t b t' hrun
  obtain ⟨a, t₁, hfirst, hrest⟩ := exists_of_bind_eq hrun
  rw [bind_of_ok (he t a t₁ hfirst)]
  exact hf a t₁ b t' hrest

theorem includes_forM {α : Type} {f f' : α → Edit Unit} (h : ∀ a, Includes (f a) (f' a))
    (as : List α) : Includes (as.forM f) (as.forM f') := by
  induction as with
  | nil => exact fun _ _ _ hrun => hrun
  | cons a as ih => exact includes_bind (h a) fun _ => ih

theorem includes_visitTo {pass pass' : NodeId → Edit Unit} (h : ∀ id, Includes (pass id) (pass' id))
    (depth : Nat) : ∀ id, Includes (visitTo pass depth id) (visitTo pass' depth id) := by
  induction depth with
  | zero => exact fun _ _ _ _ hrun => hrun
  | succ depth ih =>
    intro id
    rw [visitTo, visitTo]
    refine includes_bind (h id) fun _ => includes_bind (fun _ _ _ hrun => hrun) fun t => ?_
    exact includes_forM ih _

theorem includes_visit {pass pass' : NodeId → Edit Unit}
    (h : ∀ id, Includes (pass id) (pass' id)) (id : NodeId) :
    Includes (visit pass id) (visit pass' id) :=
  includes_bind (fun _ _ _ hrun => hrun) fun t => includes_visitTo h t.size id

/-- The first pass where the other one has the same outcome, and else a failure. -/
def agreed (pass other : NodeId → Edit Unit) (id : NodeId) : Edit Unit := fun t =>
  if pass id t = other id t then pass id t else .error .outOfRange t

theorem includes_agreed_left (pass other : NodeId → Edit Unit) (id : NodeId) :
    Includes (pass id) (agreed pass other id) := by
  intro t a t' hrun
  unfold agreed at hrun
  split at hrun
  next => exact hrun
  next => cases hrun

theorem includes_agreed_right (pass other : NodeId → Edit Unit) (id : NodeId) :
    Includes (other id) (agreed pass other id) := by
  intro t a t' hrun
  unfold agreed at hrun
  split at hrun
  next hsame => exact hsame ▸ hrun
  next => cases hrun

/-- On a held forest the agreement is there, so this pass takes the step of the first one. -/
theorem realizes_agreed {n : Nat} {Step : Kind → Forest → Forest → Prop}
    (hpass : Realizes n pass Step) (h : SameOnHeld pass other) :
    Realizes n (agreed pass other) Step := by
  intro t above id k F hn hholds hnd hsep
  have hrun : agreed pass other id t = pass id t := if_pos (h t above id k F hholds hnd hsep)
  rw [hrun]
  exact hpass t above id k F hn hholds hnd hsep

variable {n : Nat} {F : Forest} {Step : Kind → Forest → Forest → Prop}

/-- A walk over a whole tree only comes to nodes of a forest that is held, so passes that do the
same there leave the same tree. -/
theorem visit_eq (hpass : Realizes n pass Step)
    (hstep : ∀ k F F', Step k F F' → Forest.Rewrites n F F') (hsame : SameOnHeld pass other)
    (hn : n ≤ t.size) (h : t.Spans F) : visit other root t = visit pass root t := by
  obtain ⟨t', -, hrun, -⟩ := visit_runs (realizes_agreed hpass hsame) hstep hn h
  rw [includes_visit (includes_agreed_left pass other) root t () t' hrun,
    includes_visit (includes_agreed_right pass other) root t () t' hrun]

theorem forM_visit_eq {passes others : List (NodeId → Edit Unit)}
    {Steps : List (Kind → Forest → Forest → Prop)} (hall : List.Forall₂ (Realizes n) passes Steps)
    (hsteps : ∀ Step ∈ Steps, ∀ k F F', Step k F F' → Forest.Rewrites n F F')
    (hsame : List.Forall₂ SameOnHeld passes others) (hn : n ≤ t.size) (h : t.Spans F) :
    (others.forM fun pass => visit pass root) t = (passes.forM fun pass => visit pass root) t := by
  induction hall generalizing t F others with
  | nil =>
    cases hsame
    rfl
  | cons hpass _ ih =>
    cases hsame with
    | cons hfirst hrest =>
      have hstep := hsteps _ (List.mem_cons_self ..)
      obtain ⟨t₁, F₁, hrun, -, -, hspans, hbecomes⟩ := visit_runs hpass hstep hn h
      have hother := (visit_eq hpass hstep hfirst hn h).trans hrun
      have hlater := ih (fun Step hmem => hsteps Step (List.mem_cons_of_mem _ hmem)) hrest
        (Nat.le_trans hn hbecomes.size_le) hspans
      calc _ = _ := forM_cons_of_ok (f := fun pass => visit pass root) hother
        _ = _ := hlater
        _ = _ := (forM_cons_of_ok (f := fun pass => visit pass root) hrun).symm

/-- Bringing a tree into normal form one position at a time leaves the same tree. -/
theorem normalize_eq_passesByPositions (h : t.Spans F) (w : Bool) :
    ((passesByPositions w).forM fun pass => visit pass root) t = normalize w t :=
  forM_visit_eq (realizes_passes t.size w)
    (fun _ hmem _ _ _ hstep => Forest.rewrites_of_mem_steps hmem hstep) (sameOnHeld_passes w)
    (Nat.le_refl _) h

end HtmlMarkdown.Document.Tree
