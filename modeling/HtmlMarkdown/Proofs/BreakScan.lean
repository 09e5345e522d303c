import HtmlMarkdown.Proofs.BreakPairs

/-!
The pass that makes separators of line breaks as a walk over the positions of a list. The walk
removes, adds and replaces one entry at a time, while the position and the length of the list
move. The main statement is that it ends with the same table as the pass, which sets the whole list
at once: what a step leaves is the table of a small pass, and two passes put together are one.
-/
namespace HtmlMarkdown.Document.Tree

variable {t t' : Tree} {isBreak : Child → Bool} {owner : NodeId} {c : Child}
  {X cs rest paired paired' breaks breaks' : List Child} {m m' bound : Nat}

/-! The table. -/

theorem ext_node (hsize : t.size = t'.size) (hnode : ∀ x, t.node x = t'.node x) : t = t' := by
  cases t with
  | mk nodes =>
    cases t' with
    | mk nodes' =>
      rw [Tree.mk.injEq]
      refine Array.ext hsize fun i hi hi' => ?_
      have h := hnode i
      simpa [node, hi, hi'] using h

/-- The nodes of the list are in use, and `owner` is none of them. -/
def Besides (t : Tree) (owner : NodeId) (cs : List Child) : Prop :=
  ∀ x, .node x ∈ cs → x < t.size ∧ x ≠ owner

theorem node_afterPairing (howner : owner < t.size) (hbreaks : t.Besides owner breaks)
    (x : Nat) : (t.afterPairing owner paired breaks m).node x =
      if x = owner then { t.node x with children := paired }
      else if .node x ∈ breaks then { t.node x with parent := none }
      else if t.size ≤ x ∧ x < t.size + m then ⟨.separator, [], some owner⟩
      else t.node x := by
  by_cases hxb : .node x ∈ breaks
  · obtain ⟨hx, hne⟩ := hbreaks x hxb
    rw [if_neg hne, if_pos hxb, node_afterPairing_of_break howner hx hne hxb]
  rw [if_neg hxb]
  by_cases hx : x < t.size
  · rw [node_afterPairing_of_lt howner hx hxb, if_neg (show ¬ (t.size ≤ x ∧ _) by omega)]
  · have hne : x ≠ owner := fun he => hx (he ▸ howner)
    rw [if_neg hne]
    by_cases hm : x < t.size + m
    · rw [node_afterPairing_of_new howner (Nat.not_lt.1 hx) hm hxb, if_pos ⟨Nat.not_lt.1 hx, hm⟩]
    · rw [if_neg fun h => hm h.2, node_of_not_lt hx, node_of_not_lt (by rwa [size_afterPairing])]

theorem Besides.afterPairing (h : t.Besides owner breaks') :
    (t.afterPairing owner paired breaks m).Besides owner breaks' := by
  intro x hx
  rw [size_afterPairing]
  exact ⟨Nat.lt_add_right m (h x hx).1, (h x hx).2⟩

/-- A list that is changed again: the breaks of both times have gone. -/
theorem afterPairing_afterPairing (howner : owner < t.size) (hbreaks : t.Besides owner breaks)
    (hbreaks' : t.Besides owner breaks') :
    (t.afterPairing owner paired breaks m).afterPairing owner paired' breaks' m' =
      t.afterPairing owner paired' (breaks ++ breaks') (m + m') := by
  have hboth : t.Besides owner (breaks ++ breaks') := fun x hx =>
    (List.mem_append.1 hx).elim (hbreaks x) (hbreaks' x)
  have howner' : owner < (t.afterPairing owner paired breaks m).size := by
    rw [size_afterPairing]
    exact Nat.lt_add_right m howner
  refine ext_node ?_ fun (x : Nat) => ?_
  · simp only [size_afterPairing, Nat.add_assoc]
  rw [node_afterPairing howner' hbreaks'.afterPairing, node_afterPairing howner hbreaks,
    node_afterPairing howner hboth, size_afterPairing]
  by_cases hx : x = owner
  · simp only [if_pos hx]
  simp only [if_neg hx, List.mem_append]
  by_cases hxb' : .node x ∈ breaks'
  · have hlt := (hbreaks' x hxb').1
    by_cases hxb : .node x ∈ breaks
    · simp only [hxb, hxb', or_self, if_true]
    · simp only [hxb, hxb', false_or, if_true, if_false]
      rw [if_neg (by omega)]
  simp only [hxb', or_false, if_false]
  by_cases hxb : .node x ∈ breaks
  · have hlt := (hbreaks x hxb).1
    simp only [hxb, if_true]
    rw [if_neg (by omega)]
  simp only [hxb, if_false]
  by_cases hm : t.size ≤ x ∧ x < t.size + m
  · rw [if_neg (by omega), if_pos hm, if_pos (by omega)]
  · rw [if_neg hm]
    by_cases hm' : t.size + m ≤ x ∧ x < t.size + m + m'
    · rw [if_pos hm', if_pos (by omega)]
    · rw [if_neg hm', if_neg (by omega)]

/-- What the pass leaves of a table. -/
def pairedUp (t : Tree) (owner : NodeId) : Tree :=
  t.afterPairing owner (pairBreaks (t.isNamed · .lineBreak) t.size (t.children owner))
    ((t.children owner).filter (t.isNamed · .lineBreak))
    (pairCount (t.isNamed · .lineBreak) (t.children owner))

theorem twoBreaksMakeOneSeparator_eq_pairedUp (hname : t.name owner ≠ .separator)
    (hcs : ∀ x, .node x ∈ t.children owner → x < t.size) :
    twoBreaksMakeOneSeparator owner t = .ok () (t.pairedUp owner) := by
  have hfresh := filter_isFresh_eq (t.isNamed · .lineBreak) t.size (t.children owner) hcs
    (Nat.le_refl t.size)
  simp only [twoBreaksMakeOneSeparator]
  split
  next hsep _ => exact absurd hsep hname
  next => rw [hfresh, List.length_map, List.length_range', pairedUp, afterPairing]

/-! The walk over the positions. -/

/-- Tells whether a break is at the position of the list of `owner`. -/
def breakAt (owner : NodeId) (position : Nat) : Edit Bool := do
  let child ← childAt owner position
  return (← get).isNamed child .lineBreak

/-- Tells whether there is a position behind the given one, with a break at it. -/
def breakBehind (owner : NodeId) (position : Nat) : Edit Bool := do
  let t ← get
  if position + 1 < (t.children owner).length then breakAt owner (position + 1) else pure false

/-- Puts a new separator in the place of two entries, of which the first has the position. -/
def separateAt (owner : NodeId) (position : Nat) : Edit Unit := do
  let _ ← removeChild owner (position + 1)
  let separator ← modifyGet fun t => t.add .separator
  setChild owner position (.node separator)

/-- Goes through the list of `owner` from the position on, in at most `bound` steps. A step looks
at the entry and, if that is a break, at the one behind it. -/
def scanBreaks (owner : NodeId) : (bound position : Nat) → Edit Unit
  | 0, _ => pure ()
  | bound + 1, position => do
    let t ← get
    if (t.children owner).length ≤ position then pure ()
    else
      let first ← breakAt owner position
      if !first then scanBreaks owner bound (position + 1)
      else
        let second ← breakBehind owner position
        if second then
          separateAt owner position
          scanBreaks owner bound (position + 1)
        else
          let _ ← removeChild owner position
          scanBreaks owner bound position

theorem removeChild_eq_afterPairing (hlist : t.children owner = X ++ c :: rest) :
    removeChild owner X.length t = .ok c (t.afterPairing owner (X ++ rest) [c] 0) :=
  removeChild_eq hlist

/-- A node that takes the place of an entry is listed for it, and the entry is detached. -/
theorem exists_setChild {id : Nat} (howner : owner < t.size) (hname : t.name owner ≠ .separator)
    (hlist : t.children owner = X ++ c :: rest) (hid : id < t.size) (hne : id ≠ owner)
    (hold : t.Besides owner [c]) (hc : c ≠ .node id) :
    ∃ t', setChild owner X.length (.node id) t = .ok () t' ∧ t'.size = t.size ∧
      ∀ x : Nat, t'.node x =
        if x = owner then { t.node x with children := X ++ .node id :: rest }
        else if c = .node x then { t.node x with parent := none }
        else if x = id then { t.node x with parent := some owner }
        else t.node x := by
  have hset : replaceChild owner X.length (.node id) t = _ := replaceChild_eq hlist
  rw [if_neg hname] at hset
  refine ⟨_, by rw [setChild, bind_of_ok hset]; rfl, by rw [size_detach, size_attach], ?_⟩
  intro x
  rw [detach, attach, setChildren_setChildren, node_reparent, node_setChildren _ _ _ _ (by
    rw [size_reparent]; exact howner), node_reparent, size_setChildren, size_reparent]
  simp only [List.mem_singleton, Child.node.injEq, eq_comm (a := Child.node x)]
  by_cases hxc : c = .node x
  · obtain ⟨hlt, hx⟩ := hold x (by simp [hxc])
    have hxid : id ≠ x := fun h => hc (h ▸ hxc)
    simp [hxc, hlt, hx, hxid]
  by_cases hx : x = owner
  · subst hx
    simp [hxc, hne]
  · by_cases hxid : x = id
    · subst hxid
      simp [hxc, hx, hid]
    · simp [hxc, hx, hxid, Ne.symm hxid]

/-- One entry has been detached, and a separator is there that has no place yet. -/
theorem node_add_afterPairing (howner : owner < t.size) (hold : t.Besides owner [c])
    (paired : List Child) (x : Nat) :
    ((t.afterPairing owner paired [c] 0).add .separator).2.node x =
      if x = t.size then { kind := .separator }
      else if x = owner then { t.node x with children := paired }
      else if c = .node x then { t.node x with parent := none }
      else t.node x := by
  have hempty : ¬ (t.size ≤ x ∧ x < t.size + 0) := by omega
  rw [node_add, size_afterPairing, Nat.add_zero, node_afterPairing howner hold, if_neg hempty]
  simp only [List.mem_singleton, eq_comm (a := Child.node x)]

/-- A pair becomes a separator: three edits, whose outcome is compared node by node. -/
theorem separateAt_eq {second : Child} (howner : owner < t.size)
    (hname : t.name owner ≠ .separator) (hlist : t.children owner = X ++ c :: second :: rest)
    (hbreaks : t.Besides owner [c, second]) :
    separateAt owner X.length t =
      .ok () (t.afterPairing owner (X ++ .node t.size :: rest) [c, second] 1) := by
  let t₁ := t.afterPairing owner (X ++ c :: rest) [second] 0
  let t₂ := (t₁.add .separator).2
  have hfirst : t.Besides owner [c] := fun x hx => hbreaks x (by simp_all)
  have hsecond : t.Besides owner [second] := fun x hx => hbreaks x (by simp_all)
  have hsize₁ : t₁.size = t.size := size_afterPairing ..
  have hsize₂ : t₂.size = t.size + 1 := by rw [size_add, hsize₁]
  have hsplit : t.children owner = X ++ [c] ++ second :: rest := by
    rw [hlist, List.append_assoc, List.singleton_append]
  have hremove : removeChild owner (X.length + 1) t = .ok second t₁ := by
    have h := removeChild_eq_afterPairing hsplit
    simpa using h
  have hadd : (modifyGet fun t => t.add .separator : Edit NodeId) t₁ = .ok t.size t₂ := by
    rw [← hsize₁]
    rfl
  have hnode₂ (x : Nat) := node_add_afterPairing howner hsecond (X ++ c :: rest) x
  have hnew : t.size ≠ owner := Nat.ne_of_gt howner
  have hc : c ≠ .node t.size := fun hc => Nat.lt_irrefl _ (hbreaks t.size (by simp [hc])).1
  have hsecond' : second ≠ .node t.size := fun hs =>
    Nat.lt_irrefl _ (hbreaks t.size (by simp [hs])).1
  have hgrown {x : NodeId} (hx : x < t.size) : x < t₂.size := by
    rw [hsize₂]
    exact Nat.lt_succ_of_lt hx
  have hself : t₂.node owner = { t.node owner with children := X ++ c :: rest } := by
    rw [hnode₂, if_neg hnew.symm, if_pos rfl]
  have hname₂ : t₂.name owner ≠ .separator := by
    rw [name_eq, hself]
    exact hname
  have hlist₂ : t₂.children owner = X ++ c :: rest := by rw [children_eq, hself]
  have hid : t.size < t₂.size := by
    rw [hsize₂]
    exact Nat.lt_succ_self _
  obtain ⟨t', hset, hsize, hnode⟩ := exists_setChild (hgrown howner) hname₂ hlist₂ hid hnew
    (fun x hx => ⟨hgrown (hfirst x hx).1, (hfirst x hx).2⟩) hc
  rw [separateAt, bind_of_ok hremove, bind_of_ok hadd, hset]
  congr 1
  refine ext_node (by rw [hsize, hsize₂, size_afterPairing]) fun (x : Nat) => ?_
  rw [hnode, hnode₂, node_afterPairing howner hbreaks]
  simp only [List.mem_cons, List.not_mem_nil, or_false, eq_comm (a := Child.node x)]
  by_cases hxnew : x = t.size
  · subst hxnew
    simp [hnew, hc, hsecond']
  simp only [if_neg hxnew, if_neg (show ¬ (t.size ≤ x ∧ x < t.size + 1) by omega)]
  by_cases hx : x = owner
  · simp [hx]
  · by_cases hxc : c = .node x
    · simp only [hx, hxc, if_true, if_false, true_or]
      split <;> rfl
    · simp [hx, hxc]

theorem kind_afterPairing (howner : owner < t.size) (hbreaks : t.Besides owner breaks) {x : Nat}
    (hx : x < t.size) : (t.afterPairing owner paired breaks m).kind x = t.kind x := by
  rw [kind_eq, node_afterPairing howner hbreaks, if_neg (show ¬ (t.size ≤ x ∧ _) by omega)]
  split
  · rfl
  · split <;> rfl

/-- The walk stands between `X`, which it is done with, and `cs`, where `isBreak` says which of
the entries are breaks. -/
structure ScansFrom (isBreak : Child → Bool) (owner : NodeId) (t : Tree) (X cs : List Child) :
    Prop where
  owner_lt : owner < t.size
  name_ne : t.name owner ≠ .separator
  list_eq : t.children owner = X ++ cs
  besides : t.Besides owner cs
  isNamed_eq : ∀ c ∈ cs, t.isNamed c .lineBreak = isBreak c

namespace ScansFrom

variable {X' : List Child}

theorem not_length_le (h : ScansFrom isBreak owner t X (c :: rest)) :
    ¬ (t.children owner).length ≤ X.length := by
  rw [h.list_eq, List.length_append, List.length_cons]
  omega

theorem keep (h : ScansFrom isBreak owner t X (c :: rest)) :
    ScansFrom isBreak owner t (X ++ [c]) rest where
  owner_lt := h.owner_lt
  name_ne := h.name_ne
  list_eq := by rw [h.list_eq, List.append_assoc, List.singleton_append]
  besides := fun x hx => h.besides x (List.mem_cons_of_mem c hx)
  isNamed_eq := fun d hd => h.isNamed_eq d (List.mem_cons_of_mem c hd)

theorem breakAt_eq (h : ScansFrom isBreak owner t X (c :: rest)) :
    breakAt owner X.length t = .ok (isBreak c) t := by
  rw [breakAt, bind_of_ok (childAt_eq h.list_eq), get_bind, h.isNamed_eq c (List.mem_cons_self ..)]
  rfl

theorem breakBehind_eq (h : ScansFrom isBreak owner t X (c :: rest)) :
    breakBehind owner X.length t = .ok (rest.head?.any isBreak) t := by
  rw [breakBehind, get_bind, h.list_eq]
  cases rest with
  | nil =>
    rw [if_neg (by simp)]
    rfl
  | cons second rest =>
    have hbehind := h.keep.breakAt_eq
    rw [List.length_append, List.length_singleton] at hbehind
    rw [if_pos (by simp), hbehind]
    rfl

/-- The entries ahead are still what they were when breaks among them have been detached. -/
theorem change (h : ScansFrom isBreak owner t X cs) (hrest : rest ⊆ cs) (hbreaks : breaks ⊆ cs) :
    ScansFrom isBreak owner (t.afterPairing owner (X' ++ rest) breaks m) X' rest := by
  have hold : t.Besides owner breaks := fun x hx => h.besides x (hbreaks hx)
  have hahead : t.Besides owner rest := fun x hx => h.besides x (hrest hx)
  constructor
  case owner_lt =>
    rw [size_afterPairing]
    exact Nat.lt_add_right m h.owner_lt
  case name_ne =>
    rw [Tree.name, kind_afterPairing h.owner_lt hold h.owner_lt]
    exact h.name_ne
  case list_eq => rw [children_eq, node_afterPairing h.owner_lt hold, if_pos rfl]
  case besides => exact hahead.afterPairing
  case isNamed_eq =>
    intro c hc
    rw [← h.isNamed_eq c (hrest hc)]
    cases c with
    | text s => rfl
    | node x =>
      simp only [isNamed, Tree.name, kind_afterPairing h.owner_lt hold (hahead x hc).1]

/-! The three kinds of steps. -/

theorem scanBreaks_other (h : ScansFrom isBreak owner t X (c :: rest)) (hc : isBreak c = false) :
    scanBreaks owner (bound + 1) X.length t = scanBreaks owner bound (X ++ [c]).length t := by
  rw [scanBreaks, get_bind, if_neg h.not_length_le, bind_of_ok h.breakAt_eq, if_pos (by simp [hc]),
    List.length_append, List.length_singleton]

theorem scanBreaks_pair {second : Child} (h : ScansFrom isBreak owner t X (c :: second :: rest))
    (hc : isBreak c = true) (hsecond : isBreak second = true) :
    scanBreaks owner (bound + 1) X.length t =
      scanBreaks owner bound (X ++ [Child.node t.size]).length
        (t.afterPairing owner (X ++ [Child.node t.size] ++ rest) [c, second] 1) := by
  have hstep := separateAt_eq h.owner_lt h.name_ne h.list_eq fun x hx =>
    h.besides x (by simp only [List.mem_cons] at hx ⊢; tauto)
  rw [scanBreaks, get_bind, if_neg h.not_length_le, bind_of_ok h.breakAt_eq, if_neg (by simp [hc]),
    bind_of_ok h.breakBehind_eq, if_pos (by simpa using hsecond), bind_of_ok hstep,
    List.length_append, List.length_singleton, List.append_assoc, List.singleton_append]

theorem scanBreaks_single (h : ScansFrom isBreak owner t X (c :: rest)) (hc : isBreak c = true)
    (hend : ∀ c ∈ rest.head?, isBreak c = false) :
    scanBreaks owner (bound + 1) X.length t =
      scanBreaks owner bound X.length (t.afterPairing owner (X ++ rest) [c] 0) := by
  have hbehind : rest.head?.any isBreak = false := by
    cases hnext : rest.head? with
    | none => rfl
    | some next => exact hend next hnext
  rw [scanBreaks, get_bind, if_neg h.not_length_le, bind_of_ok h.breakAt_eq, if_neg (by simp [hc]),
    bind_of_ok h.breakBehind_eq, if_neg (by simp [hbehind]),
    bind_of_ok (removeChild_eq_afterPairing h.list_eq)]

end ScansFrom

theorem afterPairing_self (howner : owner < t.size) (hlist : t.children owner = cs) :
    t.afterPairing owner cs [] 0 = t := by
  subst hlist
  refine ext_node (size_afterPairing ..) fun (x : Nat) => ?_
  rw [node_afterPairing howner (fun _ hx => absurd hx List.not_mem_nil), if_neg List.not_mem_nil,
    if_neg (show ¬ (t.size ≤ x ∧ x < t.size + 0) by omega)]
  split
  next hx =>
    subst hx
    rfl
  next => rfl

/-- The walk leaves what the pass makes of the rest of the list. The induction is on the entries
ahead; what a step leaves is again such a tree, so that two steps put together are one. -/
theorem scanBreaks_eq_afterPairing (fresh : NodeId) (cs : List Child) :
    ∀ {t : Tree} {X : List Child} {bound : Nat}, t.size = fresh →
      ScansFrom isBreak owner t X cs → cs.length ≤ bound →
      scanBreaks owner bound X.length t = .ok () (t.afterPairing owner
        (X ++ pairBreaks isBreak fresh cs) (cs.filter isBreak) (pairCount isBreak cs)) := by
  induction fresh, cs using pairs_induction isBreak with
  | nil fresh =>
    intro t X bound _ h _
    have hlist : t.children owner = X := by rw [h.list_eq, List.append_nil]
    have hdone : scanBreaks owner bound X.length t = .ok () t := by
      cases bound with
      | zero => rfl
      | succ bound =>
        rw [scanBreaks, get_bind, hlist, if_pos (Nat.le_refl _)]
        rfl
    simp only [pairBreaks, pairCount, List.filter_nil, List.append_nil]
    rw [hdone, afterPairing_self h.owner_lt hlist]
  | other fresh c rest hc ih =>
    intro t X bound hfresh h hbound
    cases bound with
    | zero => exact absurd hbound (Nat.not_succ_le_zero _)
    | succ bound =>
      rw [h.scanBreaks_other hc, ih hfresh h.keep (Nat.le_of_succ_le_succ hbound),
        pairBreaks_cons_of_not hc, pairCount_cons_of_not hc,
        List.filter_cons_of_neg (by simp [hc]), List.append_assoc, List.singleton_append]
  | pair fresh c second rest hc hsecond ih =>
    intro t X bound hfresh h hbound
    subst hfresh
    cases bound with
    | zero => exact absurd hbound (Nat.not_succ_le_zero _)
    | succ bound =>
      have hbreaks : [c, second] ⊆ c :: second :: rest := by simp
      have hrest : rest ⊆ c :: second :: rest := fun x hx => by simp [hx]
      have hfewer : rest.length ≤ bound := Nat.le_of_succ_le (Nat.le_of_succ_le_succ hbound)
      rw [h.scanBreaks_pair hc hsecond,
        ih (size_afterPairing ..) (h.change hrest hbreaks) hfewer,
        afterPairing_afterPairing h.owner_lt (fun x hx => h.besides x (hbreaks hx))
          (fun x hx => h.besides x (hrest (List.mem_of_mem_filter hx))),
        pairBreaks_pair hc hsecond, pairCount_pair hc hsecond, List.filter_cons_of_pos hc,
        List.filter_cons_of_pos hsecond, Nat.add_comm 1, List.append_assoc X]
      rfl
  | single fresh c rest hc hend ih =>
    intro t X bound hfresh h hbound
    subst hfresh
    cases bound with
    | zero => exact absurd hbound (Nat.not_succ_le_zero _)
    | succ bound =>
      have hbreaks : [c] ⊆ c :: rest := by simp
      have hrest : rest ⊆ c :: rest := List.subset_cons_self ..
      rw [h.scanBreaks_single hc hend,
        ih (size_afterPairing ..) (h.change hrest hbreaks) (Nat.le_of_succ_le_succ hbound),
        afterPairing_afterPairing h.owner_lt (fun x hx => h.besides x (hbreaks hx))
          (fun x hx => h.besides x (hrest (List.mem_of_mem_filter hx))),
        pairBreaks_single hc hend, pairCount_single hc hend, List.filter_cons_of_pos hc,
        Nat.zero_add]
      rfl

end HtmlMarkdown.Document.Tree
