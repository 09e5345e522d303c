import HtmlMarkdown.Proofs.BreakRuns
import HtmlMarkdown.Proofs.Linked

/-!
Lists of children in which pairs of line breaks become separators. The pairs are taken from the
front, one break may be left over in each run, and what comes out is said of whole runs: a longest
run of `n` breaks leaves `n / 2` separators, and all else stays in its order.
-/
namespace HtmlMarkdown.Document.Tree

variable {t : Tree} {isBreak : Child → Bool} {c : Child}
  {cs cs' rest rest' breaks : List Child} {fresh : NodeId}

/-! Pair by pair. -/

theorem pairBreaks_pair {second : Child} (hc : isBreak c = true) (hsecond : isBreak second = true) :
    pairBreaks isBreak fresh (c :: second :: rest) =
      .node fresh :: pairBreaks isBreak (fresh + 1) rest := by
  simp [pairBreaks, hc, hsecond]

theorem pairBreaks_single (hc : isBreak c = true) (hend : ∀ c ∈ rest.head?, isBreak c = false) :
    pairBreaks isBreak fresh (c :: rest) = pairBreaks isBreak fresh rest := by
  cases rest with
  | nil => simp [pairBreaks, hc]
  | cons next rest =>
    have hnext : isBreak next = false := hend next rfl
    simp [pairBreaks, hc, hnext]

/-- How many pairs of neighbouring breaks there are when no break is in two of them. -/
def pairCount (isBreak : Child → Bool) : List Child → Nat
  | [] => 0
  | [_] => 0
  | first :: second :: rest =>
    if !isBreak first then pairCount isBreak (second :: rest)
    else if isBreak second then pairCount isBreak rest + 1
    else pairCount isBreak (second :: rest)

theorem pairCount_cons_of_not (hc : isBreak c = false) :
    pairCount isBreak (c :: rest) = pairCount isBreak rest := by
  cases rest <;> simp [pairCount, hc]

theorem pairCount_pair {second : Child} (hc : isBreak c = true) (hsecond : isBreak second = true) :
    pairCount isBreak (c :: second :: rest) = pairCount isBreak rest + 1 := by
  simp [pairCount, hc, hsecond]

theorem pairCount_single (hc : isBreak c = true) (hend : ∀ c ∈ rest.head?, isBreak c = false) :
    pairCount isBreak (c :: rest) = pairCount isBreak rest := by
  cases rest with
  | nil => rfl
  | cons next rest =>
    have hnext : isBreak next = false := hend next rfl
    simp [pairCount, hc, hnext]

/-- A list begins with an entry that is no break, with two breaks, or with a single one. -/
theorem pairs_induction (isBreak : Child → Bool) {motive : NodeId → List Child → Prop}
    (nil : ∀ fresh, motive fresh [])
    (other : ∀ fresh c rest, isBreak c = false → motive fresh rest → motive fresh (c :: rest))
    (pair : ∀ fresh c second rest, isBreak c = true → isBreak second = true →
      motive (fresh + 1) rest → motive fresh (c :: second :: rest))
    (single : ∀ fresh c rest, isBreak c = true → (∀ c ∈ rest.head?, isBreak c = false) →
      motive fresh rest → motive fresh (c :: rest))
    (fresh : NodeId) (cs : List Child) : motive fresh cs := by
  fun_induction pairBreaks isBreak fresh cs with
  | case1 fresh => exact nil fresh
  | case2 fresh c hc => exact single fresh c [] hc (by simp) (nil fresh)
  | case3 fresh c hc => exact other fresh c [] (by simpa using hc) (nil fresh)
  | case4 fresh c second rest hc ih => exact other fresh c _ (by simpa using hc) ih
  | case5 fresh c second rest hc hsecond ih =>
    exact pair fresh c second rest (by simpa using hc) hsecond ih
  | case6 fresh c second rest hc hsecond ih =>
    exact single fresh c _ (by simpa using hc) (by simpa using hsecond) ih

/-- What is in the list afterwards: all that was no break, and the new nodes. -/
theorem mem_pairBreaks_iff {d : Child} (fresh : NodeId) (cs : List Child) :
    d ∈ pairBreaks isBreak fresh cs ↔ d ∈ cs ∧ isBreak d = false ∨
      ∃ x, d = .node x ∧ fresh ≤ x ∧ x < fresh + pairCount isBreak cs := by
  induction fresh, cs using pairs_induction isBreak with
  | nil fresh =>
    simp only [pairBreaks, pairCount, List.not_mem_nil, false_and, false_or, false_iff]
    rintro ⟨x, -, hle, hlt⟩
    exact Nat.not_lt.2 hle hlt
  | other fresh c rest hc ih =>
    rw [pairBreaks_cons_of_not hc, pairCount_cons_of_not hc, List.mem_cons, List.mem_cons, ih]
    by_cases hd : d = c
    · simp [hd, hc]
    · simp [hd]
  | pair fresh c second rest hc hsecond ih =>
    have hold : d ∈ c :: second :: rest ∧ isBreak d = false ↔ d ∈ rest ∧ isBreak d = false := by
      simp only [List.mem_cons]
      constructor
      · rintro ⟨rfl | rfl | hd, hnot⟩
        · simp [hc] at hnot
        · simp [hsecond] at hnot
        · exact ⟨hd, hnot⟩
      · rintro ⟨hd, hnot⟩
        exact ⟨Or.inr (Or.inr hd), hnot⟩
    have hnew (low count x : Nat) : low ≤ x ∧ x < low + (count + 1) ↔
        x = low ∨ low + 1 ≤ x ∧ x < low + 1 + count := by
      omega
    rw [pairBreaks_pair hc hsecond, pairCount_pair hc hsecond, List.mem_cons, ih, hold]
    simp only [hnew, and_or_left, exists_or, exists_eq_right]
    exact or_left_comm
  | single fresh c rest hc hend ih =>
    rw [pairBreaks_single hc hend, pairCount_single hc hend, List.mem_cons, ih]
    by_cases hd : d = c
    · simp [hd, hc]
    · simp [hd]

/-! Runs of breaks. -/

/-- The second list has, for every longest run of `n` breaks in the first one, `n / 2` nodes with
the next numbers from `fresh` on, and all else as it was. -/
inductive Regroups (isBreak : Child → Bool) : NodeId → List Child → List Child → Prop
  | nil {fresh : NodeId} : Regroups isBreak fresh [] []
  | other {fresh : NodeId} {c : Child} {rest rest' : List Child} (hc : isBreak c = false)
      (h : Regroups isBreak fresh rest rest') : Regroups isBreak fresh (c :: rest) (c :: rest')
  /-- What stands in front of the run is no break either: a run ends where `rest` begins. -/
  | run {fresh : NodeId} {breaks rest rest' : List Child} (hne : breaks ≠ [])
      (hbreaks : ∀ c ∈ breaks, isBreak c = true) (hend : ∀ c ∈ rest.head?, isBreak c = false)
      (h : Regroups isBreak (fresh + breaks.length / 2) rest rest') :
      Regroups isBreak fresh (breaks ++ rest)
        ((List.range' fresh (breaks.length / 2)).map Child.node ++ rest')

/-- A run goes pair by pair, and the break that is left over goes with the last pair. -/
theorem pairBreaks_run (hend : ∀ c ∈ rest.head?, isBreak c = false) :
    ∀ (breaks : List Child) (fresh : NodeId), (∀ c ∈ breaks, isBreak c = true) →
      pairBreaks isBreak fresh (breaks ++ rest) =
        (List.range' fresh (breaks.length / 2)).map Child.node ++
          pairBreaks isBreak (fresh + breaks.length / 2) rest
  | [], _, _ => rfl
  | [c], fresh, hbreaks => by
    have hc : isBreak c = true := hbreaks c (List.mem_singleton.2 rfl)
    simpa using pairBreaks_single hc hend
  | first :: second :: breaks, fresh, hbreaks => by
    have hfirst : isBreak first = true := hbreaks first (by simp)
    have hsecond : isBreak second = true := hbreaks second (by simp)
    have hpairs : (first :: second :: breaks).length / 2 = breaks.length / 2 + 1 := by
      rw [List.length_cons, List.length_cons]
      omega
    have hnext : fresh + (breaks.length / 2 + 1) = fresh + 1 + breaks.length / 2 :=
      Nat.add_right_comm fresh _ 1
    have ih := pairBreaks_run hend breaks (fresh + 1) fun c hc => hbreaks c (by simp [hc])
    rw [hpairs, hnext, List.range'_succ, List.cons_append, List.cons_append,
      pairBreaks_pair hfirst hsecond, ih]
    rfl

theorem Regroups.eq_pairBreaks (h : Regroups isBreak fresh cs cs') :
    cs' = pairBreaks isBreak fresh cs := by
  induction h with
  | nil => rfl
  | other hc _ ih => rw [pairBreaks_cons_of_not hc, ih]
  | run _ hbreaks hend _ ih => rw [pairBreaks_run hend _ _ hbreaks, ih]

theorem regroups_pairBreaks (fresh : NodeId) (cs : List Child) :
    Regroups isBreak fresh cs (pairBreaks isBreak fresh cs) := by
  match cs with
  | [] => exact .nil
  | c :: rest =>
    by_cases hc : isBreak c = true
    · let breaks := (c :: rest).takeWhile isBreak
      let others := (c :: rest).dropWhile isBreak
      have hsplit : breaks ++ others = c :: rest := List.takeWhile_append_dropWhile
      have hfirst : breaks = c :: rest.takeWhile isBreak := List.takeWhile_cons_of_pos hc
      have hne : breaks ≠ [] := by simp [hfirst]
      have hbreaks : ∀ c ∈ breaks, isBreak c = true := List.all_eq_true.1 (List.all_takeWhile ..)
      have hend : ∀ c ∈ others.head?, isBreak c = false := by
        intro next hnext
        have hnot := List.head?_dropWhile_not isBreak (c :: rest)
        rw [Option.mem_def.1 hnext] at hnot
        simpa using hnot
      have hlength : others.length < (c :: rest).length := by
        rw [← hsplit, List.length_append]
        have hpos := List.length_pos_iff.2 hne
        omega
      rw [← hsplit, pairBreaks_run hend breaks fresh hbreaks]
      exact .run hne hbreaks hend (regroups_pairBreaks _ others)
    · rw [Bool.not_eq_true] at hc
      rw [pairBreaks_cons_of_not hc]
      exact .other hc (regroups_pairBreaks fresh rest)
termination_by cs.length
decreasing_by
  · exact hlength
  · exact Nat.lt_succ_self rest.length

/-! The nodes of the list. -/

theorem nodup_nodes_cons : ((c :: rest).filterMap Child.node?).Nodup ↔
    (rest.filterMap Child.node?).Nodup ∧ ∀ x, c = .node x → .node x ∉ rest := by
  cases c with
  | text s =>
    rw [List.filterMap_cons_none rfl]
    simp
  | node id =>
    change (id :: rest.filterMap Child.node?).Nodup ↔ _
    rw [List.nodup_cons, mem_filterMap_node?_iff, and_comm]
    simp

theorem nodup_nodes_pairBreaks (fresh : NodeId) (cs : List Child)
    (honce : (cs.filterMap Child.node?).Nodup) (hcs : ∀ x, .node x ∈ cs → x < fresh) :
    ((pairBreaks isBreak fresh cs).filterMap Child.node?).Nodup := by
  induction fresh, cs using pairs_induction isBreak with
  | nil fresh => exact honce
  | other fresh c rest hc ih =>
    obtain ⟨hrest, hfirst⟩ := nodup_nodes_cons.1 honce
    have hlt : ∀ x, .node x ∈ rest → x < fresh := fun x hx => hcs x (List.mem_cons_of_mem c hx)
    rw [pairBreaks_cons_of_not hc, nodup_nodes_cons]
    refine ⟨ih hrest hlt, fun x hx hmem => ?_⟩
    subst hx
    rcases (mem_pairBreaks_iff fresh rest).1 hmem with ⟨hold, -⟩ | ⟨y, hy, hle, -⟩
    · exact hfirst x rfl hold
    · cases hy
      exact Nat.not_lt.2 hle (hcs x (List.mem_cons_self ..))
  | pair fresh c second rest hc hsecond ih =>
    have hrest := (nodup_nodes_cons.1 (nodup_nodes_cons.1 honce).1).1
    have hlt : ∀ x, .node x ∈ rest → x < fresh := fun x hx => hcs x (by simp [hx])
    rw [pairBreaks_pair hc hsecond, nodup_nodes_cons]
    refine ⟨ih hrest fun x hx => Nat.lt_succ_of_lt (hlt x hx), fun x hx hmem => ?_⟩
    cases hx
    rcases (mem_pairBreaks_iff (fresh + 1) rest).1 hmem with ⟨hold, -⟩ | ⟨y, hy, hle, -⟩
    · exact Nat.lt_irrefl fresh (hlt fresh hold)
    · cases hy
      exact Nat.lt_irrefl fresh hle
  | single fresh c rest hc hend ih =>
    rw [pairBreaks_single hc hend]
    exact ih (nodup_nodes_cons.1 honce).1 fun x hx => hcs x (List.mem_cons_of_mem c hx)

/-- The numbers that were not in use follow one another. -/
theorem filter_isFresh_eq (isBreak : Child → Bool) (fresh : NodeId) (cs : List Child)
    (hcs : ∀ x, .node x ∈ cs → x < t.size) (hfresh : t.size ≤ fresh) :
    (pairBreaks isBreak fresh cs).filter t.isFresh =
      (List.range' fresh (pairCount isBreak cs)).map Child.node := by
  induction fresh, cs using pairs_induction isBreak with
  | nil fresh => rfl
  | other fresh c rest hc ih =>
    have hused : ¬ t.isFresh c = true := by
      cases c with
      | text s => simp [isFresh]
      | node x => simpa [isFresh] using hcs x (List.mem_cons_self ..)
    rw [pairBreaks_cons_of_not hc, pairCount_cons_of_not hc, List.filter_cons_of_neg hused]
    exact ih (fun x hx => hcs x (List.mem_cons_of_mem c hx)) hfresh
  | pair fresh c second rest hc hsecond ih =>
    have hnew : t.isFresh (.node fresh) = true := by simpa [isFresh] using hfresh
    rw [pairBreaks_pair hc hsecond, pairCount_pair hc hsecond, List.filter_cons_of_pos hnew,
      List.range'_succ, List.map_cons]
    rw [ih (fun x hx => hcs x (by simp [hx])) (Nat.le_succ_of_le hfresh)]
  | single fresh c rest hc hend ih =>
    rw [pairBreaks_single hc hend, pairCount_single hc hend]
    exact ih (fun x hx => hcs x (List.mem_cons_of_mem c hx)) hfresh

end HtmlMarkdown.Document.Tree
