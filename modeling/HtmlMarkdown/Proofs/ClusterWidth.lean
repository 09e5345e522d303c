import HtmlMarkdown.Text.Blank
import HtmlMarkdown.Text.Columns

/-!
The width of texts that are put together. Characters may merge where two texts meet, and what
follows may then fall into characters in another way, as a row of flags does. Still no text takes
more columns together with another than both take alone, and white space in front of a text never
makes it narrower.
-/
namespace HtmlMarkdown.Text

namespace ClusterContext

variable {context shorter : ClusterContext} {next : ClusterClass}

/-- The context of a text with more text behind it. -/
def advanceAll (context : ClusterContext) : List Char → ClusterContext
  | [] => context
  | c :: rest => (context.advance (ClusterClass.ofChar c)).advanceAll rest

theorem count_append (context : ClusterContext) (s u : List Char) :
    context.count (s ++ u) = context.count s + (context.advanceAll s).count u := by
  induction s generalizing context with
  | nil => simp [count, advanceAll]
  | cons c rest ih => simp [count, advanceAll, ih, Nat.add_assoc]

theorem advanceAll_concat (context : ClusterContext) (s : List Char) (c : Char) :
    context.advanceAll (s ++ [c]) = (context.advanceAll s).advance (ClusterClass.ofChar c) := by
  induction s generalizing context with
  | nil => rfl
  | cons first rest ih => exact ih _

/-- A flag is open only right behind a regional indicator. -/
def Sound (context : ClusterContext) : Prop :=
  context.openFlag = true → context.last = .regional

theorem Sound.advance (context : ClusterContext) (next : ClusterClass) :
    (context.advance next).Sound := by
  intro h
  simp only [ClusterContext.advance, Bool.and_eq_true] at h
  exact eq_of_beq h.1

theorem Sound.advanceAll (h : context.Sound) (s : List Char) : (context.advanceAll s).Sound := by
  induction s generalizing context with
  | nil => exact h
  | cons c rest ih => exact ih (Sound.advance context _)

/-! A text and what is left of it when something in front is cut off. -/

/-- The texts end alike. What the shorter one is in the middle of, the longer one is, too. -/
structure Extends (context shorter : ClusterContext) : Prop where
  last : shorter.last = context.last
  conjunct : shorter.conjunct = context.conjunct ∨ shorter.conjunct = .none
  pictograph : shorter.pictograph = context.pictograph ∨ shorter.pictograph = .none

theorem conjunctAfter_eq_or (progress : ConjunctProgress) (next : ClusterClass) :
    conjunctAfter .none next = conjunctAfter progress next ∨ conjunctAfter .none next = .none := by
  cases next with
  | consonant => exact Or.inl rfl
  | _ => exact Or.inr rfl

theorem pictographAfter_eq_or (progress : PictographProgress) (next : ClusterClass) :
    pictographAfter .none next = pictographAfter progress next ∨
      pictographAfter .none next = .none := by
  cases next with
  | pictograph => exact Or.inl rfl
  | _ => exact Or.inr rfl

theorem extends_advance_single (context : ClusterContext) (next : ClusterClass) :
    (context.advance next).Extends (single next) :=
  ⟨rfl, conjunctAfter_eq_or _ next, pictographAfter_eq_or _ next⟩

theorem Extends.advance (h : context.Extends shorter) (next : ClusterClass) :
    (context.advance next).Extends (shorter.advance next) := by
  refine ⟨rfl, ?_, ?_⟩
  · rcases h.conjunct with heq | hnone
    · exact Or.inl (by rw [ClusterContext.advance, ClusterContext.advance, heq])
    · simpa only [ClusterContext.advance, hnone] using conjunctAfter_eq_or _ next
  · rcases h.pictograph with heq | hnone
    · exact Or.inl (by rw [ClusterContext.advance, ClusterContext.advance, heq])
    · simpa only [ClusterContext.advance, hnone] using pictographAfter_eq_or _ next

/-- What joins the shorter text joins the longer one, but for the second half of a flag. -/
theorem Extends.startsCluster (h : context.Extends shorter)
    (hflag : next = .regional → shorter.openFlag = true → context.openFlag = true)
    (hstarts : context.startsCluster next = true) : shorter.startsCluster next = true := by
  unfold ClusterContext.startsCluster at hstarts ⊢
  rw [h.last]
  split at hstarts
  · cases hstarts
  · rename_i hpair
    rw [if_neg hpair]
    split at hstarts
    · rename_i hbreak
      rw [if_pos hbreak]
    · rename_i hbreak
      rw [if_neg hbreak]
      simp only [Bool.not_eq_true', Bool.or_eq_false_iff, Bool.and_eq_false_iff,
        beq_eq_false_iff_ne] at hstarts ⊢
      obtain ⟨⟨⟨hborder, hconjunct⟩, hpictograph⟩, hregional⟩ := hstarts
      refine ⟨⟨⟨hborder, hconjunct.imp_left fun hne => ?_⟩,
        hpictograph.imp_left fun hne => ?_⟩, ?_⟩
      · rcases h.conjunct with heq | hnone
        · rwa [heq]
        · simp [hnone]
      · rcases h.pictograph with heq | hnone
        · rwa [heq]
        · simp [hnone]
      · by_cases hnext : next = .regional
        · refine Or.inl (Bool.eq_false_iff.2 fun hopen => ?_)
          have hclosed := hregional.resolve_right fun hne => hne hnext
          rw [hflag hnext hopen] at hclosed
          cases hclosed
        · exact Or.inr hnext

/-- Behind a regional indicator, another one starts a character unless it closes a flag. -/
theorem startsCluster_regional (h : context.last = .regional) :
    context.startsCluster .regional = !context.openFlag := by
  simp [ClusterContext.startsCluster, h, ClusterClass.isBreaking, ClusterClass.continuesSyllable,
    ClusterClass.extendsPrevious]

/-- What the longer text may still be behind by: if only the shorter one ends in the first half of
a flag, the next regional indicator starts a character only in the longer one. -/
def debt (context shorter : ClusterContext) : Nat :=
  if shorter.openFlag = true ∧ context.openFlag = false then 1 else 0

/-- One code point: a character that starts in the longer text only is paid by the debt. -/
theorem Extends.step (h : context.Extends shorter) (hsound : context.Sound) (next : ClusterClass) :
    (if context.startsCluster next then 1 else 0) +
        debt (context.advance next) (shorter.advance next)
      ≤ (if shorter.startsCluster next then 1 else 0) + debt context shorter := by
  by_cases hnext : next = .regional
  · subst hnext
    cases hopen : context.openFlag with
    | true =>
      -- the longer text closes its flag, and the shorter one closes one, too, or opens one
      have hlast := hsound hopen
      rw [startsCluster_regional hlast, startsCluster_regional (h.last.trans hlast), hopen]
      simp only [debt, ClusterContext.advance, hopen]
      cases shorter.openFlag <;> decide
    | false =>
      have hdebt : debt (context.advance .regional) (shorter.advance .regional) = 0 := by
        simp [debt, ClusterContext.advance, hopen]
      rw [hdebt]
      cases hopen' : shorter.openFlag with
      | true =>
        have hone : debt context shorter = 1 := by simp [debt, hopen, hopen']
        rw [hone]
        split <;> omega
      | false =>
        have hstarts : context.startsCluster .regional = true →
            shorter.startsCluster .regional = true :=
          h.startsCluster fun _ h' => by simp [hopen'] at h'
        split
        · rename_i hlonger
          rw [if_pos (hstarts hlonger)]
          omega
        · omega
  · have hdebt : debt (context.advance next) (shorter.advance next) = 0 := by
      simp [debt, ClusterContext.advance, hnext]
    have hstarts : context.startsCluster next = true → shorter.startsCluster next = true :=
      h.startsCluster fun h' => absurd h' hnext
    rw [hdebt]
    split
    · rename_i hlonger
      rw [if_pos (hstarts hlonger)]
      omega
    · omega

/-- The longer text has no more characters to come than the shorter one and the debt. -/
theorem Extends.count_le (h : context.Extends shorter) (hsound : context.Sound) (s : List Char) :
    context.count s ≤ shorter.count s + debt context shorter := by
  induction s generalizing context shorter with
  | nil => simp [count]
  | cons c rest ih =>
    have hstep := h.step hsound (ClusterClass.ofChar c)
    have hrest := ih (h.advance (ClusterClass.ofChar c)) (Sound.advance context _)
    simp only [count]
    omega

theorem debt_le_one (context shorter : ClusterContext) : debt context shorter ≤ 1 := by
  unfold debt
  split <;> omega

/-- A code point that starts a character does not close a flag. -/
theorem debt_single (hsound : context.Sound) (hstarts : context.startsCluster next = true) :
    debt (context.advance next) (single next) = 0 := by
  by_cases hnext : next = .regional
  · subst hnext
    cases hopen : context.openFlag with
    | true =>
      rw [startsCluster_regional (hsound hopen), hopen] at hstarts
      cases hstarts
    | false => simp [debt, ClusterContext.advance, hopen]
  · simp [debt, single, hnext]

/-- Behind whatever text, no more characters start than a text takes columns. -/
theorem count_le_columns (hsound : context.Sound) (s : List Char) :
    context.count s ≤ columns s := by
  cases s with
  | nil => simp [count]
  | cons c rest =>
    have hrest := (extends_advance_single context (ClusterClass.ofChar c)).count_le
      (Sound.advance context _) rest
    simp only [count, columns]
    split
    · rename_i hstarts
      rw [debt_single hsound hstarts] at hrest
      omega
    · have hdebt := debt_le_one (context.advance (ClusterClass.ofChar c))
        (single (ClusterClass.ofChar c))
      omega

/-- The context of no text. -/
def fresh : ClusterContext := ⟨.other, .none, .none, false⟩

theorem fresh_sound : fresh.Sound := by
  intro h
  cases h

theorem advance_fresh (next : ClusterClass) : fresh.advance next = single next := by
  simp [ClusterContext.advance, single, fresh]

end ClusterContext

open ClusterContext

variable {s : List Char}

theorem columns_append (hne : s ≠ []) (u : List Char) :
    columns (s ++ u) = columns s + (fresh.advanceAll s).count u := by
  obtain ⟨c, rest, rfl⟩ := List.exists_cons_of_ne_nil hne
  rw [List.cons_append, columns, columns, count_append, advanceAll, advance_fresh, Nat.add_assoc]

/-- No text takes more columns together with another than both take alone. -/
theorem columns_append_le (s u : List Char) : columns (s ++ u) ≤ columns s + columns u := by
  by_cases hne : s = []
  · simp [hne, columns]
  · have hlater := count_le_columns (fresh_sound.advanceAll s) u
    rw [columns_append hne]
    omega

theorem columns_pos (hne : s ≠ []) : 0 < columns s := by
  obtain ⟨c, rest, rfl⟩ := List.exists_cons_of_ne_nil hne
  simp only [columns]
  omega

/-! White space. -/

/-- A class that is no part of a conjunct, of an emoji sequence or of a flag. -/
def ClusterClass.isPlain : ClusterClass → Bool
  | .other | .carriageReturn | .lineFeed | .control => true
  | _ => false

theorem advance_of_isPlain {first : ClusterClass} (h : first.isPlain = true)
    (context : ClusterContext) (next : ClusterClass) :
    (context.advance first).advance next = single next := by
  cases first with
  | other | carriageReturn | lineFeed | control =>
    simp [ClusterContext.advance, single, conjunctAfter, pictographAfter]
  | _ => cases h

/-- The code points of white space. -/
def blankCodes : List Nat :=
  [9, 10, 11, 12, 13, 0x20, 0x85, 0xA0, 0x1680, 0x2000, 0x2001, 0x2002, 0x2003, 0x2004, 0x2005,
    0x2006, 0x2007, 0x2008, 0x2009, 0x200A, 0x2028, 0x2029, 0x202F, 0x205F, 0x3000]

theorem toNat_mem_blankCodes {c : Char} (h : isBlank c = true) : c.toNat ∈ blankCodes := by
  simp only [isBlank, Bool.or_eq_true, Bool.and_eq_true, decide_eq_true_eq] at h
  simp only [blankCodes, List.mem_cons, List.not_mem_nil, or_false]
  omega

theorem isPlain_of_mem_blankCodes :
    ∀ n ∈ blankCodes, (ClusterClass.ofChar (Char.ofNat n)).isPlain = true := by
  decide +kernel

theorem isPlain_of_isBlank {c : Char} (h : isBlank c = true) :
    (ClusterClass.ofChar c).isPlain = true := by
  have hplain := isPlain_of_mem_blankCodes c.toNat (toNat_mem_blankCodes h)
  rwa [Char.ofNat_toNat] at hplain

/-- White space in front of a text does not make it narrower. -/
theorem columns_le_append (hs : ∀ c ∈ s, isBlank c = true) (u : List Char) :
    columns u ≤ columns (s ++ u) := by
  by_cases hne : s = []
  · simp [hne]
  · cases u with
    | nil => exact Nat.zero_le _
    | cons x rest =>
      -- behind white space, the text after the first code point is read as if it stood alone
      have hafter : (fresh.advanceAll s).advance (ClusterClass.ofChar x) =
          single (ClusterClass.ofChar x) := by
        have hlast := isPlain_of_isBlank (hs _ (List.getLast_mem hne))
        rw [← List.dropLast_concat_getLast hne, advanceAll_concat, advance_of_isPlain hlast]
      have hpos := columns_pos hne
      rw [columns_append hne, columns, count, hafter]
      omega

end HtmlMarkdown.Text
