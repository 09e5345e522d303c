import HtmlMarkdown.Text.Quoted
import Mathlib.Data.Char

/-!
Writings that can be read in one way only, though nothing shows where they end but the character
behind them. Main statement: between its quotes a string may hold any characters, quotes and
backslashes among them, and still both the string and what stands behind it can be told.
-/
namespace HtmlMarkdown.Text

/-- The text does not go on with one of the given characters. -/
def Avoids (cs text : List Char) : Prop := ∀ c ∈ text.head?, c ∉ cs

/-- If a text starts with what is written for a value and does not go on with one of the given
characters, it determines the value and the rest. -/
def Legible {α : Type} (cs : List Char) (write : α → List Char) : Prop :=
  ∀ ⦃a b : α⦄ ⦃r s : List Char⦄, Avoids cs r → Avoids cs s →
    write a ++ r = write b ++ s → a = b ∧ r = s

variable {α : Type} {cs r s : List Char} {write : α → List Char}

theorem avoids_nil : Avoids cs [] := by simp [Avoids]

theorem avoids_cons {c : Char} (h : c ∉ cs) : Avoids cs (c :: r) := by
  intro first hfirst
  cases hfirst
  exact h

theorem Legible.injective (h : Legible cs write) : Function.Injective write := by
  intro a b hab
  exact (h avoids_nil avoids_nil (congrArg (· ++ []) hab)).1

/-- What is written for the members of a list is told apart from the end that is set behind it, if
nothing is written that starts with that end. -/
theorem Legible.flatMap {ending : Char} (h : Legible [] write)
    (hending : ∀ a, ∃ c rest, write a = c :: rest ∧ c ≠ ending) :
    ∀ {as bs : List α}, as.flatMap write ++ ending :: r = bs.flatMap write ++ ending :: s →
      as = bs ∧ r = s := by
  intro as
  induction as with
  | nil =>
    intro bs hab
    cases bs with
    | nil => exact ⟨rfl, (List.cons.inj hab).2⟩
    | cons b bs =>
      obtain ⟨c, rest, hwrite, hc⟩ := hending b
      rw [List.flatMap_cons, hwrite] at hab
      exact absurd (List.cons.inj hab).1.symm hc
  | cons a as ih =>
    intro bs hab
    cases bs with
    | nil =>
      obtain ⟨c, rest, hwrite, hc⟩ := hending a
      rw [List.flatMap_cons, hwrite] at hab
      exact absurd (List.cons.inj hab).1 hc
    | cons b bs =>
      rw [List.flatMap_cons, List.flatMap_cons, List.append_assoc, List.append_assoc] at hab
      obtain ⟨rfl, hrest⟩ := h (by simp [Avoids]) (by simp [Avoids]) hab
      obtain ⟨rfl, rfl⟩ := ih hrest
      exact ⟨rfl, rfl⟩

/-! Digits. -/

/-- The digits of base sixteen, in the order of their values. Smaller bases use the first ones. -/
def digits : List Char := "0123456789abcdef".toList

/-- The number that some digits spell in the given base, the highest digit first. -/
def numberOf (base : Nat) (word : List Char) : Nat :=
  word.foldl (fun number digit => number * base + digits.idxOf digit) 0

variable {base : Nat}

theorem digitChar_mem_digits : ∀ n < 16, n.digitChar ∈ digits ∧ digits.idxOf n.digitChar = n := by
  decide

theorem mem_digits_of_mem_toDigits (hbase : 1 < base) (hle : base ≤ 16) (n : Nat) :
    ∀ c ∈ Nat.toDigits base n, c ∈ digits := by
  induction n using Nat.strong_induction_on with
  | _ n ih =>
    intro c hc
    rw [Nat.toDigits_eq_if hbase] at hc
    split_ifs at hc with hn
    · rw [List.mem_singleton.1 hc]
      exact (digitChar_mem_digits n (by omega)).1
    · rcases List.mem_append.1 hc with hhigh | hlow
      · exact ih (n / base) (Nat.div_lt_self (by omega) hbase) c hhigh
      · have hmod := Nat.mod_lt n (by omega : base > 0)
        rw [List.mem_singleton.1 hlow]
        exact (digitChar_mem_digits (n % base) (by omega)).1

theorem numberOf_toDigits (hbase : 1 < base) (hle : base ≤ 16) (n : Nat) :
    numberOf base (Nat.toDigits base n) = n := by
  induction n using Nat.strong_induction_on with
  | _ n ih =>
    rw [Nat.toDigits_eq_if hbase]
    split_ifs with hn
    · have hdigit := (digitChar_mem_digits n (by omega)).2
      simp [numberOf, hdigit]
    · have hhigh := ih (n / base) (Nat.div_lt_self (by omega) hbase)
      have hmod := Nat.mod_lt n (by omega : base > 0)
      have hlow := (digitChar_mem_digits (n % base) (by omega)).2
      rw [numberOf] at hhigh
      rw [numberOf, List.foldl_append, hhigh, List.foldl_cons, List.foldl_nil, hlow]
      exact Nat.div_add_mod' n base

/-- Two texts that start with members of a list and go on with something else have the same
start. -/
theorem start_eq_of_forall_mem {l l' : List Char} (hl : ∀ c ∈ l, c ∈ cs) (hl' : ∀ c ∈ l', c ∈ cs)
    (hr : Avoids cs r) (hs : Avoids cs s) (h : l ++ r = l' ++ s) : l = l' ∧ r = s := by
  induction l generalizing l' with
  | nil =>
    cases l' with
    | nil => exact ⟨rfl, h⟩
    | cons c l' =>
      subst h
      exact absurd (hl' c (List.mem_cons_self ..)) (hr c rfl)
  | cons c l ih =>
    cases l' with
    | nil =>
      subst h
      exact absurd (hl c (List.mem_cons_self ..)) (hs c rfl)
    | cons c' l' =>
      rw [List.forall_mem_cons] at hl hl'
      obtain ⟨rfl, hrest⟩ := List.cons.inj h
      obtain ⟨rfl, rfl⟩ := ih hl.2 hl'.2 hrest
      exact ⟨rfl, rfl⟩

/-- A number is told by its digits if no digit comes behind them. -/
theorem legible_toDigits (hbase : 1 < base) (hle : base ≤ 16) :
    Legible digits (Nat.toDigits base) := by
  intro m n r s hr hs h
  obtain ⟨hdigits, hrest⟩ := start_eq_of_forall_mem (mem_digits_of_mem_toDigits hbase hle m)
    (mem_digits_of_mem_toDigits hbase hle n) hr hs h
  refine ⟨?_, hrest⟩
  rw [← numberOf_toDigits hbase hle m, hdigits, numberOf_toDigits hbase hle n]

/-! Escapes. -/

/-- The characters with a short escape, each with the letter that stands for it. -/
def shortEscapes : List (Char × Char) :=
  [('\x00', '0'), ('\t', 't'), ('\r', 'r'), ('\n', 'n'), ('"', '"'), ('\\', '\\')]

/-- The ways in which a character is written between quotes: as it is, by a letter, or by its
number. -/
inductive Escape (c : Char) : List Char → Prop
  | plain (hquote : c ≠ '"') (hbackslash : c ≠ '\\') : Escape c [c]
  | short {letter : Char} (h : (c, letter) ∈ shortEscapes) : Escape c ['\\', letter]
  | numbered : Escape c (['\\', 'u', '{'] ++ hexDigits c.toNat ++ ['}'])

theorem escape (c : Char) : Escape c (escapeChar c) := by
  unfold escapeChar
  split_ifs with hnull htab hreturn hnewline hquote hbackslash hprintable
  · subst hnull
    exact .short (by decide)
  · subst htab
    exact .short (by decide)
  · subst hreturn
    exact .short (by decide)
  · subst hnewline
    exact .short (by decide)
  · subst hquote
    exact .short (by decide)
  · subst hbackslash
    exact .short (by decide)
  · exact .plain hquote hbackslash
  · exact .numbered

theorem Escape.exists_cons {c : Char} {w : List Char} (h : Escape c w) :
    ∃ first rest, w = first :: rest ∧ first ≠ '"' := by
  cases h with
  | plain hquote _ => exact ⟨c, [], rfl, hquote⟩
  | short | numbered => exact ⟨'\\', _, rfl, by decide⟩

theorem letter_ne_u : ∀ p ∈ shortEscapes, p.2 ≠ 'u' := by decide

theorem shortEscapes_injective :
    ∀ p ∈ shortEscapes, ∀ q ∈ shortEscapes, p.2 = q.2 → p.1 = q.1 := by
  decide

theorem Escape.unique {c d : Char} {w v : List Char} (hc : Escape c w) (hd : Escape d v)
    (h : w ++ r = v ++ s) : c = d ∧ r = s := by
  cases hc with
  | plain _ hbackslash =>
    cases hd with
    | plain => exact List.cons.inj h
    | short | numbered => exact absurd (List.cons.inj h).1 hbackslash
  | @short letter hletter =>
    cases hd with
    | plain _ hbackslash => exact absurd (List.cons.inj h).1.symm hbackslash
    | @short letter' hletter' =>
      obtain ⟨rfl, hrest⟩ := List.cons.inj (List.cons.inj h).2
      exact ⟨shortEscapes_injective _ hletter _ hletter' rfl, hrest⟩
    | numbered =>
      have hu : letter = 'u' := (List.cons.inj (List.cons.inj h).2).1
      exact absurd hu (letter_ne_u _ hletter)
  | numbered =>
    cases hd with
    | plain _ hbackslash => exact absurd (List.cons.inj h).1.symm hbackslash
    | @short letter' hletter' =>
      have hu : 'u' = letter' := (List.cons.inj (List.cons.inj h).2).1
      exact absurd hu.symm (letter_ne_u _ hletter')
    | numbered =>
      simp only [List.append_assoc, List.append_cancel_left_eq] at h
      have hclosing : ∀ t, Avoids digits (['}'] ++ t) := fun _ => avoids_cons (by decide)
      obtain ⟨hnumber, hrest⟩ :=
        legible_toDigits (by decide) (by decide) (hclosing r) (hclosing s) h
      exact ⟨Char.toNat_inj.1 hnumber, (List.cons.inj hrest).2⟩

theorem legible_escapeChar : Legible [] escapeChar := fun c d _ _ _ _ h =>
  (escape c).unique (escape d) h

/-- A quoted string is told apart from whatever stands behind it. -/
theorem legible_quoted : Legible [] quoted := by
  intro u v r s _ _ h
  have hcontents : u.flatMap escapeChar ++ '"' :: r = v.flatMap escapeChar ++ '"' :: s := by
    simpa [quoted] using h
  exact legible_escapeChar.flatMap (fun c => (escape c).exists_cons) hcontents

end HtmlMarkdown.Text
