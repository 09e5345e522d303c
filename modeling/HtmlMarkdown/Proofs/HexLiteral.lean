import HtmlMarkdown.Clipboard.Read
import HtmlMarkdown.Proofs.Encoding
import HtmlMarkdown.Proofs.Lines

/-!
The literal of hexadecimal digits. It has a line to itself, holds at least one pair of digits and
nothing else, and its digits are upper case. Main statement: a text has HTML exactly if one of its
lines is such a literal, the first of them counts, and it is read back as what has been written.
-/
namespace HtmlMarkdown.Clipboard

open Text

/-! Digits. -/

/-- The digits of base sixteen, in the order of their values. -/
def hexAlphabet : List Char := "0123456789ABCDEF".toList

/-- The byte that a pair of digits spells, the high digit first. -/
def pairByte (pair : Char × Char) : UInt8 :=
  UInt8.ofNat (16 * hexAlphabet.idxOf pair.1 + hexAlphabet.idxOf pair.2)

/-- The pair of digits that spells a byte. -/
def bytePair (byte : UInt8) : Char × Char :=
  (hexAlphabet.getD (byte.toNat / 16) '0', hexAlphabet.getD (byte.toNat % 16) '0')

/-- The digits of some pairs. -/
def digitsOf (pairs : List (Char × Char)) : List Char := pairs.flatMap fun pair => [pair.1, pair.2]

/-- All digits of the pairs are digits of base sixteen. -/
def AreHex (pairs : List (Char × Char)) : Prop :=
  ∀ pair ∈ pairs, pair.1 ∈ hexAlphabet ∧ pair.2 ∈ hexAlphabet

theorem toNat_of_mem_hexAlphabet : ∀ c ∈ hexAlphabet,
    (48 ≤ c.toNat ∧ c.toNat ≤ 57 ∨ 65 ≤ c.toNat ∧ c.toNat ≤ 70) ∧
      hexValue? c = some (hexAlphabet.idxOf c) :=
  List.forall_iff_forall_mem.1 (by decide)

theorem mem_hexAlphabet_of_toNat {c : Char}
    (h : 48 ≤ c.toNat ∧ c.toNat ≤ 57 ∨ 65 ≤ c.toNat ∧ c.toNat ≤ 70) : c ∈ hexAlphabet := by
  have hchar : Char.ofNat c.toNat = c := Char.ofNat_toNat c
  generalize c.toNat = v at h hchar
  subst hchar
  rcases h with ⟨hlow, hhigh⟩ | ⟨hlow, hhigh⟩ <;> interval_cases v <;> decide

theorem hexValue?_eq_some_iff {c : Char} {v : Nat} :
    hexValue? c = some v ↔ c ∈ hexAlphabet ∧ v = hexAlphabet.idxOf c := by
  constructor
  · intro h
    have hmem : c ∈ hexAlphabet := by
      apply mem_hexAlphabet_of_toNat
      unfold hexValue? at h
      split_ifs at h with hdigit hletter
      · exact Or.inl hdigit
      · exact Or.inr hletter
    rw [(toNat_of_mem_hexAlphabet c hmem).2] at h
    exact ⟨hmem, (Option.some.inj h).symm⟩
  · rintro ⟨hmem, rfl⟩
    exact (toNat_of_mem_hexAlphabet c hmem).2

theorem hexAlphabet_getD : ∀ i < 16, hexAlphabet.getD i '0' ∈ hexAlphabet ∧
    hexAlphabet.idxOf (hexAlphabet.getD i '0') = i := by
  decide

theorem areHex_map_bytePair (bytes : List UInt8) : AreHex (bytes.map bytePair) := by
  intro pair hpair
  obtain ⟨byte, -, rfl⟩ := List.mem_map.1 hpair
  have hlt := byte.toNat_lt
  exact ⟨(hexAlphabet_getD (byte.toNat / 16) (by omega)).1,
    (hexAlphabet_getD (byte.toNat % 16) (by omega)).1⟩

theorem pairByte_bytePair (byte : UInt8) : pairByte (bytePair byte) = byte := by
  have hlt := byte.toNat_lt
  have hhigh := (hexAlphabet_getD (byte.toNat / 16) (by omega)).2
  have hlow := (hexAlphabet_getD (byte.toNat % 16) (by omega)).2
  have hsum : 16 * (byte.toNat / 16) + byte.toNat % 16 = byte.toNat := by omega
  rw [pairByte, bytePair, hhigh, hlow, hsum, UInt8.ofNat_toNat]

/-- Reading takes digits in pairs, and nothing is left over. -/
theorem hexBytes?_eq_some_iff {digits : List Char} {bytes : List UInt8} :
    hexBytes? digits = some bytes ↔
      ∃ pairs, AreHex pairs ∧ digits = digitsOf pairs ∧ bytes = pairs.map pairByte := by
  constructor
  · intro h
    fun_induction hexBytes? digits generalizing bytes with
    | case1 =>
      cases h
      exact ⟨[], by simp [AreHex], rfl, rfl⟩
    | case2 => cases h
    | case3 high low rest hv lv more hmore hlow hhigh ih =>
      cases h
      obtain ⟨pairs, hhex, rfl, rfl⟩ := ih hmore
      obtain ⟨hhighMem, rfl⟩ := hexValue?_eq_some_iff.1 hhigh
      obtain ⟨hlowMem, rfl⟩ := hexValue?_eq_some_iff.1 hlow
      refine ⟨(high, low) :: pairs, ?_, rfl, ?_⟩
      · exact List.forall_mem_cons.2 ⟨⟨hhighMem, hlowMem⟩, hhex⟩
      · rw [List.map_cons, pairByte, Nat.mul_comm 16, Nat.toUInt8]
    | case4 => cases h
  · rintro ⟨pairs, hhex, rfl, rfl⟩
    induction pairs with
    | nil => rfl
    | cons pair rest ih =>
      obtain ⟨⟨hhigh, hlow⟩, hrest⟩ := List.forall_mem_cons.1 hhex
      have hhighValue := hexValue?_eq_some_iff.2 ⟨hhigh, rfl⟩
      have hlowValue := hexValue?_eq_some_iff.2 ⟨hlow, rfl⟩
      have hdigits : digitsOf (pair :: rest) = pair.1 :: pair.2 :: digitsOf rest := rfl
      simp only [hdigits, hexBytes?, hhighValue, hlowValue, ih hrest]
      rw [List.map_cons, pairByte, Nat.mul_comm 16, Nat.toUInt8]

/-! Lines. -/

/-- The line is a literal, and these are the pairs of digits that stand in it. -/
structure IsLiteral (line : List Char) (pairs : List (Char × Char)) : Prop where
  line_eq : line = "«data HTML".toList ++ digitsOf pairs ++ ['»']
  ne_nil : pairs ≠ []
  areHex : AreHex pairs

/-- The line that is written for some bytes. -/
def literal (bytes : List UInt8) : List Char :=
  "«data HTML".toList ++ digitsOf (bytes.map bytePair) ++ ['»']

theorem isLiteral_literal {bytes : List UInt8} (h : bytes ≠ []) :
    IsLiteral (literal bytes) (bytes.map bytePair) :=
  ⟨rfl, by simpa using h, areHex_map_bytePair bytes⟩

theorem between?_eq_some_iff {before after line middle : List Char} :
    between? before after line = some middle ↔ line = before ++ middle ++ after := by
  rw [between?, Option.ite_none_right_eq_some, Bool.and_eq_true, List.isPrefixOf_iff_prefix,
    List.isSuffixOf_iff_suffix]
  constructor
  · rintro ⟨⟨⟨rest, rfl⟩, hafter⟩, hmiddle⟩
    rw [List.drop_left] at hafter hmiddle
    obtain ⟨m, rfl⟩ := hafter
    have hlength : (before ++ (m ++ after)).length - before.length - after.length = m.length := by
      simp only [List.length_append]
      omega
    rw [hlength, Option.some.injEq, List.take_left] at hmiddle
    rw [hmiddle, List.append_assoc]
  · rintro rfl
    have hlength :
        (before ++ middle ++ after).length - before.length - after.length = middle.length := by
      simp only [List.length_append]
      omega
    rw [List.append_assoc] at hlength ⊢
    rw [hlength, List.drop_left, List.take_left]
    exact ⟨⟨List.prefix_append .., List.suffix_append ..⟩, rfl⟩

theorem literalBytes?_eq_some_iff {line : List Char} {bytes : List UInt8} :
    literalBytes? line = some bytes ↔
      ∃ pairs, IsLiteral line pairs ∧ bytes = pairs.map pairByte := by
  have hread : ∀ found, (between? "«data HTML".toList ['»'] line).bind hexBytes? = some found ↔
      ∃ pairs, AreHex pairs ∧ line = "«data HTML".toList ++ digitsOf pairs ++ ['»'] ∧
        found = pairs.map pairByte := by
    intro found
    simp only [Option.bind_eq_some_iff, between?_eq_some_iff, hexBytes?_eq_some_iff]
    constructor
    · rintro ⟨digits, hline, pairs, hhex, rfl, hbytes⟩
      exact ⟨pairs, hhex, hline, hbytes⟩
    · rintro ⟨pairs, hhex, hline, hbytes⟩
      exact ⟨digitsOf pairs, hline, pairs, hhex, rfl, hbytes⟩
  have hne : literalBytes? line = some bytes ↔
      (between? "«data HTML".toList ['»'] line).bind hexBytes? = some bytes ∧ bytes ≠ [] := by
    unfold literalBytes?
    split
    · rename_i hempty
      rw [hempty]
      constructor
      · intro h
        cases h
      · rintro ⟨h, hbytes⟩
        exact absurd (Option.some.inj h).symm hbytes
    · rename_i hfull
      constructor
      · intro h
        refine ⟨h, ?_⟩
        rintro rfl
        exact hfull h
      · exact And.left
  rw [hne, hread]
  constructor
  · rintro ⟨⟨pairs, hhex, hline, rfl⟩, hbytes⟩
    exact ⟨pairs, ⟨hline, by simpa using hbytes, hhex⟩, rfl⟩
  · rintro ⟨pairs, h, rfl⟩
    exact ⟨⟨pairs, h.areHex, h.line_eq, rfl⟩, by simpa using h.ne_nil⟩

theorem literalBytes?_eq_none_iff {line : List Char} :
    literalBytes? line = none ↔ ∀ pairs, ¬ IsLiteral line pairs := by
  rw [Option.eq_none_iff_forall_ne_some]
  constructor
  · intro h pairs hliteral
    exact h _ (literalBytes?_eq_some_iff.2 ⟨pairs, hliteral, rfl⟩)
  · intro h bytes hbytes
    obtain ⟨pairs, hliteral, -⟩ := literalBytes?_eq_some_iff.1 hbytes
    exact h pairs hliteral

theorem IsLiteral.newline_notMem {line : List Char} {pairs : List (Char × Char)}
    (h : IsLiteral line pairs) : '\n' ∉ line := by
  rw [h.line_eq, List.mem_append, List.mem_append]
  rintro ((hstart | hdigit) | hend)
  · exact absurd hstart (by decide)
  · obtain ⟨pair, hpair, hmem⟩ := List.mem_flatMap.1 hdigit
    have hhex := h.areHex pair hpair
    rcases List.mem_pair.1 hmem with heq | heq
    · exact absurd (heq ▸ hhex.1) (by decide)
    · exact absurd (heq ▸ hhex.2) (by decide)
  · exact absurd hend (by decide)

/-! Texts. -/

/-- If a line is a literal, one of the lines is the first to be one. -/
theorem exists_firstLiteral {ls : List (List Char)}
    (h : ∃ line ∈ ls, ∃ pairs, IsLiteral line pairs) :
    ∃ before line after pairs, ls = before ++ line :: after ∧
      (∀ other ∈ before, ∀ p, ¬ IsLiteral other p) ∧ IsLiteral line pairs := by
  obtain ⟨line, hline, pairs, hliteral⟩ := h
  induction ls with
  | nil => cases hline
  | cons first rest ih =>
    by_cases hfirst : ∃ p, IsLiteral first p
    · obtain ⟨p, hp⟩ := hfirst
      exact ⟨[], first, rest, p, rfl, by simp, hp⟩
    · rcases List.mem_cons.1 hline with rfl | hline
      · exact absurd ⟨pairs, hliteral⟩ hfirst
      · obtain ⟨before, found, after, p, rfl, hbefore, hfound⟩ := ih hline
        refine ⟨first :: before, found, after, p, rfl, ?_, hfound⟩
        exact List.forall_mem_cons.2 ⟨not_exists.1 hfirst, hbefore⟩

/-- The first of the lines that are literals counts. -/
theorem htmlOfLiteral_eq_ok {s : List Char} {before after : List (List Char)} {line : List Char}
    {pairs : List (Char × Char)} (hlines : lines s = before ++ line :: after)
    (hbefore : ∀ other ∈ before, ∀ p, ¬ IsLiteral other p) (hline : IsLiteral line pairs) :
    htmlOfLiteral s = .ok (decodeLossy (pairs.map pairByte)) := by
  have hfound : (lines s).findSome? literalBytes? = some (pairs.map pairByte) := by
    rw [List.findSome?_eq_some_iff]
    refine ⟨before, line, after, hlines, literalBytes?_eq_some_iff.2 ⟨pairs, hline, rfl⟩, ?_⟩
    intro other hother
    exact literalBytes?_eq_none_iff.2 (hbefore other hother)
  rw [htmlOfLiteral, hfound]

theorem htmlOfLiteral_eq_error {s : List Char}
    (h : ∀ line ∈ lines s, ∀ pairs, ¬ IsLiteral line pairs) :
    htmlOfLiteral s = .error .noLiteral := by
  have hnone : (lines s).findSome? literalBytes? = none := by
    rw [List.findSome?_eq_none_iff]
    intro line hline
    exact literalBytes?_eq_none_iff.2 (h line hline)
  rw [htmlOfLiteral, hnone]

theorem htmlOfLiteral_isOk_iff {s : List Char} :
    (∃ found, htmlOfLiteral s = .ok found) ↔ ∃ line ∈ lines s, ∃ pairs, IsLiteral line pairs := by
  constructor
  · rintro ⟨found, hfound⟩
    by_contra hnone
    push Not at hnone
    rw [htmlOfLiteral_eq_error hnone] at hfound
    cases hfound
  · intro hsome
    obtain ⟨before, line, after, pairs, hlines, hbefore, hline⟩ := exists_firstLiteral hsome
    exact ⟨_, htmlOfLiteral_eq_ok hlines hbefore hline⟩

/-- A literal stands on a line of its own behind `front`. -/
def LiteralAt (s front : List Char) (pairs : List (Char × Char)) : Prop :=
  ∃ line back, IsLineAt s front line back ∧ IsLiteral line pairs

/-- The literal that comes first in a text is the first line to be one. -/
theorem exists_lines_of_literalAt {s front : List Char} {pairs : List (Char × Char)}
    (hat : LiteralAt s front pairs)
    (hfirst : ∀ earlier p, LiteralAt s earlier p → front.length ≤ earlier.length) :
    ∃ before line after, lines s = before ++ line :: after ∧
      (∀ other ∈ before, ∀ p, ¬ IsLiteral other p) ∧ IsLiteral line pairs := by
  obtain ⟨line, back, hplace, hline⟩ := hat
  obtain ⟨before, after, hlines, rfl⟩ := hplace.exists_lines hline.newline_notMem
  refine ⟨before, line, after, hlines, ?_, hline⟩
  intro other hother p hliteral
  obtain ⟨sooner, later, rfl⟩ := List.append_of_mem hother
  rw [List.append_assoc, List.cons_append] at hlines
  obtain ⟨back', hplace'⟩ := isLineAt_of_lines hlines
  have hle := hfirst _ p ⟨other, back', hplace', hliteral⟩
  simp only [ended, List.flatMap_append, List.flatMap_cons, List.length_append,
    List.length_singleton] at hle
  omega

/-- What is written as a literal is read back. -/
theorem htmlOfLiteral_literal {before after : List (List Char)}
    (hbefore : ∀ line ∈ before, ∀ pairs, ¬ IsLiteral line pairs)
    (hnewline : ∀ line ∈ before ++ after, '\n' ∉ line) {text : List Char} (htext : text ≠ []) :
    htmlOfLiteral (['\n'].intercalate (before ++ literal (encode text) :: after)) = .ok text := by
  have hbytes : encode text ≠ [] := by
    intro hnil
    apply htext
    rw [← decodeLossy_encode text, hnil]
    simp [decodeLossy, decodeSequences]
  have hliteral := isLiteral_literal hbytes
  have hparts : ∀ part ∈ before ++ literal (encode text) :: after, '\n' ∉ part := by
    rw [List.forall_mem_append] at hnewline
    rw [List.forall_mem_append, List.forall_mem_cons]
    exact ⟨hnewline.1, hliteral.newline_notMem, hnewline.2⟩
  have hlines := lines_intercalate (by simp) hparts
  have hmap : ((encode text).map bytePair).map pairByte = encode text := by
    simp [Function.comp_def, pairByte_bytePair]
  rw [htmlOfLiteral_eq_ok hlines hbefore hliteral, hmap, decodeLossy_encode]

/-- A text yields HTML exactly if one of its lines is a literal. The HTML is what the bytes decode
to that the pairs of digits in the first such line spell, and that line is also the literal that a
search through the text comes to first. Without one the output is malformed. So what is written as
a literal is read back, whatever stands on the lines around it. -/
theorem htmlOfLiteral_firstLiteral :
    (∀ s, (∃ text, html (htmlOfLiteral s) = .ok text) ↔
      ∃ line ∈ lines s, ∃ pairs, IsLiteral line pairs) ∧
    (∀ s before line after pairs, lines s = before ++ line :: after →
      (∀ other ∈ before, ∀ p, ¬ IsLiteral other p) → IsLiteral line pairs →
        html (htmlOfLiteral s) = .ok (textOf (pairs.map pairByte))) ∧
    (∀ s front pairs, LiteralAt s front pairs →
      (∀ earlier p, LiteralAt s earlier p → front.length ≤ earlier.length) →
        html (htmlOfLiteral s) = .ok (textOf (pairs.map pairByte))) ∧
    (∀ s, (∀ line ∈ lines s, ∀ pairs, ¬ IsLiteral line pairs) →
      html (htmlOfLiteral s) = .error (.malformed .noLiteral)) ∧
    ∀ text before after, text ≠ [] → (∀ line ∈ before ++ after, '\n' ∉ line) →
      (∀ line ∈ before, ∀ pairs, ¬ IsLiteral line pairs) →
        html (htmlOfLiteral (['\n'].intercalate (before ++ literal (encode text) :: after))) =
          .ok (String.ofList text) := by
  have hfirst : ∀ s before line after pairs, lines s = before ++ line :: after →
      (∀ other ∈ before, ∀ p, ¬ IsLiteral other p) → IsLiteral line pairs →
        html (htmlOfLiteral s) = .ok (textOf (pairs.map pairByte)) := by
    intro s before line after pairs hlines hbefore hline
    rw [htmlOfLiteral_eq_ok hlines hbefore hline]
    rfl
  refine ⟨?_, hfirst, ?_, ?_, ?_⟩
  · intro s
    rw [← htmlOfLiteral_isOk_iff]
    constructor
    · rintro ⟨text, htext⟩
      cases hfound : htmlOfLiteral s with
      | ok found => exact ⟨found, rfl⟩
      | error fault =>
        rw [hfound] at htext
        cases htext
    · rintro ⟨found, hfound⟩
      exact ⟨String.ofList found, by rw [hfound]; rfl⟩
  · intro s front pairs hat hsearch
    obtain ⟨before, line, after, hlines, hbefore, hline⟩ := exists_lines_of_literalAt hat hsearch
    exact hfirst s before line after pairs hlines hbefore hline
  · intro s hnone
    rw [htmlOfLiteral_eq_error hnone]
    rfl
  · intro text before after htext hnewline hbefore
    rw [htmlOfLiteral_literal hbefore hnewline htext]
    rfl

/-- Lines that come close to a literal: lower-case digits, half a pair, no pair at all, something in
front of it, a carriage return behind it. -/
theorem htmlOfLiteral_firstLiteral_nearMisses :
    let before := ["«data HTML3c»".toList, "«data HTML3»".toList, "«data HTML»".toList,
      "x«data HTML3C»".toList, "«data HTML3C»\r".toList]
    (∀ line ∈ before, ∀ pairs, ¬ IsLiteral line pairs) ∧
      html (htmlOfLiteral (['\n'].intercalate
        (before ++ literal (encode "<p>é</p>".toList) :: [[]]))) = .ok "<p>é</p>" := by
  intro before
  have hbefore : ∀ line ∈ before, ∀ pairs, ¬ IsLiteral line pairs := by
    have hnone : ∀ line ∈ before, literalBytes? line = none := by decide
    intro line hline
    exact literalBytes?_eq_none_iff.1 (hnone line hline)
  obtain ⟨-, -, -, -, hread⟩ := htmlOfLiteral_firstLiteral
  exact ⟨hbefore, hread "<p>é</p>".toList before [[]] (by decide) (by decide) hbefore⟩

end HtmlMarkdown.Clipboard
