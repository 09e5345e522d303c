import HtmlMarkdown.Text.Utf8
import Mathlib.Data.List.TakeWhile
import Mathlib.Tactic.IntervalCases

/-!
Encoding a text as UTF-8 and decoding it again. A code point of more than one byte is cut into
groups of six bits, the first of which stands in the lead byte, and the lead byte tells how many
groups follow. The ranges that a decoder admits for the second byte keep out what is too long, the
surrogates and what lies beyond the last code point; the encoding of a character is never there.
-/
namespace HtmlMarkdown.Text

/-- The UTF-8 bytes of a text. -/
def encode (s : List Char) : List UInt8 := s.flatMap String.utf8EncodeChar

@[simp] theorem encode_nil : encode [] = [] := rfl

@[simp] theorem encode_cons (c : Char) (s : List Char) :
    encode (c :: s) = String.utf8EncodeChar c ++ encode s := rfl

@[simp] theorem encode_append (s u : List Char) : encode (s ++ u) = encode s ++ encode u :=
  List.flatMap_append

/-! Lead bytes. -/

theorem sequenceShape?_two {high : Nat} (h : 2 ≤ high) (h' : high < 0x20) :
    sequenceShape? (high + 0xC0) = some ⟨high, 0x80, 0xBF, 0⟩ := by
  interval_cases high <;> rfl

theorem sequenceShape?_three {high : Nat} (h : high < 0x10) :
    sequenceShape? (high + 0xE0) = some ⟨high, if high = 0 then 0xA0 else 0x80,
      if high = 0xD then 0x9F else 0xBF, 1⟩ := by
  interval_cases high <;> rfl

theorem sequenceShape?_four {high : Nat} (h : high ≤ 4) :
    sequenceShape? (high + 0xF0) = some ⟨high, if high = 0 then 0x90 else 0x80,
      if high = 4 then 0x8F else 0xBF, 2⟩ := by
  interval_cases high <;> rfl

/-! The bytes behind the lead byte. -/

theorem continueSequence_cons {value more bits : Nat} (hbits : bits < 0x40) (rest : List UInt8) :
    continueSequence value (more + 1) (UInt8.ofNat (bits + 0x80) :: rest) =
      continueSequence (value * 64 + bits) more rest := by
  have hbyte : (UInt8.ofNat (bits + 0x80)).toNat = bits + 0x80 := by
    rw [UInt8.toNat_ofNat']
    omega
  have hmod : (bits + 0x80) % 64 = bits := by omega
  rw [continueSequence, hbyte, if_pos (by omega), hmod]

theorem readSequence_ascii {v : Nat} (h : v ≤ 0x7F) (rest : List UInt8) :
    readSequence (UInt8.ofNat v) rest = (some (Char.ofNat v), rest) := by
  have hbyte : (UInt8.ofNat v).toNat = v := by
    rw [UInt8.toNat_ofNat']
    omega
  unfold readSequence
  rw [hbyte, if_pos (by omega)]

theorem readSequence_cons {lead high min max more bits : Nat} (hlow : 0x80 ≤ lead)
    (hlead : lead < 0x100) (hshape : sequenceShape? lead = some ⟨high, min, max, more⟩)
    (hbits : bits < 0x40) (hmin : min ≤ bits + 0x80) (hmax : bits + 0x80 ≤ max)
    (rest : List UInt8) :
    readSequence (UInt8.ofNat lead) (UInt8.ofNat (bits + 0x80) :: rest) =
      ((continueSequence (high * 64 + bits) more rest).1.map Char.ofNat,
        (continueSequence (high * 64 + bits) more rest).2) := by
  have hbyte : (UInt8.ofNat lead).toNat = lead := by
    rw [UInt8.toNat_ofNat']
    omega
  have hsecond : (UInt8.ofNat (bits + 0x80)).toNat = bits + 0x80 := by
    rw [UInt8.toNat_ofNat']
    omega
  have hmod : (bits + 0x80) % 64 = bits := by omega
  unfold readSequence
  rw [hbyte, if_neg (by omega)]
  simp only [hshape, hsecond, hmod, if_pos (And.intro hmin hmax)]

/-! Characters. -/

theorem toNat_lt_or_gt (c : Char) :
    c.toNat < 0xD800 ∨ (0xDFFF < c.toNat ∧ c.toNat < 0x110000) := c.valid

/-- A decoder reads a character's bytes and stops behind them. -/
theorem exists_readSequence (c : Char) (rest : List UInt8) :
    ∃ lead more, String.utf8EncodeChar c = lead :: more ∧
      readSequence lead (more ++ rest) = (some c, rest) := by
  have hvalid := toNat_lt_or_gt c
  have hchar : Char.ofNat c.toNat = c := Char.ofNat_toNat c
  have hval : c.val.toNat = c.toNat := rfl
  generalize c.toNat = v at hvalid hchar hval
  simp only [String.utf8EncodeChar, hval]
  by_cases h1 : v ≤ 0x7F
  · refine ⟨_, _, if_pos h1, ?_⟩
    rw [readSequence_ascii h1, hchar, List.nil_append]
  by_cases h2 : v ≤ 0x7FF
  · refine ⟨_, _, (if_neg h1).trans (if_pos h2), ?_⟩
    have hhigh : 2 ≤ v / 64 % 0x20 := by omega
    have hshape := sequenceShape?_two hhigh (by omega)
    have hvalue : v / 64 % 0x20 * 64 + v % 0x40 = v := by omega
    rw [List.cons_append, readSequence_cons (by omega) (by omega) hshape (by omega) (by omega)
      (by omega)]
    simp only [continueSequence, hvalue, Option.map_some, hchar, List.nil_append]
  by_cases h3 : v ≤ 0xFFFF
  · refine ⟨_, _, (if_neg h1).trans ((if_neg h2).trans (if_pos h3)), ?_⟩
    have hhigh : v / 4096 % 0x10 < 0x10 := by omega
    have hshape := sequenceShape?_three hhigh
    have hvalue : (v / 4096 % 0x10 * 64 + v / 64 % 0x40) * 64 + v % 0x40 = v := by omega
    rw [List.cons_append, readSequence_cons (by omega) (by omega) hshape (by omega)
      (by split <;> omega) (by split <;> omega), List.cons_append,
      continueSequence_cons (by omega)]
    simp only [continueSequence, hvalue, Option.map_some, hchar, List.nil_append]
  · refine ⟨_, _, (if_neg h1).trans ((if_neg h2).trans (if_neg h3)), ?_⟩
    have hhigh : v / 262144 % 0x08 ≤ 4 := by omega
    have hshape := sequenceShape?_four hhigh
    have hvalue : ((v / 262144 % 0x08 * 64 + v / 4096 % 0x40) * 64 + v / 64 % 0x40) * 64
        + v % 0x40 = v := by omega
    rw [List.cons_append, readSequence_cons (by omega) (by omega) hshape (by omega)
      (by split <;> omega) (by split <;> omega), List.cons_append,
      continueSequence_cons (by omega), List.cons_append, continueSequence_cons (by omega)]
    simp only [continueSequence, hvalue, Option.map_some, hchar, List.nil_append]

/-- What has been encoded is valid. -/
theorem decodeSequences_encode (s : List Char) : decodeSequences (encode s) = s.map some := by
  induction s with
  | nil => rw [encode_nil, decodeSequences, List.map_nil]
  | cons c s ih =>
    obtain ⟨lead, more, hbytes, hread⟩ := exists_readSequence c (encode s)
    rw [encode_cons, hbytes, List.cons_append, decodeSequences, hread, ih, List.map_cons]

theorem decodeLossy_encode (s : List Char) : decodeLossy (encode s) = s := by
  simp [decodeLossy, decodeSequences_encode]

theorem decode?_encode (s : List Char) : decode? (encode s) = some s := by
  rw [decode?, decodeSequences_encode]
  induction s with
  | nil => rfl
  | cons c s ih => simp [List.mapM_cons, ih]

end HtmlMarkdown.Text
