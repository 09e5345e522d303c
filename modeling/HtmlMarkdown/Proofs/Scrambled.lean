import HtmlMarkdown.Clipboard.Formats
import HtmlMarkdown.Proofs.Encoding

/-!
What the Windows clipboard writes to a file, and reading it back. The bytes of a text with a header
are taken for code page 1252, and the code points that they read as are written as units of two
bytes. Every byte comes back, those too that the code page leaves open, so the text comes back, and
the offset in its header, which counts bytes of UTF-8, ends with a character.
-/
namespace HtmlMarkdown.Clipboard

/-! Code page 1252. -/

/-- The code points of the bytes from 0x80 to 0x9F, in order. Code page 1252 gives five of them no
character; such a byte reads as the code point of its own number. -/
def westernRows : List Nat :=
  [0x20AC, 0x81, 0x201A, 0x0192, 0x201E, 0x2026, 0x2020, 0x2021,
    0x02C6, 0x2030, 0x0160, 0x2039, 0x0152, 0x8D, 0x017D, 0x8F,
    0x90, 0x2018, 0x2019, 0x201C, 0x201D, 0x2022, 0x2013, 0x2014,
    0x02DC, 0x2122, 0x0161, 0x203A, 0x0153, 0x9D, 0x017E, 0x0178]

/-- The code point that a byte reads as. -/
def westernUnit (byte : UInt8) : Nat :=
  if 0x80 ≤ byte.toNat ∧ byte.toNat < 0xA0 then westernRows.getD (byte.toNat - 0x80) 0
  else byte.toNat

/-- No two of the bytes read alike, and the table of those above 0xFF misses none. -/
theorem westernByte?_row : ∀ i < 32,
    westernByte? (westernRows.getD i 0) = some (UInt8.ofNat (i + 0x80)) ∧
      westernRows.getD i 0 < 0x10000 := by
  decide

theorem westernByte?_unit (byte : UInt8) :
    westernByte? (westernUnit byte) = some byte ∧ westernUnit byte < 0x10000 := by
  have hlt := byte.toNat_lt
  unfold westernUnit
  split
  · rename_i h
    have hrow := westernByte?_row (byte.toNat - 0x80) (by omega)
    have hbyte : byte.toNat - 0x80 + 0x80 = byte.toNat := by omega
    rwa [hbyte, UInt8.ofNat_toNat] at hrow
  · refine ⟨?_, by omega⟩
    rw [westernByte?, if_pos (by omega), Nat.toUInt8, UInt8.ofNat_toNat]

/-! Units of two bytes. -/

/-- The two bytes of a unit, the low one first. -/
def unitBytes (unit : Nat) : List UInt8 := [UInt8.ofNat unit, UInt8.ofNat (unit / 256)]

/-- What stands in the file for a text: a byte order mark, and a unit for every byte. -/
def scramble (s : List Char) : List UInt8 :=
  0xFF :: 0xFE :: (Text.encode s).flatMap fun byte => unitBytes (westernUnit byte)

/-- The two bytes of a unit spell the unit. -/
theorem value_unitBytes {unit : Nat} (hlt : unit < 0x10000) :
    (UInt8.ofNat unit).toNat + 256 * (UInt8.ofNat (unit / 256)).toNat = unit := by
  rw [UInt8.toNat_ofNat', UInt8.toNat_ofNat']
  omega

theorem bytesOfUnits_cons {unit : Nat} {byte : UInt8} (hlt : unit < 0x10000)
    (hbyte : westernByte? unit = some byte) (index : Nat) (rest : List UInt8) :
    bytesOfUnits index (unitBytes unit ++ rest) =
      (bytesOfUnits (index + 1) rest).map (byte :: ·) := by
  simp only [unitBytes, List.cons_append, List.nil_append, bytesOfUnits, value_unitBytes hlt, hbyte]

theorem bytesOfUnits_western (index : Nat) (bytes : List UInt8) :
    bytesOfUnits index (bytes.flatMap fun byte => unitBytes (westernUnit byte)) = .ok bytes := by
  induction bytes generalizing index with
  | nil => rfl
  | cons byte rest ih =>
    obtain ⟨hbyte, hlt⟩ := westernByte?_unit byte
    rw [List.flatMap_cons, bytesOfUnits_cons hlt hbyte, ih]
    rfl

theorem unscramble_scramble (s : List Char) : unscramble (scramble s) = .ok s := by
  rw [scramble, unscramble, bytesOfUnits_western, Except.map, Text.decodeLossy_encode]

/-! The header. -/

/-- A numeral, with zeros in front. -/
def numeral (zeros n : Nat) : List Char := List.replicate zeros '0' ++ Nat.toDigits 10 n

theorem isDigit_of_mem_numeral {zeros n : Nat} : ∀ c ∈ numeral zeros n, c.isDigit = true := by
  intro c hc
  rcases List.mem_append.1 hc with hzero | hdigit
  · rw [List.eq_of_mem_replicate hzero]
    rfl
  · exact Nat.isDigit_of_mem_toDigits (by omega) (by omega) hdigit

theorem decimalValue_numeral (zeros n : Nat) : decimalValue (numeral zeros n) = n := by
  have hvalue : ∀ s, decimalValue s = Nat.ofDigitChars 10 s 0 := fun s =>
    Nat.ofDigitChars_eq_foldl.symm
  rw [hvalue, numeral, Nat.ofDigitChars_append, Nat.ofDigitChars_replicate_zero, Nat.mul_zero,
    Nat.ofDigitChars_ten_toDigits]

/-- What stands in front of the HTML: the offset at which it starts, and the rest of the header. -/
def header (zeros start : Nat) (remainder : List Char) : List Char :=
  "Version:0.9\r\nStartHTML:".toList ++ numeral zeros start ++ remainder

theorem statedStart?_header {zeros start : Nat} {c : Char} (hc : c.isDigit = false)
    (hfits : start < 2 ^ 64) (s : List Char) :
    statedStart? (headerStart ++ numeral zeros start ++ c :: s) = some start := by
  have hdigits : (numeral zeros start ++ c :: s).takeWhile Char.isDigit = numeral zeros start := by
    rw [List.takeWhile_append_of_pos isDigit_of_mem_numeral,
      List.takeWhile_cons_of_neg (by simp [hc]), List.append_nil]
  have hne : numeral zeros start ≠ [] := by
    intro hnil
    exact Nat.toDigits_ne_nil (List.append_eq_nil_iff.1 hnil).2
  obtain ⟨first, more, hcons⟩ := List.exists_cons_of_ne_nil hne
  have hsize : start < UInt64.size := hfits
  have hstated :
      headerStart.isPrefixOf (headerStart ++ (numeral zeros start ++ c :: s)) = true := by
    rw [List.isPrefixOf_iff_prefix]
    exact List.prefix_append ..
  rw [List.append_assoc, statedStart?, if_pos hstated, List.drop_left, hdigits, hcons]
  simp only
  rw [← hcons, decimalValue_numeral, if_pos hsize]

/-- As many bytes as a text has end with its last character. -/
theorem dropBytes?_encode (s rest : List Char) :
    dropBytes? (Text.encode s).length (s ++ rest) = some rest := by
  induction s with
  | nil => simp [dropBytes?]
  | cons c s ih =>
    have hpos := c.utf8Size_pos
    have hlength : (Text.encode (c :: s)).length =
        c.utf8Size + (Text.encode s).length - 1 + 1 := by
      rw [Text.encode_cons, List.length_append, String.length_utf8EncodeChar]
      omega
    have hleft : c.utf8Size + (Text.encode s).length - 1 + 1 - c.utf8Size =
        (Text.encode s).length := by omega
    rw [hlength, List.cons_append, dropBytes?, if_pos (by omega), hleft, ih]

/-- A header that states how many bytes it has, in a numeral with any zeros in front, is followed by
the HTML, whatever the header's remainder is, if only the numeral ends where it starts. -/
theorem htmlAfterHeader_unscramble {remainder : List Char} {zeros start : Nat}
    (hremainder : ∃ c rest, remainder = c :: rest ∧ c.isDigit = false)
    (hstart : start = (Text.encode (header zeros start remainder)).length)
    (hfits : start < 2 ^ 64) (html : List Char) :
    (unscramble (scramble (header zeros start remainder ++ html)) >>= htmlAfterHeader) =
      .ok html := by
  obtain ⟨c, rest, rfl, hc⟩ := hremainder
  have hstated : statedStart? (header zeros start (c :: rest) ++ html) = some start := by
    have hheader : header zeros start (c :: rest) =
        headerStart ++ numeral zeros start ++ c :: rest := rfl
    rw [hheader, List.append_assoc, List.cons_append]
    exact statedStart?_header hc hfits (rest ++ html)
  have hdrop : dropBytes? start (header zeros start (c :: rest) ++ html) = some html := by
    have hexact := dropBytes?_encode (header zeros start (c :: rest)) html
    rwa [← hstart] at hexact
  rw [unscramble_scramble]
  change htmlAfterHeader _ = _
  rw [htmlAfterHeader, hstated]
  simp only [hdrop]

/-- A header with a zero in front of its offset and a letter of two bytes behind it. The bytes of
the HTML are among those that the code page leaves open. -/
theorem htmlAfterHeader_unscramble_openBytes :
    (∃ c rest, "\r\nß".toList = c :: rest ∧ c.isDigit = false) ∧
      30 = (Text.encode (header 1 30 "\r\nß".toList)).length ∧ 30 < 2 ^ 64 ∧
      (unscramble (scramble (header 1 30 "\r\nß".toList ++ "ÁÍÏÐÝ—".toList)) >>= htmlAfterHeader) =
        .ok "ÁÍÏÐÝ—".toList := by
  have hremainder : ∃ c rest, "\r\nß".toList = c :: rest ∧ c.isDigit = false :=
    ⟨'\r', ['\n', 'ß'], rfl, rfl⟩
  have hstart : 30 = (Text.encode (header 1 30 "\r\nß".toList)).length := by decide
  have hfits : 30 < 2 ^ 64 := by decide
  exact ⟨hremainder, hstart, hfits, htmlAfterHeader_unscramble hremainder hstart hfits _⟩

end HtmlMarkdown.Clipboard
