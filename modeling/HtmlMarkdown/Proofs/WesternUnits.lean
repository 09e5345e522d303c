import HtmlMarkdown.Clipboard.Read
import HtmlMarkdown.Proofs.Scrambled
import Mathlib.Data.List.Induction

/-!
Files of units of two bytes, as the Windows clipboard leaves them. A unit stands for a byte if it is
the byte's own number or the code point that code page 1252 gives the byte. Main statement: a file
is read exactly if a byte order mark stands in front, every unit behind it stands for a byte, and no
byte is left over. Of several faults a missing mark comes first, then the first unit that stands for
no byte, and the byte that is left over comes last.
-/
namespace HtmlMarkdown.Clipboard

/-! Units. -/

/-- A unit stands for a byte: it is the byte itself, or what the byte reads as. -/
def StandsFor (unit : UInt16) (byte : UInt8) : Prop :=
  unit.toNat = byte.toNat ∨ unit.toNat = westernUnit byte

/-- The code points above 0xFF that code page 1252 gives to bytes from 0x80 to 0x9F. -/
def highCodePoints : List Nat := westernRows.filter fun codePoint => 0xFF < codePoint

example : highCodePoints.length = 27 ∧ highCodePoints.Nodup := by decide

/-- The unit stands for some byte. -/
def IsWestern (unit : UInt16) : Prop := unit.toNat ≤ 0xFF ∨ unit.toNat ∈ highCodePoints

theorem westernUnit_of_mem_westernBytes : ∀ pair ∈ westernBytes,
    westernUnit pair.1.toUInt8 = pair.2 := by
  decide

theorem exists_row_of_mem_highCodePoints : ∀ codePoint ∈ highCodePoints,
    ∃ i < 32, westernRows.getD i 0 = codePoint := by
  decide

theorem row_le_or_mem_highCodePoints : ∀ i < 32,
    westernRows.getD i 0 ≤ 0xFF ∨ westernRows.getD i 0 ∈ highCodePoints := by
  decide

theorem westernByte?_eq_some_iff {unit : UInt16} {byte : UInt8} :
    westernByte? unit.toNat = some byte ↔ StandsFor unit byte := by
  constructor
  · intro h
    unfold westernByte? at h
    split at h
    · rename_i hlow
      cases h
      apply Or.inl
      rw [Nat.toUInt8, UInt8.toNat_ofNat']
      omega
    · obtain ⟨pair, hpair, rfl⟩ := Option.map_eq_some_iff.1 h
      have hunit : pair.2 = unit.toNat := by simpa using List.find?_some hpair
      apply Or.inr
      rw [westernUnit_of_mem_westernBytes pair (List.mem_of_find?_eq_some hpair), hunit]
  · rintro (hself | hread)
    · have hlt := byte.toNat_lt
      rw [westernByte?, if_pos (by omega), hself, Nat.toUInt8, UInt8.ofNat_toNat]
    · rw [hread]
      exact (westernByte?_unit byte).1

theorem westernUnit_le_or_mem (byte : UInt8) :
    westernUnit byte ≤ 0xFF ∨ westernUnit byte ∈ highCodePoints := by
  have hlt := byte.toNat_lt
  unfold westernUnit
  split
  · exact row_le_or_mem_highCodePoints (byte.toNat - 0x80) (by omega)
  · exact Or.inl (by omega)

theorem isWestern_iff {unit : UInt16} : IsWestern unit ↔ ∃ byte, StandsFor unit byte := by
  constructor
  · rintro (hlow | hhigh)
    · refine ⟨UInt8.ofNat unit.toNat, Or.inl ?_⟩
      rw [UInt8.toNat_ofNat']
      omega
    · obtain ⟨i, hi, hrow⟩ := exists_row_of_mem_highCodePoints _ hhigh
      have hbyte := (westernByte?_row i hi).1
      rw [hrow] at hbyte
      exact ⟨_, westernByte?_eq_some_iff.1 hbyte⟩
  · rintro ⟨byte, hself | hread⟩
    · have hlt := byte.toNat_lt
      exact Or.inl (by omega)
    · rw [IsWestern, hread]
      exact westernUnit_le_or_mem byte

theorem westernByte?_eq_none_iff {unit : UInt16} :
    westernByte? unit.toNat = none ↔ ¬ IsWestern unit := by
  rw [isWestern_iff, Option.eq_none_iff_forall_ne_some, not_exists]
  exact forall_congr' fun byte => not_congr westernByte?_eq_some_iff

/-- Units that stand for bytes, and the bytes. -/
theorem exists_forall₂_standsFor {units : List UInt16} (h : ∀ unit ∈ units, IsWestern unit) :
    ∃ bytes, List.Forall₂ StandsFor units bytes := by
  induction units with
  | nil => exact ⟨[], .nil⟩
  | cons unit rest ih =>
    obtain ⟨hunit, hrest⟩ := List.forall_mem_cons.1 h
    obtain ⟨byte, hbyte⟩ := isWestern_iff.1 hunit
    obtain ⟨bytes, hbytes⟩ := ih hrest
    exact ⟨byte :: bytes, .cons hbyte hbytes⟩

/-! Files. -/

/-- The file that holds the units behind a byte order mark, and what is left over. -/
def unitFile (units : List UInt16) (leftOver : List UInt8) : List UInt8 :=
  0xFF :: 0xFE :: (units.flatMap (fun unit => unitBytes unit.toNat) ++ leftOver)

/-- What is wrong with a file, the first thing that counts. -/
inductive Blamed : List UInt8 → FormatFault → Prop
  | unmarked {bytes : List UInt8} (h : ¬ [0xFF, 0xFE] <+: bytes) : Blamed bytes .noByteOrderMark
  | unknown {before after : List UInt16} {unit : UInt16} {leftOver : List UInt8}
      (hbefore : ∀ unit ∈ before, IsWestern unit) (hunit : ¬ IsWestern unit)
      (hleft : leftOver.length ≤ 1) :
      Blamed (unitFile (before ++ unit :: after) leftOver)
        (.unknownUnit before.length unit.toNat)
  | odd {units : List UInt16} (last : UInt8) (h : ∀ unit ∈ units, IsWestern unit) :
      Blamed (unitFile units [last]) .oddLength

/-- Two bytes are a unit, the low one first. -/
theorem exists_unitBytes (low high : UInt8) :
    ∃ unit : UInt16, unitBytes unit.toNat = [low, high] := by
  have hlow := low.toNat_lt
  have hhigh := high.toNat_lt
  have hunit : (UInt16.ofNat (low.toNat + 256 * high.toNat)).toNat =
      low.toNat + 256 * high.toNat := by
    rw [UInt16.toNat_ofNat']
    omega
  refine ⟨UInt16.ofNat (low.toNat + 256 * high.toNat), ?_⟩
  have hquotient : (low.toNat + 256 * high.toNat) / 256 = high.toNat := by omega
  rw [hunit, unitBytes, hquotient, UInt8.ofNat_toNat]
  congr 1
  rw [← UInt8.toNat_inj, UInt8.toNat_ofNat']
  omega

/-- Bytes are units, and at most one is left over. -/
theorem exists_units (bytes : List UInt8) :
    ∃ (units : List UInt16) (leftOver : List UInt8), leftOver.length ≤ 1 ∧
      bytes = units.flatMap (fun unit => unitBytes unit.toNat) ++ leftOver := by
  induction bytes using List.twoStepInduction with
  | nil => exact ⟨[], [], by simp, rfl⟩
  | singleton last => exact ⟨[], [last], by simp, rfl⟩
  | cons_cons low high rest ih _ =>
    obtain ⟨units, leftOver, hleft, rfl⟩ := ih
    obtain ⟨unit, hunit⟩ := exists_unitBytes low high
    refine ⟨unit :: units, leftOver, hleft, ?_⟩
    rw [List.flatMap_cons, hunit]
    rfl

/-- A file with a mark has units, and at most one byte is left over. -/
theorem exists_unitFile {bytes : List UInt8} (h : [0xFF, 0xFE] <+: bytes) :
    ∃ units leftOver, leftOver.length ≤ 1 ∧ bytes = unitFile units leftOver := by
  obtain ⟨rest, rfl⟩ := h
  obtain ⟨units, leftOver, hleft, rfl⟩ := exists_units rest
  exact ⟨units, leftOver, hleft, rfl⟩

/-- Either all units stand for bytes, or one is the first that does not. -/
theorem forall_isWestern_or_exists_first (units : List UInt16) :
    (∀ unit ∈ units, IsWestern unit) ∨ ∃ before unit after, units = before ++ unit :: after ∧
      (∀ earlier ∈ before, IsWestern earlier) ∧ ¬ IsWestern unit := by
  classical
  cases hfound : units.find? fun unit => ¬ IsWestern unit with
  | none =>
    apply Or.inl
    simpa using hfound
  | some unit =>
    obtain ⟨hunit, before, after, rfl, hbefore⟩ := List.find?_eq_some_iff_append.1 hfound
    exact Or.inr ⟨before, unit, after, rfl, by simpa using hbefore, by simpa using hunit⟩

/-- A file is right or has something wrong with it. -/
theorem exists_units_or_blamed (bytes : List UInt8) :
    (∃ units, bytes = unitFile units [] ∧ ∀ unit ∈ units, IsWestern unit) ∨
      ∃ fault, Blamed bytes fault := by
  by_cases hmark : [0xFF, 0xFE] <+: bytes
  · obtain ⟨units, leftOver, hleft, rfl⟩ := exists_unitFile hmark
    rcases forall_isWestern_or_exists_first units with hall |
      ⟨before, unit, after, rfl, hbefore, hunit⟩
    · cases leftOver with
      | nil => exact Or.inl ⟨units, rfl, hall⟩
      | cons last more =>
        obtain rfl : more = [] := List.eq_nil_of_length_eq_zero (by simpa using hleft)
        exact Or.inr ⟨_, .odd last hall⟩
    · exact Or.inr ⟨_, .unknown hbefore hunit hleft⟩
  · exact Or.inr ⟨_, .unmarked hmark⟩

/-! Reading. -/

theorem bytesOfUnits_append {units : List UInt16} {values : List UInt8}
    (h : List.Forall₂ StandsFor units values) (index : Nat) (rest : List UInt8) :
    bytesOfUnits index (units.flatMap (fun unit => unitBytes unit.toNat) ++ rest) =
      (bytesOfUnits (index + units.length) rest).map (values ++ ·) := by
  -- The units are read from the front, so the index of the first one is not fixed.
  induction h generalizing index with
  | nil =>
    rw [List.flatMap_nil, List.nil_append, List.length_nil, Nat.add_zero]
    cases bytesOfUnits index rest <;> rfl
  | @cons unit value units values hvalue _ ih =>
    have hindex : index + 1 + units.length = index + (unit :: units).length := by
      rw [List.length_cons]
      omega
    rw [List.flatMap_cons, List.append_assoc, bytesOfUnits_cons unit.toNat_lt
      (westernByte?_eq_some_iff.2 hvalue), ih, hindex]
    cases bytesOfUnits (index + (unit :: units).length) rest <;> rfl

theorem bytesOfUnits_unknown {unit : UInt16} (h : ¬ IsWestern unit) (index : Nat)
    (rest : List UInt8) :
    bytesOfUnits index (unitBytes unit.toNat ++ rest) =
      .error (.unknownUnit index unit.toNat) := by
  simp only [unitBytes, List.cons_append, List.nil_append, bytesOfUnits,
    value_unitBytes unit.toNat_lt, westernByte?_eq_none_iff.2 h]

theorem unscramble_unitFile {units : List UInt16} {values : List UInt8}
    (h : List.Forall₂ StandsFor units values) (leftOver : List UInt8) :
    unscramble (unitFile units leftOver) =
      ((bytesOfUnits units.length leftOver).map (values ++ ·)).map Text.decodeLossy := by
  rw [unitFile, unscramble, bytesOfUnits_append h, Nat.zero_add]

theorem unscramble_of_not_marked {bytes : List UInt8} (h : ¬ [0xFF, 0xFE] <+: bytes) :
    unscramble bytes = .error .noByteOrderMark := by
  unfold unscramble
  split
  · rename_i units
    exact absurd ⟨units, rfl⟩ h
  · rfl

theorem Blamed.unscramble_eq {bytes : List UInt8} {fault : FormatFault} (h : Blamed bytes fault) :
    unscramble bytes = .error fault := by
  cases h with
  | unmarked h => exact unscramble_of_not_marked h
  | @unknown before after unit leftOver hbefore hunit hleft =>
    obtain ⟨values, hvalues⟩ := exists_forall₂_standsFor hbefore
    have hfile : unitFile (before ++ unit :: after) leftOver = unitFile before
        (unitBytes unit.toNat ++
          (after.flatMap (fun unit => unitBytes unit.toNat) ++ leftOver)) := by
      simp [unitFile]
    rw [hfile, unscramble_unitFile hvalues, bytesOfUnits_unknown hunit]
    rfl
  | odd last h =>
    obtain ⟨values, hvalues⟩ := exists_forall₂_standsFor h
    rw [unscramble_unitFile hvalues]
    rfl

theorem unscramble_eq_ok {units : List UInt16} {values : List UInt8}
    (h : List.Forall₂ StandsFor units values) :
    unscramble (unitFile units []) = .ok (Text.decodeLossy values) := by
  rw [unscramble_unitFile h, bytesOfUnits]
  simp [Except.map]

/-- A file is read exactly if a byte order mark stands in front of units that all stand for bytes
and nothing is left over, and what it holds is then the text of these bytes. Every other file is
malformed, and the fault that is reported is the one to blame. -/
theorem unscramble_blames (bytes : List UInt8) :
    ((∃ text, html (unscramble bytes) = .ok text) ↔
      ∃ units, bytes = unitFile units [] ∧
        ∀ unit ∈ units, unit.toNat ≤ 0xFF ∨ unit.toNat ∈ highCodePoints) ∧
    (∀ units values, bytes = unitFile units [] → List.Forall₂ StandsFor units values →
      html (unscramble bytes) = .ok (textOf values)) ∧
    ∀ error, html (unscramble bytes) = .error error ↔
      ∃ fault, error = .malformed fault ∧ Blamed bytes fault := by
  have hread : ∀ units values, bytes = unitFile units [] → List.Forall₂ StandsFor units values →
      html (unscramble bytes) = .ok (textOf values) := by
    rintro units values rfl hvalues
    rw [unscramble_eq_ok hvalues]
    rfl
  have hright : ∀ units, bytes = unitFile units [] → (∀ unit ∈ units, IsWestern unit) →
      ∃ text, html (unscramble bytes) = .ok text := by
    intro units hbytes hwestern
    obtain ⟨values, hvalues⟩ := exists_forall₂_standsFor hwestern
    exact ⟨_, hread units values hbytes hvalues⟩
  have hwrong : ∀ fault, Blamed bytes fault →
      html (unscramble bytes) = .error (.malformed fault) := by
    intro fault hblamed
    rw [hblamed.unscramble_eq]
    rfl
  refine ⟨⟨?_, ?_⟩, hread, fun error => ⟨?_, ?_⟩⟩
  · rintro ⟨text, htext⟩
    rcases exists_units_or_blamed bytes with hunits | ⟨fault, hblamed⟩
    · exact hunits
    · rw [hwrong fault hblamed] at htext
      cases htext
  · rintro ⟨units, hbytes, hwestern⟩
    exact hright units hbytes hwestern
  · intro herror
    rcases exists_units_or_blamed bytes with ⟨units, hbytes, hwestern⟩ | ⟨fault, hblamed⟩
    · obtain ⟨text, htext⟩ := hright units hbytes hwestern
      rw [htext] at herror
      cases herror
    · rw [hwrong fault hblamed] at herror
      exact ⟨fault, (Except.error.inj herror).symm, hblamed⟩
  · rintro ⟨fault, rfl, hblamed⟩
    exact hwrong fault hblamed

/-- A file with two faults: its second unit stands for no byte, and a byte is left over. Without
these the euro sign stands for the byte 0x80, as does the unit 0x80 itself. -/
theorem unscramble_blames_twoFaults :
    html (unscramble [0xFF, 0xFE, 0x61, 0x00, 0x00, 0x30, 0x7F]) =
        .error (.malformed (.unknownUnit 1 0x3000)) ∧
      List.Forall₂ StandsFor [0x61, 0x20AC, 0x80] [0x61, 0x80, 0x80] ∧
      html (unscramble [0xFF, 0xFE, 0x61, 0x00, 0xAC, 0x20, 0x80, 0x00]) =
        .ok (textOf [0x61, 0x80, 0x80]) := by
  have hblamed : Blamed [0xFF, 0xFE, 0x61, 0x00, 0x00, 0x30, 0x7F] (.unknownUnit 1 0x3000) :=
    @Blamed.unknown [0x61] [] 0x3000 [0x7F] (by simp [IsWestern])
      (by simp [IsWestern, highCodePoints, westernRows]) (by simp)
  have hvalues : List.Forall₂ StandsFor [0x61, 0x20AC, 0x80] [0x61, 0x80, 0x80] :=
    .cons (Or.inl rfl) (.cons (Or.inr (by decide)) (.cons (Or.inl rfl) .nil))
  have hfile : [0xFF, 0xFE, 0x61, 0x00, 0xAC, 0x20, 0x80, 0x00] =
      unitFile [0x61, 0x20AC, 0x80] [] := by
    decide
  obtain ⟨-, -, hblames⟩ := unscramble_blames [0xFF, 0xFE, 0x61, 0x00, 0x00, 0x30, 0x7F]
  obtain ⟨-, hread, -⟩ := unscramble_blames [0xFF, 0xFE, 0x61, 0x00, 0xAC, 0x20, 0x80, 0x00]
  exact ⟨(hblames _).2 ⟨_, rfl, hblamed⟩, hvalues, hread _ _ hfile hvalues⟩

example : (ClipboardError.malformed (.unknownUnit 1 0x3000)).message =
    "could not parse Get-Clipboard output: unknown cp1252 code point at 1: 0x3000" := by
  decide

end HtmlMarkdown.Clipboard
