/-!
Decoding of UTF-8. `decodeLossy` never fails: each maximal beginning of a sequence that turns out
to be invalid becomes one replacement character. `decode?` accepts valid texts only.
-/
namespace HtmlMarkdown.Text

/-- The shape of a sequence, fixed by its first byte: the bits of the code point that the first
byte holds, the range of the second byte, and how many bytes follow the second. -/
structure SequenceShape where
  high : Nat
  secondMin : Nat
  secondMax : Nat
  more : Nat

/-- The well-formed sequences of two or more bytes, by first byte. -/
def sequenceShape? (b : Nat) : Option SequenceShape :=
  if 0xC2 ≤ b ∧ b ≤ 0xDF then some ⟨b % 0x20, 0x80, 0xBF, 0⟩
  else if b = 0xE0 then some ⟨0, 0xA0, 0xBF, 1⟩
  else if b = 0xED then some ⟨0xD, 0x80, 0x9F, 1⟩
  else if 0xE1 ≤ b ∧ b ≤ 0xEF then some ⟨b % 0x10, 0x80, 0xBF, 1⟩
  else if b = 0xF0 then some ⟨0, 0x90, 0xBF, 2⟩
  else if 0xF1 ≤ b ∧ b ≤ 0xF3 then some ⟨b % 0x8, 0x80, 0xBF, 2⟩
  else if b = 0xF4 then some ⟨4, 0x80, 0x8F, 2⟩
  else none

/-- Reads `more` continuation bytes after a valid beginning. The answer is the code point, or
`none` where a byte does not fit, and the bytes that are left. -/
def continueSequence (value : Nat) : Nat → List UInt8 → Option Nat × List UInt8
  | 0, bytes => (some value, bytes)
  | _ + 1, [] => (none, [])
  | more + 1, b :: rest =>
    if 0x80 ≤ b.toNat ∧ b.toNat ≤ 0xBF then
      continueSequence (value * 64 + b.toNat % 64) more rest
    else (none, b :: rest)

theorem continueSequence_length_le (value more : Nat) (bytes : List UInt8) :
    (continueSequence value more bytes).2.length ≤ bytes.length := by
  fun_induction continueSequence value more bytes with
  | case1 => simp
  | case2 => simp
  | case3 value more b rest _ ih => simp only [List.length_cons]; omega
  | case4 => simp

/-- Reads the sequence that starts with byte `b`. -/
def readSequence (b : UInt8) (rest : List UInt8) : Option Char × List UInt8 :=
  if b.toNat < 0x80 then (some (Char.ofNat b.toNat), rest)
  else match sequenceShape? b.toNat, rest with
    | some shape, second :: rest' =>
      if shape.secondMin ≤ second.toNat ∧ second.toNat ≤ shape.secondMax then
        let (value, left) :=
          continueSequence (shape.high * 64 + second.toNat % 64) shape.more rest'
        (value.map Char.ofNat, left)
      else (none, rest)
    | _, _ => (none, rest)

theorem readSequence_length_le (b : UInt8) (rest : List UInt8) :
    (readSequence b rest).2.length ≤ rest.length := by
  unfold readSequence
  split
  · simp
  · split
    · rename_i shape second rest' _
      split
      · have := continueSequence_length_le (shape.high * 64 + second.toNat % 64) shape.more rest'
        simp only [List.length_cons]
        omega
      · simp
    · simp

/-- The characters of a byte sequence, with `none` for every maximal invalid beginning. -/
def decodeSequences : List UInt8 → List (Option Char)
  | [] => []
  | b :: rest =>
    have := readSequence_length_le b rest
    (readSequence b rest).1 :: decodeSequences (readSequence b rest).2
termination_by bytes => bytes.length

def decodeLossy (bytes : List UInt8) : List Char :=
  (decodeSequences bytes).map (·.getD '\uFFFD')

/-- The text, if all of it is valid. -/
def decode? (bytes : List UInt8) : Option (List Char) :=
  (decodeSequences bytes).mapM id

end HtmlMarkdown.Text
