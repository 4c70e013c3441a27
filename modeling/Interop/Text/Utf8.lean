/-!
Decoding of UTF-8.

A decoder stands between characters, or inside one with so many bytes still owed. A byte that cannot
come next ends the character as a mistake and is looked at again as the start of the next one, so a
mistake covers the longest part that could still have become a character.
-/

set_option autoImplicit false

namespace Interop.Text

/-- A character that has begun: its bits so far, how many bytes are owed, and the least and the
greatest byte that may come next. -/
structure PartialChar where
  bits : Nat
  owed : Nat
  least : UInt8
  greatest : UInt8
  deriving DecidableEq

/-- What a byte gives: decoded characters, where `none` is a mistake, and a character that has
begun. -/
abbrev DecodeStep := List (Option Char) × Option PartialChar

/-- What a byte gives between characters. -/
def leadByte (b : UInt8) : DecodeStep :=
  if b ≤ 0x7F then ([some (Char.ofNat b.toNat)], none)
  else if 0xC2 ≤ b ∧ b ≤ 0xDF then ([], some ⟨b.toNat % 32, 1, 0x80, 0xBF⟩)
  else if b = 0xE0 then ([], some ⟨0, 2, 0xA0, 0xBF⟩)
  else if b = 0xED then ([], some ⟨13, 2, 0x80, 0x9F⟩)
  else if 0xE1 ≤ b ∧ b ≤ 0xEF then ([], some ⟨b.toNat % 16, 2, 0x80, 0xBF⟩)
  else if b = 0xF0 then ([], some ⟨0, 3, 0x90, 0xBF⟩)
  else if b = 0xF4 then ([], some ⟨4, 3, 0x80, 0x8F⟩)
  else if 0xF1 ≤ b ∧ b ≤ 0xF3 then ([], some ⟨b.toNat % 8, 3, 0x80, 0xBF⟩)
  else ([none], none)

/-- What a byte gives inside a character. -/
def nextByte (p : PartialChar) (b : UInt8) : DecodeStep :=
  if p.least ≤ b ∧ b ≤ p.greatest then
    let bits := p.bits * 64 + b.toNat % 64
    if p.owed = 1 then ([some (Char.ofNat bits)], none)
    else ([], some ⟨bits, p.owed - 1, 0x80, 0xBF⟩)
  else
    let (decoded, begun) := leadByte b
    (none :: decoded, begun)

/-- The characters of bytes, where `none` is a mistake; a character that has begun comes first. -/
def decodeFrom : Option PartialChar → List UInt8 → List (Option Char)
  | none, [] => []
  | some _, [] => [none]
  | begun, b :: rest =>
    let (decoded, begun) :=
      match begun with
      | none => leadByte b
      | some p => nextByte p b
    decoded ++ decodeFrom begun rest

/-- The text that bytes encode, if there is no mistake in them. -/
def decode? (bytes : List UInt8) : Option String :=
  ((decodeFrom none bytes).mapM id).map String.ofList

/-- The text that bytes encode, with a replacement character for each mistake. -/
def decodeLossy (bytes : List UInt8) : String :=
  String.ofList ((decodeFrom none bytes).map (·.getD '\ufffd'))

end Interop.Text
