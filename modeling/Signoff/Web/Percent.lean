import Signoff.Json.Reader

/-! # Percent escapes

In addresses a byte may be written as a percent sign with two hexadecimal digits. Bytes are read as
UTF-8; what is no UTF-8 becomes the replacement character.
-/

namespace Signoff.Percent

/-- A character that has begun: its bits so far, how many bytes are missing, and the bounds of the
next one. -/
structure Begun where
  bits : Nat
  missing : Nat
  low : Nat := 0x80
  high : Nat := 0xBF

/-- Begins a character with a byte: either it is complete, or bytes are missing. -/
def beginWith (byte : Nat) : Option Char × Option Begun :=
  if byte < 0x80 then (some (Char.ofNat byte), none)
  else if 0xC2 ≤ byte ∧ byte ≤ 0xDF then (none, some { bits := byte % 32, missing := 1 })
  else if byte = 0xE0 then (none, some { bits := 0, missing := 2, low := 0xA0 })
  else if byte = 0xED then (none, some { bits := 13, missing := 2, high := 0x9F })
  else if 0xE1 ≤ byte ∧ byte ≤ 0xEF then (none, some { bits := byte % 16, missing := 2 })
  else if byte = 0xF0 then (none, some { bits := 0, missing := 3, low := 0x90 })
  else if byte = 0xF4 then (none, some { bits := 4, missing := 3, high := 0x8F })
  else if 0xF1 ≤ byte ∧ byte ≤ 0xF3 then (none, some { bits := byte % 8, missing := 3 })
  else (some Json.replacement, none)

/-- The characters of bytes, where one may have begun. -/
def charactersFrom : Option Begun → List Nat → List Char
  | none, [] => []
  | some _, [] => [Json.replacement]
  | none, byte :: rest =>
    let (done, begun) := beginWith byte
    done.toList ++ charactersFrom begun rest
  | some b, byte :: rest =>
    if b.low ≤ byte ∧ byte ≤ b.high then
      let bits := b.bits * 64 + byte % 64
      if b.missing ≤ 1 then Char.ofNat bits :: charactersFrom none rest
      else charactersFrom (some { bits, missing := b.missing - 1 }) rest
    else
      let (done, begun) := beginWith byte
      Json.replacement :: done.toList ++ charactersFrom begun rest

/-- Replaces escapes by their characters; `bytes` are those of the escapes in front, last one first. -/
def decodeFrom (bytes : List Nat) : List Char → List Char
  | '%' :: a :: b :: rest =>
    match Json.hexDigit? a, Json.hexDigit? b with
    | some x, some y => decodeFrom ((x * 16 + y) :: bytes) rest
    | _, _ => charactersFrom none bytes.reverse ++ '%' :: decodeFrom [] (a :: b :: rest)
  | c :: rest => charactersFrom none bytes.reverse ++ c :: decodeFrom [] rest
  | [] => charactersFrom none bytes.reverse

/-- The text without escapes. -/
def decode (s : String) : String := String.ofList (decodeFrom [] s.toList)

end Signoff.Percent
