/-
TextScript/Utf8.lean

Reading bytes as characters. Well-formed sequences of one to four bytes give their character; any
byte that begins no such sequence gives the replacement character and is passed over alone.
-/
namespace TextScript.Utf8

/-- Whether `b` continues a sequence. -/
def isTail (b : UInt8) : Bool :=
  0x80 ≤ b && b ≤ 0xBF

/-- The six payload bits of a continuing byte. -/
def tailBits (b : UInt8) : Nat :=
  b.toNat % 64

/-- Whether `a` and `b` begin a sequence of three bytes: neither an overlong form nor a
surrogate. -/
def opensThree (a b : UInt8) : Bool :=
  if a = 0xE0 then 0xA0 ≤ b && b ≤ 0xBF
  else if a = 0xED then 0x80 ≤ b && b ≤ 0x9F
  else 0xE1 ≤ a && a ≤ 0xEF && isTail b

/-- Whether `a` and `b` begin a sequence of four bytes: neither an overlong form nor beyond the last
code point. -/
def opensFour (a b : UInt8) : Bool :=
  if a = 0xF0 then 0x90 ≤ b && b ≤ 0xBF
  else if a = 0xF4 then 0x80 ≤ b && b ≤ 0x8F
  else 0xF1 ≤ a && a ≤ 0xF3 && isTail b

/-- The number and the size of the well-formed sequence at the start, if there is one. -/
def sequence? : List UInt8 → Option (Nat × Nat)
  | [] => none
  | a :: rest =>
    if a < 0x80 then some (a.toNat, 1)
    else if 0xC2 ≤ a && a ≤ 0xDF then
      match rest with
      | b :: _ => if isTail b then some (a.toNat % 32 * 64 + tailBits b, 2) else none
      | _ => none
    else if a < 0xF0 then
      match rest with
      | b :: c :: _ =>
        if opensThree a b && isTail c then
          some ((a.toNat % 16 * 64 + tailBits b) * 64 + tailBits c, 3)
        else none
      | _ => none
    else
      match rest with
      | b :: c :: d :: _ =>
        if opensFour a b && isTail c && isTail d then
          some (((a.toNat % 8 * 64 + tailBits b) * 64 + tailBits c) * 64 + tailBits d, 4)
        else none
      | _ => none

/-- The characters of a sequence of bytes; `skip` counts bytes that belong to the character
before. -/
def decodeFrom : (skip : Nat) → List UInt8 → List Char
  | _, [] => []
  | skip + 1, _ :: rest => decodeFrom skip rest
  | 0, b :: rest =>
    match sequence? (b :: rest) with
    | some (n, size) => Char.ofNat n :: decodeFrom (size - 1) rest
    | none => '\uFFFD' :: decodeFrom 0 rest

/-- The characters of a sequence of bytes. -/
def decode (bytes : List UInt8) : List Char :=
  decodeFrom 0 bytes

/-- Whether every byte belongs to a well-formed sequence. -/
def isValidFrom : (skip : Nat) → List UInt8 → Bool
  | _, [] => true
  | skip + 1, _ :: rest => isValidFrom skip rest
  | 0, b :: rest =>
    match sequence? (b :: rest) with
    | some (_, size) => isValidFrom (size - 1) rest
    | none => false

end TextScript.Utf8
