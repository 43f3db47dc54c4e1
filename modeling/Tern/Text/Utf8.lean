/-
Reading characters from bytes in UTF-8, and where bytes are not UTF-8. A faulty sequence is as
long as the bytes that could begin a character; it is incomplete if the bytes end within it.
-/
namespace Tern.Text

/-- Where bytes stop being UTF-8: after `valid` good bytes, with a faulty sequence of a length or
one that the end cuts off. -/
structure Utf8Error where
  valid : Nat
  length : Option Nat
  deriving DecidableEq, Repr

/-- The wording of an error. -/
def Utf8Error.message (e : Utf8Error) : String :=
  match e.length with
  | some n =>
    "invalid utf-8 sequence of " ++ toString n ++ " bytes from index " ++ toString e.valid
  | none => "incomplete utf-8 byte sequence from index " ++ toString e.valid

/-- A byte that continues a character. -/
def isTail (b : UInt8) : Bool := decide (0x80 ≤ b) && decide (b ≤ 0xbf)

/-- The number of bytes of the character that a byte begins. -/
def width (b : UInt8) : Nat :=
  if b < 0x80 then 1
  else if 0xc2 ≤ b && b ≤ 0xdf then 2
  else if 0xe0 ≤ b && b ≤ 0xef then 3
  else if 0xf0 ≤ b && b ≤ 0xf4 then 4
  else 0

/-- Whether a second byte may follow a first: no character is written longer than it needs, none
is a surrogate, and none lies beyond the last code point. -/
def isSecond (first b : UInt8) : Bool :=
  if first = 0xe0 then decide (0xa0 ≤ b) && decide (b ≤ 0xbf)
  else if first = 0xed then decide (0x80 ≤ b) && decide (b ≤ 0x9f)
  else if first = 0xf0 then decide (0x90 ≤ b) && decide (b ≤ 0xbf)
  else if first = 0xf4 then decide (0x80 ≤ b) && decide (b ≤ 0x8f)
  else isTail b

/-- The bits that a continuing byte adds. -/
def tailBits (b : UInt8) : Nat := b.toNat % 0x40

/-- The character at the front of `first :: rest` and the bytes behind it, or the length of the
faulty sequence. -/
def readChar (first : UInt8) (rest : List UInt8) : Except (Option Nat) (Char × List UInt8) :=
  match width first with
  | 1 => .ok (Char.ofNat first.toNat, rest)
  | 2 =>
    match rest with
    | [] => .error none
    | b :: rest =>
      if isTail b then .ok (Char.ofNat ((first.toNat % 0x20) * 0x40 + tailBits b), rest)
      else .error (some 1)
  | 3 =>
    match rest with
    | [] => .error none
    | b :: rest =>
      if !isSecond first b then .error (some 1)
      else
        match rest with
        | [] => .error none
        | c :: rest =>
          if isTail c then
            .ok (Char.ofNat ((first.toNat % 0x10) * 0x1000 + tailBits b * 0x40 + tailBits c), rest)
          else .error (some 2)
  | 4 =>
    match rest with
    | [] => .error none
    | b :: rest =>
      if !isSecond first b then .error (some 1)
      else
        match rest with
        | [] => .error none
        | c :: rest =>
          if !isTail c then .error (some 2)
          else
            match rest with
            | [] => .error none
            | d :: rest =>
              if isTail d then
                .ok (Char.ofNat ((first.toNat % 0x8) * 0x40000 + tailBits b * 0x1000 +
                  tailBits c * 0x40 + tailBits d), rest)
              else .error (some 3)
  | _ => .error (some 1)

/-- Reads characters from bytes, of which `valid` have been read; every character takes at least
one byte. -/
def readChars : Nat → Nat → List UInt8 → Except Utf8Error (List Char)
  | _, _, [] => .ok []
  | 0, _, _ => .ok []
  | fuel + 1, valid, b :: rest =>
    match readChar b rest with
    | .ok (c, rest) => (readChars fuel (valid + width b) rest).map (c :: ·)
    | .error length => .error ⟨valid, length⟩

/-- The text that bytes are in UTF-8. -/
def decodeUtf8 (bytes : List UInt8) : Except Utf8Error String :=
  (readChars bytes.length 0 bytes).map String.ofList

end Tern.Text
