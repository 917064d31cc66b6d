/-!
Texts as bytes. Decoding either gives the characters or names the byte where the first sequence
begins that is no character: one cut short, overlong, a surrogate or beyond the last code point.
-/

namespace LinkedViews.Text.Utf8

def encode (text : List Char) : List UInt8 := text.flatMap String.utf8EncodeChar

def continuation? (byte : UInt8) : Option Nat :=
  if 0x80 ≤ byte ∧ byte < 0xC0 then some (byte.toNat - 0x80) else none

/-- A character from a code point, provided that the sequence is as short as can be. -/
def character? (least code : Nat) : Option Char :=
  if least ≤ code ∧ code.isValidChar then some (Char.ofNat code) else none

def twoBytes? (a b : UInt8) : Option Char := do
  character? 0x80 ((a.toNat - 0xC0) * 64 + (← continuation? b))

def threeBytes? (a b c : UInt8) : Option Char := do
  character? 0x800 (((a.toNat - 0xE0) * 64 + (← continuation? b)) * 64 + (← continuation? c))

def fourBytes? (a b c d : UInt8) : Option Char := do
  character? 0x10000
    ((((a.toNat - 0xF0) * 64 + (← continuation? b)) * 64 + (← continuation? c)) * 64 +
      (← continuation? d))

/-- The characters of a byte sequence, or the offset of the first one that cannot be read. -/
def decodeFrom (offset : Nat) (bytes : List UInt8) : Except Nat (List Char) :=
  match bytes with
  | [] => .ok []
  | a :: rest =>
    if a < 0x80 then (Char.ofNat a.toNat :: ·) <$> decodeFrom (offset + 1) rest
    else match rest with
      | [] => .error offset
      | b :: rest =>
        if a < 0xE0 then match twoBytes? a b with
          | some c => (c :: ·) <$> decodeFrom (offset + 2) rest
          | none => .error offset
        else match rest with
          | [] => .error offset
          | c :: rest =>
            if a < 0xF0 then match threeBytes? a b c with
              | some c => (c :: ·) <$> decodeFrom (offset + 3) rest
              | none => .error offset
            else match rest with
              | [] => .error offset
              | d :: rest => match fourBytes? a b c d with
                | some c => (c :: ·) <$> decodeFrom (offset + 4) rest
                | none => .error offset

def decode (bytes : List UInt8) : Except Nat (List Char) := decodeFrom 0 bytes

end LinkedViews.Text.Utf8
