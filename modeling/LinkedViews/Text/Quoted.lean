import LinkedViews.Number.Numeral
import LinkedViews.Text.Printable

/-!
The quoted form of a text in messages and listings: double quotes around it, a backslash before
quotes and backslashes, letters for the common controls, and the code point in hexadecimal for
every other character that cannot stand for itself.
-/

namespace LinkedViews.Text.Quoted

/-- The letter that stands for a character behind a backslash. -/
def letter? : Char → Option Char
  | '"' => some '"'
  | '\\' => some '\\'
  | '\n' => some 'n'
  | '\r' => some 'r'
  | '\t' => some 't'
  | '\x00' => some '0'
  | _ => none

def encodeChar (c : Char) : List Char :=
  match letter? c with
  | some letter => ['\\', letter]
  | none =>
    if isPrintable c then [c] else '\\' :: 'u' :: '\x7b' :: Numeral.hexDigits c.toNat ++ ['\x7d']

def encode (text : List Char) : List Char := text.flatMap encodeChar

def render (text : String) : String := String.ofList ('"' :: encode text.toList ++ ['"'])

end LinkedViews.Text.Quoted
