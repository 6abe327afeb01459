import Dynarec.Text.Picture.Bare
import Dynarec.Text.Picture.Mark

/-!
Quoted text: double quotes around it, a backslash before quotes and backslashes, short escapes for the common
control characters, and the code point in hexadecimal for every other character that cannot be shown by itself. Those
without a picture cannot, nor can marks that join the character before them, nor the fillers that hold a letter's
place.
-/
namespace Dynarec.Text

/-- Letters that are to be ignored where they cannot be shown. -/
def fillerRanges : Ranges := [(0x115f, 0x1160), (0x3164, 0x3164), (0xffa0, 0xffa0)]

def isPictured (c : Char) : Bool := !(bareRanges.covers c || markRanges.covers c || fillerRanges.covers c)

namespace Quoted

def escape (c : Char) : List Char :=
  if c = '"' then ['\\', '"']
  else if c = '\\' then ['\\', '\\']
  else if c = '\n' then ['\\', 'n']
  else if c = '\r' then ['\\', 'r']
  else if c = '\t' then ['\\', 't']
  else if c = '\x00' then ['\\', '0']
  else if !isPictured c then "\\u\x7b".toList ++ Nat.toDigits 16 c.toNat ++ ['\x7d']
  else [c]

def encode (text : List Char) : List Char := '"' :: text.flatMap escape ++ ['"']

def render (text : String) : String := String.ofList (encode text.toList)

end Quoted
end Dynarec.Text
