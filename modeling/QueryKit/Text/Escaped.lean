import QueryKit.Text.Character
import QueryKit.Text.Ranges
import QueryKit.Text.Hex
import QueryKit.Text.Numeral

-- Text in double quotes as it stands inside a description of a value: quotes, backslashes and
-- line breaks are escaped by a letter, characters without a visible form by their code point.

namespace QueryKit.Text

def controlRanges : Ranges := [(0x0, 0x1F), (0x7F, 0x9F)]

-- Characters that steer the layout of others (general category Cf).
def formatRanges : Ranges := [
  (0xAD, 0xAD), (0x600, 0x605), (0x61C, 0x61C), (0x6DD, 0x6DD), (0x70F, 0x70F), (0x890, 0x891),
  (0x8E2, 0x8E2), (0x180E, 0x180E), (0x200B, 0x200F), (0x202A, 0x202E), (0x2060, 0x2064),
  (0x2066, 0x206F), (0xFEFF, 0xFEFF), (0xFFF9, 0xFFFB), (0x110BD, 0x110BD), (0x110CD, 0x110CD),
  (0x13430, 0x1343F), (0x1BCA0, 0x1BCA3), (0x1D173, 0x1D17A), (0xE0001, 0xE0001), (0xE0020, 0xE007F)]

def privateRanges : Ranges := [(0xE000, 0xF8FF), (0xF0000, 0xFFFFD), (0x100000, 0x10FFFD)]

def fillerRanges : Ranges := [(0x115F, 0x1160), (0x3164, 0x3164), (0xFFA0, 0xFFA0)]

-- Sound marks of halfwidth kana: they extend the letter before them, and fill a place of their own.
def soundMarkRanges : Ranges := [(0xFF9E, 0xFF9F)]

def isCombining (c : Char) : Bool := isExtending c && !soundMarkRanges.contains c.toNat

def isInvisible (c : Char) : Bool :=
  let n := c.toNat
  controlRanges.contains n || (isBlank c && n != 0x20) || formatRanges.contains n ||
    fillerRanges.contains n || isCombining c || privateRanges.contains n || isUnassigned c

def escapedChar (c : Char) : List Char :=
  if c = '"' then ['\\', '"']
  else if c = '\\' then ['\\', '\\']
  else if c = '\n' then ['\\', 'n']
  else if c = '\t' then ['\\', 't']
  else if c = '\r' then ['\\', 'r']
  else if c.toNat = 0 then ['\\', '0']
  else if isInvisible c then "\\u\x7b".toList ++ hexDigits c.toNat ++ ['}']
  else [c]

def escaped (s : String) : String := String.ofList ('"' :: s.toList.flatMap escapedChar ++ ['"'])

def listed (items : List String) : String := "[" ++ ", ".intercalate items ++ "]"

end QueryKit.Text
