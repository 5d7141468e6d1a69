import QueryKit.Json.Basic
import QueryKit.Decimal.Layout
import QueryKit.Text.Hex

-- Compact JSON text: no blanks, control characters escaped, everything else as it is.

namespace QueryKit.Json
open Text

def escapedChar (c : Char) : List Char :=
  if c = '"' then ['\\', '"']
  else if c = '\\' then ['\\', '\\']
  else if c = '\n' then ['\\', 'n']
  else if c = '\r' then ['\\', 'r']
  else if c = '\t' then ['\\', 't']
  else if c.toNat = 8 then ['\\', 'b']
  else if c.toNat = 12 then ['\\', 'f']
  else if c.toNat < 32 then ['\\', 'u', '0', '0', hexDigit (c.toNat / 16), hexDigit c.toNat]
  else [c]

def quoted (s : String) : List Char := '"' :: s.toList.flatMap escapedChar ++ ['"']

def separated : List (List Char) → List Char
  | [] => []
  | [t] => t
  | t :: u :: r => t ++ ',' :: separated (u :: r)

mutual
def chars : Json → List Char
  | .null => ['n', 'u', 'l', 'l']
  | .bool true => ['t', 'r', 'u', 'e']
  | .bool false => ['f', 'a', 'l', 's', 'e']
  | .integer n => intDigits n
  | .real x => (x.text Decimal.json).toList
  | .text s => quoted s
  | .array items => '[' :: separated (itemChars items) ++ [']']
  | .object members => '\x7b' :: separated (memberChars members) ++ ['\x7d']
def itemChars : List Json → List (List Char)
  | [] => []
  | j :: r => chars j :: itemChars r
def memberChars : List (String × Json) → List (List Char)
  | [] => []
  | (k, j) :: r => (quoted k ++ ':' :: chars j) :: memberChars r
end

def compact (j : Json) : String := String.ofList (chars j)

end QueryKit.Json
