import QueryKit.Text.Hex
import QueryKit.Text.Numeral
import QueryKit.Text.Split

-- IPv6 addresses: eight groups of 16 bits. A double colon stands for one or more groups of zero,
-- and the last two groups may be written as four decimal numbers.

namespace QueryKit.Ipv6
open Text

def group? (cs : List Char) : Option Nat :=
  if cs = [] ∨ 4 < cs.length then none else readHexNat cs

def decimal? (cs : List Char) : Option Nat :=
  match cs with
  | [] => none
  | '0' :: _ :: _ => none
  | cs => (readNat cs).bind fun n => if n ≤ 255 then some n else none

def dotted? (cs : List Char) : Option (List Nat) :=
  match (splitWhere (· == '.') cs).mapM decimal? with
  | some [a, b, c, d] => some [a * 256 + b, c * 256 + d]
  | _ => none

def groups? (dottedEnd : Bool) : List (List Char) → Option (List Nat)
  | [] => some []
  | [part] =>
    if dottedEnd && part.contains '.' then dotted? part else (group? part).map ([·])
  | part :: r =>
    match group? part, groups? dottedEnd r with
    | some g, some gs => some (g :: gs)
    | _, _ => none

def run? (dottedEnd : Bool) (cs : List Char) : Option (List Nat) :=
  if cs = [] then some [] else groups? dottedEnd (splitWhere (· == ':') cs)

def splitDouble : List Char → Option (List Char × List Char)
  | [] => none
  | ':' :: ':' :: r => some ([], r)
  | c :: r => (splitDouble r).map fun (before, after) => (c :: before, after)

def read (cs : List Char) : Option (List Nat) :=
  match splitDouble cs with
  | none =>
    match run? true cs with
    | some gs => if gs.length = 8 then some gs else none
    | none => none
  | some (before, after) =>
    match run? false before, run? true after with
    | some front, some back =>
      if front.length + back.length < 8 then
        some (front ++ List.replicate (8 - front.length - back.length) 0 ++ back)
      else none
    | _, _ => none

def zeros (gs : List Nat) : Nat := (gs.takeWhile (· == 0)).length

def longestZeros (index : Nat) : List Nat → Nat × Nat
  | [] => (index, 0)
  | g :: r =>
    let later := longestZeros (index + 1) r
    let here := zeros (g :: r)
    if later.2 ≤ here then (index, here) else later

def joined : List Nat → List Char
  | [] => []
  | [g] => hexDigits g
  | g :: h :: r => hexDigits g ++ ':' :: joined (h :: r)

def chars (gs : List Nat) : List Char :=
  let (start, length) := longestZeros 0 gs
  if length < 2 then joined gs
  else joined (gs.take start) ++ ':' :: ':' :: joined (gs.drop (start + length))

end QueryKit.Ipv6
