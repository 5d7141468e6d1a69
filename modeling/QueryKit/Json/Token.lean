import QueryKit.Text.Hex
import QueryKit.Text.Numeral

-- The words of JSON text. Strings keep `\u` escapes as code units and numbers keep their digits: whether a code unit
-- stands alone, or a number is too large, is for the reader of the document to say, who may not look at them at all.

namespace QueryKit.Json
open Text

inductive Letter where
  | char (c : Char)
  | unit (n : Nat)
  deriving DecidableEq, Repr

structure Literal where
  negative : Bool
  whole : List Char
  fraction : List Char
  exponent : Option (Bool × List Char)
  deriving DecidableEq, Repr

inductive Token where
  | openArray
  | closeArray
  | openObject
  | closeObject
  | comma
  | colon
  | null
  | bool (b : Bool)
  | number (l : Literal)
  | text (s : List Letter)
  deriving DecidableEq, Repr

def simpleEscape? (c : Char) : Option Char :=
  if c = '"' then some '"'
  else if c = '\\' then some '\\'
  else if c = '/' then some '/'
  else if c = 'b' then some (Char.ofNat 8)
  else if c = 'f' then some (Char.ofNat 12)
  else if c = 'n' then some '\n'
  else if c = 'r' then some '\r'
  else if c = 't' then some '\t'
  else none

def readLetters : List Char → Option (List Letter × List Char)
  | [] => none
  | '"' :: r => some ([], r)
  | '\\' :: 'u' :: a :: b :: c :: d :: r =>
    match readHexNat [a, b, c, d], readLetters r with
    | some n, some (s, rest) => some (.unit n :: s, rest)
    | _, _ => none
  | '\\' :: e :: r =>
    match simpleEscape? e, readLetters r with
    | some c, some (s, rest) => some (.char c :: s, rest)
    | _, _ => none
  | c :: r =>
    if c.toNat < 32 ∨ c = '\\' then none
    else match readLetters r with
      | some (s, rest) => some (.char c :: s, rest)
      | none => none

def isNumeric (c : Char) : Bool :=
  c.isDigit || c == '-' || c == '+' || c == '.' || c == 'e' || c == 'E'

def allDigits (cs : List Char) : Bool := !cs.isEmpty && cs.all Char.isDigit

def readExponentPart : List Char → Option (Bool × List Char)
  | '+' :: ds => if allDigits ds then some (false, ds) else none
  | '-' :: ds => if allDigits ds then some (true, ds) else none
  | ds => if allDigits ds then some (false, ds) else none

def readTail (negative : Bool) (whole : List Char) (rest : List Char) : Option Literal :=
  let tail (fraction : List Char) (rest : List Char) : Option Literal :=
    match rest with
    | [] => some ⟨negative, whole, fraction, none⟩
    | c :: r =>
      if c = 'e' ∨ c = 'E' then
        (readExponentPart r).map fun e => ⟨negative, whole, fraction, some e⟩
      else none
  match rest with
  | '.' :: r =>
    let fraction := r.takeWhile Char.isDigit
    if fraction.isEmpty then none else tail fraction (r.dropWhile Char.isDigit)
  | r => tail [] r

def readMagnitude (negative : Bool) (cs : List Char) : Option Literal :=
  let whole := cs.takeWhile Char.isDigit
  let rest := cs.dropWhile Char.isDigit
  match whole with
  | [] => none
  | '0' :: _ :: _ => none
  | _ => readTail negative whole rest

def readLiteral : List Char → Option Literal
  | '-' :: r => readMagnitude true r
  | cs => readMagnitude false cs

def isSpace (c : Char) : Bool := c == ' ' || c == '\n' || c == '\t' || c == '\r'

def punctuation? (c : Char) : Option Token :=
  if c = '[' then some .openArray
  else if c = ']' then some .closeArray
  else if c = '\x7b' then some .openObject
  else if c = '\x7d' then some .closeObject
  else if c = ',' then some .comma
  else if c = ':' then some .colon
  else none

def wordToken? (c : Char) (r : List Char) : Option (Token × List Char) :=
  if c = '"' then (readLetters r).map fun (s, rest) => (.text s, rest)
  else if c.isDigit ∨ c = '-' then
    (readLiteral (c :: r.takeWhile isNumeric)).map fun l => (.number l, r.dropWhile isNumeric)
  else match c, r with
    | 'n', 'u' :: 'l' :: 'l' :: rest => some (.null, rest)
    | 't', 'r' :: 'u' :: 'e' :: rest => some (.bool true, rest)
    | 'f', 'a' :: 'l' :: 's' :: 'e' :: rest => some (.bool false, rest)
    | _, _ => none

theorem readLetters_length (cs : List Char) (s : List Letter) (rest : List Char)
    (read : readLetters cs = some (s, rest)) : rest.length < cs.length := by
  fun_induction readLetters cs generalizing s rest <;>
    simp only [reduceCtorEq, Option.some.injEq, Prod.mk.injEq, List.length_cons] at read ⊢ <;>
    obtain ⟨-, rfl⟩ := read
  · exact Nat.lt_succ_self _
  all_goals
    rename_i ih
    have := ih _ _ ‹_›
    omega

theorem wordToken?_length (c : Char) (r : List Char) (t : Token) (rest : List Char)
    (word : wordToken? c r = some (t, rest)) : rest.length ≤ r.length := by
  unfold wordToken? at word
  split at word
  · obtain ⟨⟨s, tail⟩, read, same⟩ := Option.map_eq_some_iff.mp word
    obtain ⟨-, rfl⟩ := Prod.mk.inj same
    exact Nat.le_of_lt (readLetters_length r s tail read)
  · split at word
    · obtain ⟨l, -, same⟩ := Option.map_eq_some_iff.mp word
      obtain ⟨-, rfl⟩ := Prod.mk.inj same
      exact (List.dropWhile_suffix isNumeric).length_le
    · split at word
      all_goals first
        | (obtain ⟨-, rfl⟩ := Prod.mk.inj (Option.some.inj word); simp only [List.length_cons]; omega)
        | cases word

def tokens : List Char → Option (List Token)
  | [] => some []
  | c :: r =>
    if isSpace c then tokens r
    else match punctuation? c with
      | some t => (tokens r).map (t :: ·)
      | none =>
        match _word : wordToken? c r with
        | some (t, rest) => (tokens rest).map (t :: ·)
        | none => none
termination_by cs => cs.length
decreasing_by
  · simp
  · simp
  · have := wordToken?_length c r t rest _word
    simp only [List.length_cons]
    omega

end QueryKit.Json
