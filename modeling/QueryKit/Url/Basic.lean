import QueryKit.Text.Hex
import QueryKit.Text.Split
import QueryKit.Text.Utf8

-- Addresses with an authority, kept in their percent-encoded form: a character of an encoded class is written as its
-- UTF-8 octets, `%XX` each. Characters beyond ASCII are always encoded, and a percent sign never is.

namespace QueryKit
open Text

inductive UrlFault where
  | noScheme
  | emptyHost
  | invalidPort
  | invalidIpv6
  | invalidDomain
  | invalidName
  deriving DecidableEq, Repr

def UrlFault.message : UrlFault → String
  | .noScheme => "relative URL without a base"
  | .emptyHost => "empty host"
  | .invalidPort => "invalid port number"
  | .invalidIpv6 => "invalid IPv6 address"
  | .invalidDomain => "invalid domain character"
  | .invalidName => "invalid international domain name"

structure Url where
  scheme : String
  username : String
  password : Option String
  host : Option String
  port : Option UInt16
  path : String
  query : Option String
  deriving Repr

namespace Url

def isControl (c : Char) : Bool := c.toNat < 0x20 || 0x7E < c.toNat

def inQuery (c : Char) : Bool := isControl c || c == ' ' || c == '"' || c == '#' || c == '<' || c == '>'

def inPath (c : Char) : Bool := inQuery c || c == '\x60' || c == '?' || c == '\x7b' || c == '\x7d'

def inUserinfo (c : Char) : Bool :=
  inPath c || c == '/' || c == ':' || c == ';' || c == '=' || c == '@' || c == '[' || c == '\\' ||
    c == ']' || c == '^' || c == '|'

def encodedOctet (b : UInt8) : List Char := ['%', hexDigitUpper (b.toNat / 16), hexDigitUpper b.toNat]

def encodeChar (encoded : Char → Bool) (c : Char) : List Char :=
  if encoded c then (octets (String.singleton c)).flatMap encodedOctet else [c]

def encode (encoded : Char → Bool) (cs : List Char) : List Char := cs.flatMap (encodeChar encoded)

-- Octets of a text, with each `%XX` as the octet it stands for. A percent sign without two digits stays.
def decode : List Char → List UInt8
  | [] => []
  | '%' :: a :: b :: r =>
    match hexValue? a, hexValue? b with
    | some x, some y => UInt8.ofNat (x * 16 + y) :: decode r
    | _, _ => octets "%" ++ decode (a :: b :: r)
  | c :: r => octets (String.singleton c) ++ decode r

def decodeParameter (cs : List Char) : String :=
  String.ofList (decodeLenient (decode (cs.map fun c => if c = '+' then ' ' else c)))

def parameter (cs : List Char) : String × String :=
  (decodeParameter (cs.takeWhile (· != '=')), decodeParameter ((cs.dropWhile (· != '=')).drop 1))

def parameters (query : String) : List (String × String) :=
  ((splitWhere (· == '&') query.toList).filter (· != [])).map parameter

end Url

end QueryKit
