import QueryKit.Text.Character
import QueryKit.Text.Split
import QueryKit.Url.Basic
import QueryKit.Url.Ipv6

-- Addresses from text. The host of a scheme of one's own is kept as it is written; the web's
-- own schemes have stricter hosts, of which only the characters are looked at.

namespace QueryKit.Url
open Text

def isBreak (c : Char) : Bool := c == '\t' || c == '\n' || c == '\r'

def clean (cs : List Char) : List Char :=
  let edge := fun (c : Char) => decide (c.toNat ≤ 0x20)
  ((((cs.dropWhile edge).reverse).dropWhile edge).reverse).filter fun c => !isBreak c

def isSchemeChar (c : Char) : Bool := c.isAlphanum || c == '+' || c == '-' || c == '.'

def splitScheme : List Char → Option (String × List Char)
  | [] => none
  | c :: r =>
    if c.isAlpha then
      match (c :: r).dropWhile isSchemeChar with
      | ':' :: rest => some (String.ofList (((c :: r).takeWhile isSchemeChar).map Char.toLower), rest)
      | _ => none
    else none

def isWebScheme (scheme : String) : Bool := ["http", "https", "ws", "wss", "ftp"].contains scheme

def endsAuthority (web : Bool) (c : Char) : Bool :=
  c == '/' || c == '?' || c == '#' || (web && c == '\\')

def splitUserinfo : List Char → Option (List Char) × List Char
  | [] => (none, [])
  | c :: r =>
    match splitUserinfo r with
    | (some before, host) => (some (c :: before), host)
    | (none, host) => if c = '@' then (some [], host) else (none, c :: host)

def encodeText (encoded : Char → Bool) (cs : List Char) : String := String.ofList (encode encoded cs)

def credentials (userinfo : List Char) : String × Option String :=
  let password := (userinfo.dropWhile (· != ':')).drop 1
  (encodeText inUserinfo (userinfo.takeWhile (· != ':')),
    if password = [] then none else some (encodeText inUserinfo password))

def splitHost (inBrackets : Bool) : List Char → List Char × List Char
  | [] => ([], [])
  | c :: r =>
    if c = ':' ∧ inBrackets = false then ([], c :: r)
    else
      let (host, rest) := splitHost (if c = '[' then true else if c = ']' then false else inBrackets) r
      (c :: host, rest)

def isForbiddenInHost (c : Char) : Bool :=
  c.toNat == 0 || isBreak c || c == ' ' || c == '#' || c == '/' || c == ':' || c == '<' || c == '>' ||
    c == '?' || c == '@' || c == '[' || c == '\\' || c == ']' || c == '^' || c == '|'

def isForbiddenInDomain (c : Char) : Bool :=
  isForbiddenInHost c || c.toNat < 0x20 || c == '%' || c.toNat == 0x7F

def readIpv6 (cs : List Char) : Except UrlFault String :=
  if cs.getLast? = some ']' then
    match Ipv6.read cs.dropLast with
    | some groups => .ok (String.ofList ('[' :: Ipv6.chars groups ++ [']']))
    | none => .error .invalidIpv6
  else .error .invalidIpv6

def readDomain (cs : List Char) : Except UrlFault String :=
  match ofOctets? (decode cs) with
  | none => .error .invalidName
  | some domain =>
    if domain.toList.any isForbiddenInDomain then .error .invalidName
    else .ok (String.ofList (domain.toList.map Char.toLower))

def readHost (web : Bool) : List Char → Except UrlFault String
  | '[' :: r => readIpv6 r
  | cs =>
    if web then readDomain cs
    else if cs.any isForbiddenInHost then .error .invalidDomain
    else .ok (encodeText isControl cs)

def readPort (cs : List Char) : Except UrlFault (Option UInt16 × List Char) :=
  let ds := cs.takeWhile Char.isDigit
  let rest := cs.dropWhile Char.isDigit
  let number := (readDigits 0 ds).getD 0
  if 65535 < number then .error .invalidPort
  else if rest.head?.any fun c => !endsAuthority true c then .error .invalidPort
  else .ok (if ds = [] then none else some (UInt16.ofNat number), rest)

structure Authority where
  username : String
  password : Option String
  host : Option String
  port : Option UInt16
  rest : List Char

def readServer (web : Bool) (username : String) (password : Option String) (cs : List Char) :
    Except UrlFault Authority := do
  let (written, rest) := splitHost false (cs.takeWhile fun c => !endsAuthority web c)
  let rest := rest ++ cs.dropWhile fun c => !endsAuthority web c
  if web ∧ written = [] then .error .emptyHost
  let host ← readHost web written
  if host = "" ∧ (web ∨ rest.head? = some ':') then .error .emptyHost
  if host = "" ∧ (username ≠ "" ∨ password.isSome) then .error .emptyHost
  let (port, rest) ← match rest with
    | ':' :: r => readPort r
    | r => .ok (none, r)
  pure ⟨username, password, if host = "" then none else some host, port, rest⟩

def readAuthority (web : Bool) (cs : List Char) : Except UrlFault Authority :=
  let authority := cs.takeWhile fun c => !endsAuthority web c
  let rest := cs.dropWhile fun c => !endsAuthority web c
  match splitUserinfo authority with
  | (none, _) => readServer web "" none cs
  | (some [], server) =>
    if server = [] ∧ rest ≠ [] then .error .emptyHost else readServer web "" none (server ++ rest)
  | (some userinfo, server) =>
    let (username, password) := credentials userinfo
    readServer web username password (server ++ rest)

def endsSegment (web : Bool) (c : Char) : Bool := c == '/' || (web && c == '\\')

def isDot (cs : List Char) : Bool :=
  sameLetters (String.ofList cs) "." || sameLetters (String.ofList cs) "%2e"

def isDoubleDot (cs : List Char) : Bool :=
  [".." , "%2e%2e", "%2e.", ".%2e"].any fun form => sameLetters (String.ofList cs) form

def isDriveLetter : List Char → Bool
  | [a, b] => a.isAlpha && (b == ':' || b == '|')
  | _ => false

def dropSegment (done : List (List Char)) : List (List Char) :=
  match done.getLast? with
  | some last => if isDriveLetter last then done else done.dropLast
  | none => []

def resolveSegments (done : List (List Char)) : List (List Char) → List (List Char)
  | [] => done
  | segment :: r =>
    let done :=
      if isDoubleDot segment then dropSegment done ++ (if r.isEmpty then [[]] else [])
      else if isDot segment then done ++ (if r.isEmpty then [[]] else [])
      else done ++ [encode inPath segment]
    resolveSegments done r

def pathText (segments : List (List Char)) : String :=
  String.ofList (segments.flatMap fun segment => '/' :: segment)

-- A path after an authority: it starts with a slash or gets one. The web's schemes always have a path.
def readPath (web : Bool) (cs : List Char) : String :=
  match cs with
  | [] => if web then "/" else ""
  | c :: r =>
    pathText (resolveSegments [] (splitWhere (endsSegment web) (if endsSegment web c then r else c :: r)))

def endsPath (c : Char) : Bool := c == '?' || c == '#'

def readQuery : List Char → Option String
  | '?' :: r => some (encodeText inQuery (r.takeWhile (· != '#')))
  | _ => none

def ofAuthority (scheme : String) (web : Bool) (a : Authority) : Url where
  scheme := scheme
  username := a.username
  password := a.password
  host := a.host
  port := a.port
  path := readPath web (a.rest.takeWhile fun c => !endsPath c)
  query := readQuery (a.rest.dropWhile fun c => !endsPath c)

-- Without an authority there is no host, and nothing is asked of the path.
def withoutHost (scheme : String) (rest : List Char) : Url where
  scheme := scheme
  username := ""
  password := none
  host := none
  port := none
  path := encodeText isControl (rest.takeWhile fun c => !endsPath c)
  query := readQuery (rest.dropWhile fun c => !endsPath c)

def read (text : String) : Except UrlFault Url :=
  match splitScheme (clean text.toList) with
  | none => .error .noScheme
  | some (scheme, rest) =>
    if isWebScheme scheme then
      (readAuthority true (rest.dropWhile fun c => c == '/' || c == '\\')).map (ofAuthority scheme true)
    else if scheme = "file" then .ok (withoutHost scheme rest)
    else match rest with
      | '/' :: '/' :: r => (readAuthority false r).map (ofAuthority scheme false)
      | _ => .ok (withoutHost scheme rest)

end QueryKit.Url
