-- The lexer of the server, with standard-conforming strings: one mode for each kind of token that
-- a text may be inside of, and one step a character. What the server then asks of a single token
-- (a name has some character, and not more than 63 octets of them) is no part of splitting.

namespace QueryKit.Lexer

inductive Token where
  | word (text : String)
  | name (text : String)
  | text (content : String)
  | prefixed (mark content : String)
  | number (digits : String)
  | parameter (digits : String)
  | operator (symbol : String)
  | mark (symbol : String)
  deriving DecidableEq, Repr

inductive Opening where
  | name
  | text
  | escaped
  | lettered (letter : Char)
  | unicodeName
  | unicodeText
  deriving DecidableEq, Repr

namespace Opening

def isName : Opening → Bool
  | .name | .unicodeName => true
  | _ => false

def quote (o : Opening) : Char := if o.isName then '"' else '\x27'

def token (o : Opening) (content : List Char) : Token :=
  match o with
  | .name => .name (String.ofList content)
  | .text => .text (String.ofList content)
  | .escaped => .prefixed "e" (String.ofList content)
  | .lettered letter => .prefixed (String.singleton letter) (String.ofList content)
  | .unicodeName => .prefixed "u&\"" (String.ofList content)
  | .unicodeText => .prefixed "u&" (String.ofList content)

end Opening

inductive Mode where
  | ground
  | word (read : List Char)
  | unicode
  | number (read : List Char)
  | fraction (read : List Char)
  | exponent (read : List Char)
  | quoted (o : Opening) (read : List Char)
  | backslash (read : List Char)
  | closed (o : Opening) (read : List Char)
  | gap (o : Opening) (read : List Char) (newline : Bool)
  | gapDash (o : Opening) (read : List Char) (newline : Bool)
  | gapComment (o : Opening) (read : List Char)
  | operator (read : List Char)
  | point
  | colon
  | dollar (read : List Char)
  | parameter (read : List Char)
  | dollarBody (tag read : List Char)
  | lineComment
  | blockComment (depth : Nat) (last : Char)
  | broken
  deriving DecidableEq, Repr

def isNewline (c : Char) : Bool := c == '\n' || c == '\r'

def isSpace (c : Char) : Bool :=
  c == ' ' || c == '\t' || isNewline c || c == '\x0b' || c == '\x0c'

def isWordStart (c : Char) : Bool := c.isAlpha || c == '_' || 128 ≤ c.toNat

def isWordPart (c : Char) : Bool := isWordStart c || c.isDigit || c == '$'

def isSign (c : Char) : Bool := c == '+' || c == '-'

def isSpecial (c : Char) : Bool :=
  c == '~' || c == '!' || c == '@' || c == '#' || c == '%' || c == '^' || c == '&' || c == '|' ||
    c == '\x60' || c == '?'

def isOperator (c : Char) : Bool :=
  isSpecial c || isSign c || c == '*' || c == '/' || c == '<' || c == '>' || c == '='

-- A run of operator characters. Signs at its end are operators of their own, unless a special
-- character is among the others.
def operatorTokens (run : List Char) : List Token :=
  if run.any isSpecial then [.operator (String.ofList run)]
  else
    let body := (run.reverse.dropWhile isSign).reverse
    (if body.isEmpty then [] else [.operator (String.ofList body)]) ++
      (run.drop body.length).map fun c => .operator (String.singleton c)

def prefixOpening? (read : List Char) : Option Opening :=
  match read.map Char.toLower with
  | ['e'] => some .escaped
  | ['b'] => some (.lettered 'b')
  | ['x'] => some (.lettered 'x')
  | ['n'] => some (.lettered 'n')
  | _ => none

namespace Mode

def flush : Mode → Option (List Token)
  | .ground | .lineComment => some []
  | .word read => some [.word (String.ofList (read.reverse.map Char.toLower))]
  | .unicode => some [.word "u", .operator "&"]
  | .number read | .fraction read => some [.number (String.ofList read.reverse)]
  | .exponent read =>
    if (read.head?.map Char.isDigit).getD false then some [.number (String.ofList read.reverse)] else none
  | .closed o read | .gap o read _ | .gapComment o read => some [o.token read.reverse]
  | .gapDash o read _ => some [o.token read.reverse, .operator "-"]
  | .operator read => some (operatorTokens read.reverse)
  | .point => some [.mark "."]
  | .colon => some [.mark ":"]
  | .parameter read => some [.parameter (String.ofList read.reverse)]
  | .quoted .. | .backslash _ | .dollar _ | .dollarBody .. | .blockComment .. | .broken => none

def extend? : Mode → Char → Option (List Token × Mode)
  | .ground, _ => none
  | .word read, c =>
    if isWordPart c then some ([], .word (c :: read))
    else if c = '\x27' then (prefixOpening? read).map fun o => ([], .quoted o [])
    else if c = '&' ∧ read.map Char.toLower = ['u'] then some ([], .unicode)
    else none
  | .unicode, c =>
    if c = '\x27' then some ([], .quoted .unicodeText [])
    else if c = '"' then some ([], .quoted .unicodeName [])
    else if isOperator c then some ([.word "u"], .operator [c, '&'])
    else none
  | .number read, c =>
    if c.isDigit then some ([], .number (c :: read))
    else if c = '.' then some ([], .fraction (c :: read))
    else if c = 'e' ∨ c = 'E' then some ([], .exponent (c :: read))
    else if isWordStart c then some ([], .broken)
    else none
  | .fraction read, c =>
    if c.isDigit then some ([], .fraction (c :: read))
    else if c = '.' ∧ read.head? = some '.' then
      some ([.number (String.ofList read.tail.reverse), .mark ".."], .ground)
    else if c = 'e' ∨ c = 'E' then some ([], .exponent (c :: read))
    else if isWordStart c then some ([], .broken)
    else none
  | .exponent read, c =>
    if c.isDigit then some ([], .exponent (c :: read))
    else if isSign c ∧ (read.head? = some 'e' ∨ read.head? = some 'E') then some ([], .exponent (c :: read))
    else if isWordStart c then some ([], .broken)
    else none
  | .quoted o read, c =>
    if c = o.quote then some ([], .closed o read)
    else if c = '\\' ∧ o = .escaped then some ([], .backslash read)
    else some ([], .quoted o (c :: read))
  | .backslash read, c => some ([], .quoted .escaped (c :: '\\' :: read))
  | .closed o read, c =>
    if c = o.quote then some ([], .quoted o (c :: read))
    else if o.isName then none
    else if isSpace c then some ([], .gap o read (isNewline c))
    else if c = '-' then some ([], .gapDash o read false)
    else none
  | .gap o read newline, c =>
    if isSpace c then some ([], .gap o read (newline || isNewline c))
    else if c = o.quote ∧ newline then some ([], .quoted o read)
    else if c = '-' then some ([], .gapDash o read newline)
    else none
  | .gapDash o read _, c =>
    if c = '-' then some ([], .gapComment o read)
    else if isOperator c then some ([o.token read.reverse], .operator [c, '-'])
    else none
  | .gapComment o read, c => some ([], if isNewline c then .gap o read true else .gapComment o read)
  | .operator read, c =>
    if c = '-' ∧ read.head? = some '-' then some (operatorTokens read.tail.reverse, .lineComment)
    else if c = '*' ∧ read.head? = some '/' then
      some (operatorTokens read.tail.reverse, .blockComment 0 ' ')
    else if isOperator c then some ([], .operator (c :: read))
    else none
  | .point, c =>
    if c = '.' then some ([.mark ".."], .ground)
    else if c.isDigit then some ([], .fraction [c, '.'])
    else none
  | .colon, c =>
    if c = ':' then some ([.mark "::"], .ground)
    else if c = '=' then some ([.mark ":="], .ground)
    else none
  | .dollar read, c =>
    if c = '$' then some ([], .dollarBody read [])
    else if read.isEmpty ∧ c.isDigit then some ([], .parameter [c])
    else if isWordStart c ∨ (c.isDigit ∧ ¬read.isEmpty) then some ([], .dollar (c :: read))
    else none
  | .parameter read, c =>
    if c.isDigit then some ([], .parameter (c :: read))
    else if isWordStart c then some ([], .broken)
    else none
  | .dollarBody tag read, c =>
    if c = '$' ∧ read.take (tag.length + 1) = tag ++ ['$'] then
      some ([.text (String.ofList (read.drop (tag.length + 1)).reverse)], .ground)
    else some ([], .dollarBody tag (c :: read))
  | .lineComment, c => some ([], if isNewline c then .ground else .lineComment)
  | .blockComment depth last, c =>
    if last = '/' ∧ c = '*' then some ([], .blockComment (depth + 1) ' ')
    else if last = '*' ∧ c = '/' then some ([], if depth = 0 then .ground else .blockComment (depth - 1) ' ')
    else some ([], .blockComment depth c)
  | .broken, _ => some ([], .broken)

def begin (c : Char) : List Token × Mode :=
  if isSpace c then ([], .ground)
  else if c = '"' then ([], .quoted .name [])
  else if c = '\x27' then ([], .quoted .text [])
  else if c.isDigit then ([], .number [c])
  else if isWordStart c then ([], .word [c])
  else if isOperator c then ([], .operator [c])
  else if c = '.' then ([], .point)
  else if c = ':' then ([], .colon)
  else if c = '$' then ([], .dollar [])
  else ([.mark (String.singleton c)], .ground)

def step (m : Mode) (c : Char) : List Token × Mode :=
  match m.extend? c with
  | some next => next
  | none =>
    match m.flush with
    | some ended => (ended ++ (begin c).1, (begin c).2)
    | none => ([], .broken)

def scan : Mode → List Char → List Token × Mode
  | m, [] => ([], m)
  | m, c :: r => ((m.step c).1 ++ ((m.step c).2.scan r).1, ((m.step c).2.scan r).2)

end Mode

-- The tokens of a text that is entered in some mode; nothing when the text leaves one open.
def lexFrom (m : Mode) (cs : List Char) : Option (List Token) :=
  (m.scan cs).2.flush.map fun last => (m.scan cs).1 ++ last

def lex (text : String) : Option (List Token) := lexFrom .ground text.toList

theorem Mode.scan_append (m : Mode) (a b : List Char) :
    m.scan (a ++ b) = ((m.scan a).1 ++ ((m.scan a).2.scan b).1, ((m.scan a).2.scan b).2) := by
  induction a generalizing m with
  | nil => rfl
  | cons c r ih => simp only [List.cons_append, scan, ih, List.append_assoc]

def Mode.rests : Mode → Bool
  | .ground | .word _ | .number _ | .fraction _ | .operator _ | .closed .. => true
  | _ => false

def isSeparator (c : Char) : Bool := c == ',' || c == '(' || c == ')'

-- What ends a token in front of it: a comma, a parenthesis, or a blank with something behind it that
-- neither is a blank nor begins a comment.
def breaks : List Char → Bool
  | [] => true
  | [c] => isSeparator c
  | c :: d :: _ => isSeparator c || (c == ' ' && !isSpace d && d != '-')

theorem breaks_append (a b : List Char) (filled : a ≠ []) (ends : breaks a = true) :
    breaks (a ++ b) = true := by
  match a with
  | [] => exact absurd rfl filled
  | [c] => cases b <;> simp_all [breaks]
  | c :: d :: r => exact ends

theorem rests_flush (m : Mode) (rests : m.rests = true) : ∃ ts, m.flush = some ts := by
  cases m <;> first | exact ⟨_, rfl⟩ | cases rests

theorem step_of_refused {m : Mode} {c : Char} {ts : List Token} (refused : m.extend? c = none)
    (ended : m.flush = some ts) : m.step c = (ts ++ (Mode.begin c).1, (Mode.begin c).2) := by
  simp only [Mode.step, refused, ended]

theorem ground_step (c : Char) : Mode.ground.step c = Mode.begin c := rfl

theorem extend?_separator (m : Mode) (rests : m.rests = true) (c : Char) (separator : isSeparator c = true) :
    m.extend? c = none := by
  simp only [isSeparator, Bool.or_eq_true, beq_iff_eq, or_assoc] at separator
  rcases separator with rfl | rfl | rfl <;> cases m with
  | ground => rfl
  | word read => simp [Mode.extend?]; decide
  | number read => simp [Mode.extend?]; decide
  | fraction read => simp [Mode.extend?]; decide
  | operator read => simp [Mode.extend?]; decide
  | closed o read => cases o <;> rfl
  | _ => cases rests

theorem scan_refused {m : Mode} {c : Char} {ts : List Token} (refused : m.extend? c = none)
    (ended : m.flush = some ts) (r : List Char) :
    m.scan (c :: r) = (ts ++ (Mode.ground.scan (c :: r)).1, (Mode.ground.scan (c :: r)).2) := by
  simp only [Mode.scan, step_of_refused refused ended, ground_step, List.append_assoc]

theorem extend?_blank (m : Mode) (rests : m.rests = true) :
    m.extend? ' ' = none ∨ ∃ o read, m = .closed o read ∧ m.extend? ' ' = some ([], .gap o read false) := by
  cases m with
  | ground => exact .inl rfl
  | word read => left; simp [Mode.extend?]; decide
  | number read => left; simp [Mode.extend?]; decide
  | fraction read => left; simp [Mode.extend?]; decide
  | operator read => left; simp [Mode.extend?]; decide
  | closed o read =>
    cases o <;> first | exact .inl rfl | exact .inr ⟨_, _, rfl, rfl⟩
  | _ => cases rests

theorem scan_blank (m : Mode) (rests : m.rests = true) {ts : List Token} (ended : m.flush = some ts)
    (d : Char) (r : List Char) (solid : isSpace d = false) (free : d ≠ '-') :
    m.scan (' ' :: d :: r) = (ts ++ (Mode.ground.scan (' ' :: d :: r)).1, (Mode.ground.scan (' ' :: d :: r)).2) := by
  rcases extend?_blank m rests with refused | ⟨o, read, rfl, taken⟩
  · exact scan_refused refused ended _
  · have waits : (Mode.closed o read).step ' ' = ([], .gap o read false) := by
      simp only [Mode.step, taken]
    have refused : (Mode.gap o read false).extend? d = none := by
      simp [Mode.extend?, solid, free]
    rw [Mode.scan, waits, scan_refused refused ended]
    rfl

theorem scan_of_breaks (m : Mode) (rests : m.rests = true) {ts : List Token} (ended : m.flush = some ts)
    (cs : List Char) (filled : cs ≠ []) (ends : breaks cs = true) :
    m.scan cs = (ts ++ (Mode.ground.scan cs).1, (Mode.ground.scan cs).2) := by
  match cs with
  | [] => exact absurd rfl filled
  | [c] => exact scan_refused (extend?_separator m rests c ends) ended _
  | c :: d :: r =>
    simp only [breaks, Bool.or_eq_true, Bool.and_eq_true, beq_iff_eq, bne_iff_ne,
      Bool.not_eq_true'] at ends
    rcases ends with separator | ⟨⟨rfl, solid⟩, free⟩
    · exact scan_refused (extend?_separator m rests c separator) ended _
    · exact scan_blank m rests ended d r solid free

structure Splits (cs : List Char) (ts : List Token) : Prop where
  rests : (Mode.ground.scan cs).2.rests = true
  tokens : lexFrom .ground cs = some ts

theorem splits_of_scan {cs : List Char} {ts last : List Token} {m : Mode}
    (scanned : Mode.ground.scan cs = (ts, m)) (rests : m.rests = true) (ended : m.flush = some last) :
    Splits cs (ts ++ last) := by
  constructor
  · rw [scanned]; exact rests
  · simp only [lexFrom, scanned, ended, Option.map_some]

theorem Splits.scanned {cs : List Char} {ts : List Token} (splits : Splits cs ts) :
    ∃ last, (Mode.ground.scan cs).2.flush = some last ∧ ts = (Mode.ground.scan cs).1 ++ last := by
  obtain ⟨last, ended⟩ := rests_flush _ splits.rests
  have whole := splits.tokens
  simp only [lexFrom, ended, Option.map_some, Option.some.injEq] at whole
  exact ⟨last, ended, whole.symm⟩

theorem Splits.scan_append {a b : List Char} {ts : List Token} (left : Splits a ts) (filled : b ≠ [])
    (apart : (Mode.ground.scan a).2 = .ground ∨ breaks b = true) :
    Mode.ground.scan (a ++ b) = (ts ++ (Mode.ground.scan b).1, (Mode.ground.scan b).2) := by
  obtain ⟨last, ended, rfl⟩ := left.scanned
  have behind : (Mode.ground.scan a).2.scan b = (last ++ (Mode.ground.scan b).1, (Mode.ground.scan b).2) := by
    rcases apart with complete | ends
    · rw [complete] at ended ⊢
      cases Option.some.inj ended
      simp
    · exact scan_of_breaks _ left.rests ended b filled ends
  rw [Mode.scan_append, behind, List.append_assoc]

theorem Splits.append {a b : List Char} {ts us : List Token} (left : Splits a ts) (right : Splits b us)
    (apart : (Mode.ground.scan a).2 = .ground ∨ breaks b = true) : Splits (a ++ b) (ts ++ us) := by
  obtain ⟨last, ended, rfl⟩ := right.scanned
  by_cases none : b = []
  · subst none
    cases Option.some.inj ended
    simpa [Mode.scan] using left
  · rw [← List.append_assoc]
    exact splits_of_scan (left.scan_append none apart) right.rests ended

theorem lex_of_splits {s : String} {ts : List Token} (splits : Splits s.toList ts) : lex s = some ts :=
  splits.tokens

def Leads (text : String) (ts : List Token) (rest : String) : Prop :=
  ∃ head, text = head ++ rest ∧ lex head = some ts ∧
    Mode.ground.scan text.toList = (ts ++ (Mode.ground.scan rest.toList).1, (Mode.ground.scan rest.toList).2)

theorem leads_of_splits {head : String} {ts : List Token} (splits : Splits head.toList ts)
    (complete : (Mode.ground.scan head.toList).2 = .ground) (rest : String) : Leads (head ++ rest) ts rest := by
  refine ⟨head, rfl, lex_of_splits splits, ?_⟩
  obtain ⟨last, ended, rfl⟩ := splits.scanned
  rw [complete] at ended
  cases Option.some.inj ended
  rw [String.toList_append, Mode.scan_append, complete, List.append_nil]

end QueryKit.Lexer
