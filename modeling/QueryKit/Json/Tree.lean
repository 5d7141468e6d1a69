import QueryKit.Json.Token

-- A JSON document as it is written: members in their order with repetitions, numbers and
-- strings undigested. Reading is a stack machine over the tokens, one step a token.

namespace QueryKit.Json

inductive Tree where
  | null
  | bool (b : Bool)
  | number (l : Literal)
  | text (s : List Letter)
  | array (items : List Tree)
  | object (members : List (List Letter × Tree))

inductive Frame where
  | array (done : List Tree)
  | object (done : List (List Letter × Tree)) (key : List Letter)

inductive Expecting where
  | value
  | valueOrClose
  | keyOrClose
  | key (done : List (List Letter × Tree))
  | colon (done : List (List Letter × Tree)) (key : List Letter)
  | after (t : Tree)

structure Machine where
  expecting : Expecting
  stack : List Frame

def Machine.start : Machine := ⟨.value, []⟩

def beginValue (stack : List Frame) : Token → Option Machine
  | .null => some ⟨.after .null, stack⟩
  | .bool b => some ⟨.after (.bool b), stack⟩
  | .number l => some ⟨.after (.number l), stack⟩
  | .text s => some ⟨.after (.text s), stack⟩
  | .openArray => some ⟨.valueOrClose, .array [] :: stack⟩
  | .openObject => some ⟨.keyOrClose, stack⟩
  | _ => none

def Machine.step (m : Machine) (t : Token) : Option Machine :=
  match m.expecting, t, m.stack with
  | .value, t, stack => beginValue stack t
  | .valueOrClose, .closeArray, .array [] :: stack => some ⟨.after (.array []), stack⟩
  | .valueOrClose, t, stack => beginValue stack t
  | .keyOrClose, .closeObject, stack => some ⟨.after (.object []), stack⟩
  | .keyOrClose, .text key, stack => some ⟨.colon [] key, stack⟩
  | .key done, .text key, stack => some ⟨.colon done key, stack⟩
  | .colon done key, .colon, stack => some ⟨.value, .object done key :: stack⟩
  | .after v, .comma, .array done :: stack => some ⟨.value, .array (v :: done) :: stack⟩
  | .after v, .closeArray, .array done :: stack => some ⟨.after (.array (v :: done).reverse), stack⟩
  | .after v, .comma, .object done key :: stack => some ⟨.key ((key, v) :: done), stack⟩
  | .after v, .closeObject, .object done key :: stack =>
    some ⟨.after (.object ((key, v) :: done).reverse), stack⟩
  | _, _, _ => none

def Machine.run (m : Machine) : List Token → Option Machine
  | [] => some m
  | t :: r =>
    match m.step t with
    | some next => next.run r
    | none => none

def Machine.result? (m : Machine) : Option Tree :=
  match m.expecting, m.stack with
  | .after t, [] => some t
  | _, _ => none

def Tree.read (cs : List Char) : Option Tree :=
  match tokens cs with
  | some ts => (Machine.start.run ts).bind Machine.result?
  | none => none

theorem Machine.run_append (m : Machine) (a b : List Token) :
    m.run (a ++ b) = (m.run a).bind fun next => next.run b := by
  induction a generalizing m with
  | nil => rfl
  | cons t r ih =>
    simp only [List.cons_append, Machine.run]
    split
    · exact ih _
    · rfl

end QueryKit.Json
