import Mathlib.Data.List.Forall2
import QueryKit.Proofs.JsonTexts

-- A JSON text is read as the value it was written from, down to the depth that the reader goes to. Numbers are
-- those that it keeps as they are: integers of 64 bits, signed or not.

namespace QueryKit.Json
open Text

-- How many arrays and objects stand in one another.
mutual
def depth : Json → Nat
  | .array items => itemsDepth items + 1
  | .object members => membersDepth members + 1
  | _ => 0
def itemsDepth : List Json → Nat
  | [] => 0
  | j :: r => max (depth j) (itemsDepth r)
def membersDepth : List (String × Json) → Nat
  | [] => 0
  | (_, j) :: r => max (depth j) (membersDepth r)
end

-- Values with integers for numbers; members are in their order, one for each name, as they are kept.
inductive Exact : Json → Prop where
  | null : Exact .null
  | bool (b : Bool) : Exact (.bool b)
  | integer {n : Int} (low : -9223372036854775808 ≤ n) (high : n ≤ 18446744073709551615) : Exact (.integer n)
  | text (s : String) : Exact (.text s)
  | array {items : List Json} (each : ∀ j ∈ items, Exact j) : Exact (.array items)
  | object {members : List (String × Json)} (ascending : (Sorted.names members).Pairwise (· < ·))
      (each : ∀ m ∈ members, Exact m.2) : Exact (.object members)

theorem Exact.ofMembers {members : List (String × Json)} (each : ∀ m ∈ members, Exact m.2) :
    Exact (Json.ofMembers members) :=
  .object (Sorted.ascending_ofPairs members) fun m kept => each m (Sorted.mem_of_mem_ofPairs kept)

theorem digits_zero {n : Nat} {r : List Char} (zero : digits n = '0' :: r) : n = 0 := by
  induction n using digits.induct generalizing r with
  | case1 n small =>
    rw [digits, if_pos small] at zero
    have value := digitValue?_digitChar n
    rw [(List.cons.inj zero).1] at value
    have digit : (0 : Nat) = n % 10 := Option.some.inj value
    omega
  | case2 n large ih =>
    rw [digits, if_neg large] at zero
    obtain ⟨c, t, spelled⟩ := List.exists_cons_of_ne_nil (digits_ne_nil (n / 10))
    rw [spelled, List.cons_append] at zero
    obtain ⟨rfl, _⟩ := List.cons.inj zero
    have zero := ih spelled
    omega

theorem readMagnitude_digits (negative : Bool) (n : Nat) :
    readMagnitude negative (digits n) = some ⟨negative, digits n, [], none⟩ := by
  have all := isDigit_of_mem_digits n
  have whole : (digits n).takeWhile Char.isDigit = digits n := List.takeWhile_eq_self_iff.mpr all
  have rest : (digits n).dropWhile Char.isDigit = [] := List.dropWhile_eq_nil_iff.mpr all
  rw [readMagnitude, whole, rest]
  split
  · rename_i empty
    exact absurd empty (digits_ne_nil n)
  · rename_i c r zero
    have single : digits n = ['0'] := by
      rw [digits_zero zero]
      simp [digits, digitChar]
    rw [single] at zero
    cases zero
  · rfl

theorem readLiteral_intDigits (n : Int) :
    readLiteral (intDigits n) = some ⟨decide (n < 0), digits n.natAbs, [], none⟩ := by
  unfold intDigits
  by_cases negative : n < 0
  · rw [if_pos negative, decide_eq_true negative]
    exact readMagnitude_digits true n.natAbs
  · rw [if_neg negative, decide_eq_false negative, readLiteral, readMagnitude_digits]
    intro r spelled
    have digit := isDigit_of_mem_digits n.natAbs '-' (by simp [spelled])
    cases digit

theorem le_of_readDigits {acc n : Nat} {ds : List Char} (read : readDigits acc ds = some n) : acc ≤ n := by
  induction ds generalizing acc with
  | nil =>
    cases read
    exact Nat.le_refl _
  | cons c r ih =>
    rw [readDigits] at read
    split at read
    · have rest := ih read
      omega
    · cases read

theorem absorb_digits {acc n : Nat} {ds : List Char} (read : readDigits acc ds = some n) (small : n ≤ largestSignificand) :
    absorb acc ds = (n, []) := by
  induction ds generalizing acc with
  | nil =>
    cases read
    rfl
  | cons c r ih =>
    rw [readDigits] at read
    split at read
    · rename_i d value
      have fits : acc * 10 + d ≤ largestSignificand := Nat.le_trans (le_of_readDigits read) small
      simp only [absorb, digitNat, value, Option.getD_some, if_pos fits]
      exact ih read
    · cases read

theorem literal_integer {n : Int} (low : -9223372036854775808 ≤ n) (high : n ≤ 18446744073709551615) :
    Literal.json? ⟨decide (n < 0), digits n.natAbs, [], none⟩ = some (.integer n) := by
  have small : n.natAbs ≤ largestSignificand := by
    unfold largestSignificand
    omega
  simp only [Literal.json?, absorb_digits (readDigits_digits n.natAbs) small, and_self, if_true]
  by_cases negative : n < 0
  · have bounds : 0 < n.natAbs ∧ n.natAbs ≤ 9223372036854775808 := by omega
    have value : -(n.natAbs : Int) = n := by omega
    simp only [negative, decide_true, Bool.not_true, Bool.false_eq_true, if_false, if_pos bounds, value]
  · have value : (n.natAbs : Int) = n := by omega
    simp [negative, value]

theorem tokens_mark {c : Char} {t : Token} (mark : punctuation? c = some t) (solid : isSpace c = false) (r : List Char) :
    tokens (c :: r) = (tokens r).map (t :: ·) := by
  rw [tokens]
  simp only [solid, Bool.false_eq_true, if_false, mark]

theorem tokens_word {c : Char} {t : Token} {r rest : List Char} (solid : isSpace c = false)
    (unmarked : punctuation? c = none) (word : wordToken? c r = some (t, rest)) :
    tokens (c :: r) = (tokens rest).map (t :: ·) := by
  rw [tokens]
  simp only [solid, Bool.false_eq_true, if_false, unmarked]
  split
  · rename_i t' rest' same
    rw [word] at same
    cases same
    rfl
  · rename_i same
    rw [word] at same
    cases same

theorem tokens_quoted (s : String) : ∃ letters, (∀ r, tokens (quoted s ++ r) = (tokens r).map (.text letters :: ·)) ∧
    text? letters = some s := by
  obtain ⟨letters, read, told⟩ := readLetters_escaped s.toList
  refine ⟨letters, ?_, ?_⟩
  · intro r
    have word : wordToken? '"' (s.toList.flatMap escapedChar ++ '"' :: r) = some (.text letters, r) := by
      simp [wordToken?, read]
    have spelled : quoted s ++ r = '"' :: (s.toList.flatMap escapedChar ++ '"' :: r) := by simp [quoted]
    rw [spelled, tokens_word rfl rfl word]
  · simp [text?, told]

theorem isNumeric_intDigits (n : Int) : ∀ c ∈ intDigits n, isNumeric c = true := by
  intro c member
  rcases mem_intDigits n c member with rfl | digit
  · rfl
  · simp [isNumeric, digit]

theorem split_numeric {cs r : List Char} (all : ∀ c ∈ cs, isNumeric c = true) (ended : Ended r) :
    (cs ++ r).takeWhile isNumeric = cs ∧ (cs ++ r).dropWhile isNumeric = r := by
  refine parted_run isNumeric all fun c s following => ?_
  rcases ended c s following with rfl | rfl | rfl <;> decide

theorem numeric_opening {c : Char} (first : c = '-' ∨ c.isDigit = true) :
    isSpace c = false ∧ punctuation? c = none ∧ c ≠ '"' := by
  rcases first with rfl | digit
  · decide
  have other (d : Char) (mark : d.isDigit = false) : c ≠ d := by
    rintro rfl
    rw [digit] at mark
    cases mark
  refine ⟨?_, ?_, other _ rfl⟩
  · simp [isSpace, other ' ' rfl, other '\n' rfl, other '\t' rfl, other '\r' rfl]
  · simp [punctuation?, other '[' rfl, other ']' rfl, other '\x7b' rfl, other '\x7d' rfl, other ',' rfl, other ':' rfl]

theorem tokens_integer (n : Int) {r : List Char} (ended : Ended r) : tokens (intDigits n ++ r) =
    (tokens r).map (.number ⟨decide (n < 0), digits n.natAbs, [], none⟩ :: ·) := by
  obtain ⟨c, cs, spelled⟩ := List.exists_cons_of_ne_nil (intDigits_ne_nil n)
  have numeric := isNumeric_intDigits n
  have literal := readLiteral_intDigits n
  have first : c = '-' ∨ c.isDigit = true := mem_intDigits n c (by simp [spelled])
  rw [spelled] at numeric literal ⊢
  obtain ⟨taken, left⟩ := split_numeric (List.forall_mem_cons.mp numeric).2 ended
  obtain ⟨solid, unmarked, other⟩ := numeric_opening first
  have word : wordToken? c (cs ++ r) = some (.number ⟨decide (n < 0), digits n.natAbs, [], none⟩, r) := by
    unfold wordToken?
    rw [if_neg other, if_pos first.symm, taken, left, literal]
    rfl
  exact tokens_word solid unmarked word

-- The words of a value and the document they make, for whatever stands behind it and wherever it stands.
structure Reads (j : Json) (words : List Token) (tree : Tree) : Prop where
  split : ∀ r, Ended r → tokens (chars j ++ r) = (tokens r).map (words ++ ·)
  opens : ∃ t ts, words = t :: ts ∧ t ≠ .closeArray
  runs : ∀ stack, Machine.run ⟨.value, stack⟩ words = some ⟨.after tree, stack⟩
  told : ∀ limit, Tree.json? limit tree = if depth j ≤ limit then some j else none

-- The first value of an array stands where its end might.
theorem Reads.first {j : Json} {words : List Token} {tree : Tree} (reads : Reads j words tree) (stack : List Frame) :
    Machine.run ⟨.valueOrClose, .array [] :: stack⟩ words = some ⟨.after tree, .array [] :: stack⟩ := by
  obtain ⟨t, ts, rfl, other⟩ := reads.opens
  have same : Machine.step ⟨.valueOrClose, .array [] :: stack⟩ t = Machine.step ⟨.value, .array [] :: stack⟩ t := by
    cases t <;> first | rfl | exact absurd rfl other
  rw [← reads.runs, Machine.run, Machine.run, same]

theorem reads_word {j : Json} {t : Token} {tree : Tree} (other : t ≠ .closeArray)
    (split : ∀ r, Ended r → tokens (chars j ++ r) = (tokens r).map (t :: ·))
    (step : ∀ stack, beginValue stack t = some ⟨.after tree, stack⟩)
    (told : ∀ limit, Tree.json? limit tree = if depth j ≤ limit then some j else none) : Reads j [t] tree := by
  refine ⟨split, ⟨t, [], rfl, other⟩, ?_, told⟩
  intro stack
  have here : Machine.step ⟨.value, stack⟩ t = some ⟨.after tree, stack⟩ := step stack
  rw [Machine.run, here]
  rfl

theorem reads_null : Reads .null [.null] .null := by
  refine reads_word (by simp) ?_ (fun _ => rfl) (fun _ => rfl)
  intro r _
  exact tokens_word rfl rfl rfl

theorem reads_bool (b : Bool) : Reads (.bool b) [.bool b] (.bool b) := by
  refine reads_word (by simp) ?_ (fun _ => rfl) (fun _ => rfl)
  intro r _
  cases b <;> exact tokens_word rfl rfl rfl

theorem reads_integer {n : Int} (low : -9223372036854775808 ≤ n) (high : n ≤ 18446744073709551615) :
    Reads (.integer n) [.number ⟨decide (n < 0), digits n.natAbs, [], none⟩]
      (.number ⟨decide (n < 0), digits n.natAbs, [], none⟩) := by
  refine reads_word (by simp) (fun r ended => tokens_integer n ended) (fun _ => rfl) ?_
  intro limit
  rw [Tree.json?, literal_integer low high]
  rfl

theorem reads_text (s : String) : ∃ letters, Reads (.text s) [.text letters] (.text letters) := by
  obtain ⟨letters, split, told⟩ := tokens_quoted s
  refine ⟨letters, reads_word (by simp) (fun r _ => split r) (fun _ => rfl) ?_⟩
  intro limit
  rw [Tree.json?, told]
  rfl

def between : List (List Token) → List Token
  | [] => []
  | words :: rest => words ++ rest.flatMap (.comma :: ·)

section
variable {α : Type} {f : α → List Char} {close : Char} {t : Token}

theorem tokens_following (mark : close = ']' ∨ close = '\x7d') (named : punctuation? close = some t)
    {as : List α} {parts : List (List Token)}
    (split : List.Forall₂ (fun a words => ∀ r, Ended r → tokens (f a ++ r) = (tokens r).map (words ++ ·)) as parts)
    (r : List Char) :
    tokens (following f close as r) = (tokens r).map ((parts.flatMap (.comma :: ·) ++ [t]) ++ ·) := by
  have comma : ∀ r, tokens (',' :: r) = (tokens r).map (.comma :: ·) := tokens_mark rfl rfl
  induction split with
  | nil =>
    have solid : isSpace close = false := by rcases mark with rfl | rfl <;> rfl
    exact tokens_mark named solid r
  | @cons a words as parts first _ ih =>
    rw [following, comma, first _ (ended_following mark as r), ih]
    simp [Function.comp_def]

theorem tokens_separated (mark : close = ']' ∨ close = '\x7d') (named : punctuation? close = some t)
    {as : List α} {parts : List (List Token)}
    (split : List.Forall₂ (fun a words => ∀ r, Ended r → tokens (f a ++ r) = (tokens r).map (words ++ ·)) as parts)
    (r : List Char) :
    tokens (separated (as.map f) ++ close :: r) = (tokens r).map ((between parts ++ [t]) ++ ·) := by
  cases split with
  | nil =>
    have solid : isSpace close = false := by rcases mark with rfl | rfl <;> rfl
    exact tokens_mark named solid r
  | @cons a words as parts first rest =>
    rw [separated_following, first _ (ended_following mark as r), tokens_following mark named rest]
    simp [between, Function.comp_def]

end

theorem run_items {items : List Json} {parts : List (List Token × Tree)}
    (reads : List.Forall₂ (fun j p => Reads j p.1 p.2) items parts) (v : Tree) (done : List Tree) (stack : List Frame) :
    Machine.run ⟨.after v, .array done :: stack⟩ ((parts.map Prod.fst).flatMap (.comma :: ·) ++ [.closeArray]) =
      some ⟨.after (.array (done.reverse ++ v :: parts.map Prod.snd)), stack⟩ := by
  induction reads generalizing v done with
  | nil => simp [Machine.run, Machine.step]
  | @cons j p items parts first _ ih =>
    have value := first.runs (.array (v :: done) :: stack)
    simp only [List.map_cons, List.flatMap_cons, List.cons_append, List.append_assoc, Machine.run, Machine.step]
    rw [Machine.run_append, value, Option.bind_some, ih]
    simp

theorem json?_items {items : List Json} {parts : List (List Token × Tree)}
    (reads : List.Forall₂ (fun j p => Reads j p.1 p.2) items parts) (limit : Nat) :
    Tree.items? limit (parts.map Prod.snd) = if itemsDepth items ≤ limit then some items else none := by
  induction reads with
  | nil => rfl
  | @cons j p items parts first _ ih =>
    rw [List.map_cons, Tree.items?, first.told, ih]
    by_cases shallow : depth j ≤ limit <;> by_cases others : itemsDepth items ≤ limit <;>
      simp [itemsDepth, shallow, others]

theorem reads_array {items : List Json} {parts : List (List Token × Tree)}
    (reads : List.Forall₂ (fun j p => Reads j p.1 p.2) items parts) :
    Reads (.array items) (.openArray :: (between (parts.map Prod.fst) ++ [.closeArray])) (.array (parts.map Prod.snd)) := by
  refine ⟨?_, ⟨_, _, rfl, by simp⟩, ?_, ?_⟩
  · intro r _
    have opened : ∀ r, tokens ('[' :: r) = (tokens r).map (.openArray :: ·) := tokens_mark rfl rfl
    have split : List.Forall₂ (fun j words => ∀ r, Ended r → tokens (chars j ++ r) = (tokens r).map (words ++ ·)) items
        (parts.map Prod.fst) := List.forall₂_map_right_iff.mpr (reads.imp fun _ _ part => part.split)
    rw [chars_array, opened, tokens_separated (.inl rfl) rfl split]
    simp [Function.comp_def]
  · intro stack
    cases reads with
    | nil => rfl
    | @cons j p items parts first rest =>
      simp only [Machine.run, Machine.step, beginValue, List.map_cons, between, List.append_assoc]
      rw [Machine.run_append, first.first, Option.bind_some, run_items rest]
      rfl
  · intro limit
    rw [Tree.json?, json?_items reads, depth]
    cases limit with
    | zero => rfl
    | succ limit => split <;> simp_all

-- A member is read as its name and its value, which stands where a name and a colon were.
structure ReadsMember (m : String × Json) (words : List Token) (tree : List Letter × Tree) : Prop where
  split : ∀ r, Ended r → tokens (memberText m ++ r) = (tokens r).map (words ++ ·)
  named : ∃ rest, words = .text tree.1 :: .colon :: rest ∧ Reads m.2 rest tree.2
  name : text? tree.1 = some m.1

theorem reads_member {m : String × Json} {words : List Token} {tree : Tree} (value : Reads m.2 words tree) :
    ∃ key, ReadsMember m (.text key :: .colon :: words) (key, tree) := by
  obtain ⟨key, quote, name⟩ := tokens_quoted m.1
  have colon : ∀ r, tokens (':' :: r) = (tokens r).map (.colon :: ·) := tokens_mark rfl rfl
  refine ⟨key, ?_, ⟨words, rfl, value⟩, name⟩
  intro r ended
  rw [memberText, List.append_assoc, List.cons_append, quote, colon, value.split r ended]
  simp [Function.comp_def]

theorem run_members {members : List (String × Json)} {parts : List (List Token × (List Letter × Tree))}
    (reads : List.Forall₂ (fun m p => ReadsMember m p.1 p.2) members parts) (v : Tree) (key : List Letter)
    (done : List (List Letter × Tree)) (stack : List Frame) :
    Machine.run ⟨.after v, .object done key :: stack⟩ ((parts.map Prod.fst).flatMap (.comma :: ·) ++ [.closeObject]) =
      some ⟨.after (.object (done.reverse ++ (key, v) :: parts.map Prod.snd)), stack⟩ := by
  induction reads generalizing v key done with
  | nil => simp [Machine.run, Machine.step]
  | @cons m p members parts first _ ih =>
    obtain ⟨rest, named, value⟩ := first.named
    have run := value.runs (.object ((key, v) :: done) p.2.1 :: stack)
    simp only [List.map_cons, List.flatMap_cons, named, List.cons_append, List.append_assoc, Machine.run, Machine.step]
    rw [Machine.run_append, run, Option.bind_some, ih]
    simp

theorem json?_members {members : List (String × Json)} {parts : List (List Token × (List Letter × Tree))}
    (reads : List.Forall₂ (fun m p => ReadsMember m p.1 p.2) members parts) (limit : Nat) :
    Tree.members? limit (parts.map Prod.snd) = if membersDepth members ≤ limit then some members else none := by
  induction reads with
  | nil => rfl
  | @cons m p members parts first _ ih =>
    obtain ⟨_, _, value⟩ := first.named
    rw [List.map_cons, Tree.members?, first.name, value.told, ih]
    by_cases shallow : depth m.2 ≤ limit <;> by_cases others : membersDepth members ≤ limit <;>
      simp [membersDepth, shallow, others]

theorem reads_object {members : List (String × Json)} {parts : List (List Token × (List Letter × Tree))}
    (ascending : (Sorted.names members).Pairwise (· < ·))
    (reads : List.Forall₂ (fun m p => ReadsMember m p.1 p.2) members parts) :
    Reads (.object members) (.openObject :: (between (parts.map Prod.fst) ++ [.closeObject]))
      (.object (parts.map Prod.snd)) := by
  refine ⟨?_, ⟨_, _, rfl, by simp⟩, ?_, ?_⟩
  · intro r _
    have opened : ∀ r, tokens ('\x7b' :: r) = (tokens r).map (.openObject :: ·) := tokens_mark rfl rfl
    have split : List.Forall₂ (fun m words => ∀ r, Ended r → tokens (memberText m ++ r) = (tokens r).map (words ++ ·))
        members (parts.map Prod.fst) := List.forall₂_map_right_iff.mpr (reads.imp fun _ _ part => part.split)
    rw [chars_object, opened, tokens_separated (.inr rfl) rfl split]
    simp [Function.comp_def]
  · intro stack
    cases reads with
    | nil => rfl
    | @cons m p members parts first others =>
      obtain ⟨rest, named, value⟩ := first.named
      have run := value.runs (.object [] p.2.1 :: stack)
      simp only [List.map_cons, between, named, List.cons_append, List.append_assoc, Machine.run, Machine.step, beginValue]
      rw [Machine.run_append, run, Option.bind_some, run_members others]
      rfl
  · intro limit
    rw [Tree.json?, json?_members reads, depth]
    have kept : ofMembers members = .object members := by rw [ofMembers, Sorted.ofPairs_of_ascending ascending]
    cases limit with
    | zero => rfl
    | succ limit => split <;> simp_all

theorem exists_parts {α β γ : Type} {related : α → β → γ → Prop} {as : List α} (each : ∀ a ∈ as, ∃ b c, related a b c) :
    ∃ parts : List (β × γ), List.Forall₂ (fun a p => related a p.1 p.2) as parts := by
  induction as with
  | nil => exact ⟨[], .nil⟩
  | cons a as ih =>
    obtain ⟨⟨b, c, first⟩, rest⟩ := List.forall_mem_cons.mp each
    obtain ⟨parts, others⟩ := ih rest
    exact ⟨(b, c) :: parts, .cons first others⟩

theorem exists_reads {j : Json} (exact : Exact j) : ∃ words tree, Reads j words tree := by
  induction exact with
  | null => exact ⟨_, _, reads_null⟩
  | bool b => exact ⟨_, _, reads_bool b⟩
  | integer low high => exact ⟨_, _, reads_integer low high⟩
  | text s =>
    obtain ⟨letters, reads⟩ := reads_text s
    exact ⟨_, _, reads⟩
  | array _ ih =>
    obtain ⟨parts, reads⟩ := exists_parts ih
    exact ⟨_, _, reads_array reads⟩
  | @object members ascending _ ih =>
    have each : ∀ m ∈ members, ∃ words tree, ReadsMember m words tree := by
      intro m member
      obtain ⟨words, tree, value⟩ := ih m member
      obtain ⟨key, reads⟩ := reads_member value
      exact ⟨_, _, reads⟩
    obtain ⟨parts, reads⟩ := exists_parts each
    exact ⟨_, _, reads_object ascending reads⟩

theorem read_compact {j : Json} (exact : Exact j) :
    Json.read j.compact = if depth j ≤ nestingLimit then some j else none := by
  obtain ⟨words, tree, reads⟩ := exists_reads exact
  have whole : tokens (chars j) = some words := by
    have split := reads.split [] ended_nil
    simpa [tokens] using split
  have document : Tree.read (chars j) = some tree := by
    simp only [Tree.read, whole, Machine.start, reads.runs]
    rfl
  rw [Json.read, compact, String.toList_ofList, document, Option.bind_some, reads.told]

theorem readOctets_compact {j : Json} (exact : Exact j) :
    Json.readOctets (octets j.compact) = if depth j ≤ nestingLimit then some j else none := by
  rw [Json.readOctets, ofOctets?_octets, Option.bind_some, read_compact exact]

end QueryKit.Json

namespace QueryKit
open Text Json

def Json.returned (j : Json) : Value := if j.depth ≤ nestingLimit then .json j else .null

theorem readJson_compact {j : Json} (exact : j.Exact) : Coercer.readJson (.text j.compact) = j.returned := by
  rw [Coercer.readJson, read_compact exact, Json.returned]
  split <;> rfl

theorem readObject_compact {j : Json} (exact : j.Exact) :
    Coercer.readObject (.bytes (octets j.compact)) = j.returned := by
  rw [Coercer.readObject, readOctets_compact exact, Json.returned]
  split <;> rfl

theorem writeJson_of_ne_null {v : Value} (given : v ≠ .null) : Coercer.writeJson v = .text v.toJson.compact := by
  cases v <;> first | rfl | exact absurd rfl given

theorem writeObject_of_ne {v : Value} (given : v ≠ .null) (other : ∀ raw, v ≠ .bytes raw) :
    Coercer.writeObject v = .bytes (octets v.toJson.compact) := by
  cases v <;> first | rfl | exact absurd rfl given | exact absurd rfl (other _)

-- A value of a JSON property is stored as the text of its JSON, which is what the property gets back, or null
-- where it is nested too deep; an object property does the same in octets, and stores given octets as they are.
theorem json_returns (c : Coercer) (p : Property) {v : Value} (given : v ≠ .null) (exact : v.toJson.Exact) :
    (p.type = .json → c.toStorage p v = .ok (.text v.toJson.compact) ∧
      c.fromStorage p (.text v.toJson.compact) = .ok v.toJson.returned) ∧
    (p.type = .object → (∀ raw, v ≠ .bytes raw) → c.toStorage p v = .ok (.bytes (octets v.toJson.compact)) ∧
      c.fromStorage p (.bytes (octets v.toJson.compact)) = .ok v.toJson.returned) := by
  constructor
  · intro typed
    simp only [Coercer.toStorage, Coercer.fromStorage, typed, writeJson_of_ne_null given, readJson_compact exact,
      and_self]
  · intro typed other
    simp only [Coercer.toStorage, Coercer.fromStorage, typed, writeObject_of_ne given other, readObject_compact exact,
      and_self]

def layers : Nat → Json
  | 0 => .ofMembers [("\"\\\n\u0001\u3000", .integer 18446744073709551615), ("", .integer (-9223372036854775808))]
  | n + 1 => .array [layers n]

theorem depth_layers (n : Nat) : (layers n).depth = n + 1 := by
  induction n with
  | zero => rfl
  | succ n ih => simp [layers, Json.depth, itemsDepth, ih]

theorem exact_layers (n : Nat) : (layers n).Exact := by
  induction n with
  | zero =>
    refine .ofMembers ?_
    rw [List.forall_mem_cons, List.forall_mem_singleton]
    exact ⟨.integer (by decide) (by decide), .integer (by decide) (by decide)⟩
  | succ n ih => exact .array (List.forall_mem_singleton.mpr ih)

def metaColumn (type : PropertyType) : Property := ⟨"meta", "meta", type, false, .text⟩

theorem deepest_returns :
    (Value.json (layers 126) ≠ .null ∧ (layers 126).Exact ∧ (layers 127).Exact) ∧
    ((Coercer.new .localTime).toStorage (metaColumn .json) (.json (layers 126)) = .ok (.text (layers 126).compact) ∧
      (Coercer.new .localTime).fromStorage (metaColumn .json) (.text (layers 126).compact) = .ok (.json (layers 126))) ∧
    (Coercer.new .localTime).toStorage (metaColumn .object) (.json (layers 127)) =
        .ok (.bytes (octets (layers 127).compact)) ∧
      (Coercer.new .localTime).fromStorage (metaColumn .object) (.bytes (octets (layers 127).compact)) = .ok .null := by
  have kept := (json_returns (Coercer.new .localTime) (metaColumn .json) (v := .json (layers 126))
    Value.noConfusion (exact_layers 126)).1 rfl
  have lost := (json_returns (Coercer.new .localTime) (metaColumn .object) (v := .json (layers 127))
    Value.noConfusion (exact_layers 127)).2 rfl fun _ => Value.noConfusion
  rw [Value.toJson, Json.returned, depth_layers] at kept lost
  exact ⟨⟨Value.noConfusion, exact_layers 126, exact_layers 127⟩, kept, lost⟩

end QueryKit
