import Mathlib.Data.List.Pairwise
import Mathlib.Data.List.Perm.Basic
import QueryKit.Config.Address
import QueryKit.Proofs.AddressQueries
import QueryKit.Proofs.PercentEncoding

-- The order of the parameters of an address. Where no two of them write the same setting, each is in the settings
-- as it was written, and the settings, or what is wrong with the address, are the same in every order.

namespace QueryKit
open Text

namespace Text

theorem splitWhere_append {isSeparator : Char → Bool} {cs : List Char} (plain : ∀ c ∈ cs, isSeparator c = false)
    {r part : List Char} {parts : List (List Char)} (split : splitWhere isSeparator r = part :: parts) :
    splitWhere isSeparator (cs ++ r) = (cs ++ part) :: parts := by
  induction cs with
  | nil => exact split
  | cons c s ih =>
    obtain ⟨here, later⟩ := List.forall_mem_cons.mp plain
    simp [splitWhere, here, ih later]

-- What is spelled anew character by character has its separators where they were.
theorem splitWhere_flatMap {isSeparator : Char → Bool} {spell : Char → List Char}
    (kept : ∀ c, isSeparator c = true → spell c = [c])
    (plain : ∀ c, isSeparator c = false → ∀ d ∈ spell c, isSeparator d = false) (cs : List Char) :
    splitWhere isSeparator (cs.flatMap spell) = (splitWhere isSeparator cs).map (·.flatMap spell) := by
  induction cs with
  | nil => rfl
  | cons c r ih =>
    rw [List.flatMap_cons]
    cases separator : isSeparator c with
    | true => simp [kept c separator, splitWhere, separator, ih]
    | false =>
      obtain ⟨part, parts, split⟩ := List.exists_cons_of_ne_nil (splitWhere_ne_nil isSeparator r)
      rw [split] at ih
      rw [splitWhere_append (plain c separator) ih]
      simp [splitWhere, separator, split]

end Text

namespace Url

def queryChars? (cs : List Char) : Option (List Char) :=
  match cs.dropWhile fun c => !endsPath c with
  | '?' :: r => some (r.takeWhile (· != '#'))
  | _ => none

def parametersOf (address : String) : List (String × String) :=
  parameters (((queryChars? (clean address.toList)).map (encodeText inQuery)).getD "")

-- Addresses that are the same but for the order of their parameters.
structure Reordered (a b : String) : Prop where
  front : (clean a.toList).takeWhile (fun c => !endsPath c) = (clean b.toList).takeWhile fun c => !endsPath c
  queried : (queryChars? (clean a.toList)).isSome = (queryChars? (clean b.toList)).isSome
  parameters : (parametersOf a).Perm (parametersOf b)
  fragment : ((clean a.toList).dropWhile fun c => !endsPath c).dropWhile (· != '#') =
    ((clean b.toList).dropWhile fun c => !endsPath c).dropWhile (· != '#')

theorem parameters_encoded (query : List Char) : parameters (encodeText inQuery query) =
    (((splitWhere (· == '&') query).map (encode inQuery)).filter (· != [])).map parameter := by
  have kept : ∀ c : Char, (c == '&') = true → encodeChar inQuery c = [c] := by
    intro c separator
    rw [eq_of_beq separator]
    rfl
  have digit (n : Nat) : (hexDigitUpper n == '&') = false := by
    rw [beq_eq_false_iff_ne]
    intro same
    have unreserved := isUnreserved_hexDigitUpper n
    rw [same] at unreserved
    cases unreserved
  have plain : ∀ c : Char, (c == '&') = false → ∀ d ∈ encodeChar inQuery c, (d == '&') = false := by
    intro c other
    unfold encodeChar
    split
    · intro d member
      obtain ⟨b, _, inside⟩ := List.mem_flatMap.mp member
      simp only [encodedOctet, List.mem_cons, List.not_mem_nil, or_false] at inside
      rcases inside with rfl | rfl | rfl
      · rfl
      · exact digit _
      · exact digit _
    · exact List.forall_mem_singleton.mpr other
  rw [parameters, encodeText, String.toList_ofList, encode, splitWhere_flatMap kept plain]
  rfl

theorem reordered_of_parts {a b : String} {first second : List Char}
    (front : (clean a.toList).takeWhile (fun c => !endsPath c) = (clean b.toList).takeWhile fun c => !endsPath c)
    (fragment : ((clean a.toList).dropWhile fun c => !endsPath c).dropWhile (· != '#') =
      ((clean b.toList).dropWhile fun c => !endsPath c).dropWhile (· != '#'))
    (left : queryChars? (clean a.toList) = some first) (right : queryChars? (clean b.toList) = some second)
    (parts : (splitWhere (· == '&') first).Perm (splitWhere (· == '&') second)) : Reordered a b := by
  refine ⟨front, by rw [left, right]; rfl, ?_, fragment⟩
  unfold parametersOf
  rw [left, right]
  simp only [Option.map_some, Option.getD_some, parameters_encoded]
  exact ((parts.map _).filter _).map _

theorem queryChars?_cases (cs : List Char) :
    (∃ r, cs.dropWhile (fun c => !endsPath c) = '?' :: r ∧ queryChars? cs = some (r.takeWhile (· != '#'))) ∨
      (cs.dropWhile (fun c => !endsPath c)).dropWhile (· != '#') = cs.dropWhile (fun c => !endsPath c) ∧
        queryChars? cs = none := by
  unfold queryChars?
  rcases found : cs.dropWhile (fun c => !endsPath c) with _ | ⟨c, r⟩
  · exact .inr ⟨rfl, rfl⟩
  · have ends : endsPath c = true := by
      have stopped := List.head?_dropWhile_not (fun c => !endsPath c) cs
      rw [found] at stopped
      simpa using stopped
    rcases (Bool.or_eq_true _ _).mp ends with mark | hash
    · cases eq_of_beq mark
      exact .inl ⟨r, rfl, rfl⟩
    · cases eq_of_beq hash
      exact .inr ⟨rfl, rfl⟩

theorem read_queried (front : List Char) : ∃ read : Except UrlFault Url, ∀ address query,
    (clean address.toList).takeWhile (fun c => !endsPath c) = front → queryChars? (clean address.toList) = some query →
      Url.read address = read.map (withQuery (some (encodeText inQuery query))) := by
  by_cases plain : ∀ c ∈ front, endsPath c = false
  · obtain ⟨read, behind⟩ := read_behind plain
    refine ⟨read, fun address query start said => ?_⟩
    have whole := List.takeWhile_append_dropWhile (p := fun c => !endsPath c) (l := clean address.toList)
    rcases queryChars?_cases (clean address.toList) with ⟨r, rest, found⟩ | ⟨-, unqueried⟩
    · cases found.symm.trans said
      rw [start, rest] at whole
      exact behind address r whole.symm
    · cases unqueried.symm.trans said
  · refine ⟨.error .noScheme, fun address query start said => absurd (fun c member => ?_) plain⟩
    rw [← start] at member
    simpa using List.mem_takeWhile_imp member

theorem read_reordered {a b : String} (reordered : Reordered a b) : read a = read b ∨
    ∃ front : Except UrlFault Url,
      read a = front.map (withQuery ((queryChars? (clean a.toList)).map (encodeText inQuery))) ∧
      read b = front.map (withQuery ((queryChars? (clean b.toList)).map (encodeText inQuery))) := by
  obtain ⟨front, queried, -, fragment⟩ := reordered
  rcases queryChars?_cases (clean a.toList) with ⟨r, -, queryA⟩ | ⟨restA, queryA⟩ <;>
    rcases queryChars?_cases (clean b.toList) with ⟨s, -, queryB⟩ | ⟨restB, queryB⟩
  · right
    obtain ⟨read, behind⟩ := read_queried ((clean a.toList).takeWhile fun c => !endsPath c)
    refine ⟨read, ?_, ?_⟩
    · rw [behind a _ rfl queryA, queryA, Option.map_some]
    · rw [behind b _ front.symm queryB, queryB, Option.map_some]
  · rw [queryA, queryB] at queried
    cases queried
  · rw [queryA, queryB] at queried
    cases queried
  · left
    have wholeA := List.takeWhile_append_dropWhile (p := fun c => !endsPath c) (l := clean a.toList)
    have wholeB := List.takeWhile_append_dropWhile (p := fun c => !endsPath c) (l := clean b.toList)
    have same : clean a.toList = clean b.toList := by
      rw [← wholeA, ← wholeB, front, ← restA, fragment, restB]
    simp only [read, same]

end Url

namespace Config

-- What a parameter of the address writes. Every name that is not known has a setting of its own.
inductive Setting where
  | encryption
  | zone
  | connections
  | other (name : String)
  deriving DecidableEq, Repr

def Setting.ofName (name : String) : Setting :=
  if name = "ssl" ∨ name = "sslmode" then .encryption
  else if name = "timezone" then .zone
  else if name = "max_connections" ∨ name = "pool_max" then .connections
  else .other name

-- Parameters that write different settings.
def Apart (p q : String × String) : Prop := Setting.ofName p.1 ≠ Setting.ofName q.1

instance (p q : String × String) : Decidable (Apart p q) := inferInstanceAs (Decidable (_ ≠ _))

instance : Std.Symm Apart := ⟨fun _ _ other => other.symm⟩

-- A parameter in the settings, as it was written.
def Shows (c : Config) (p : String × String) : Prop :=
  match Setting.ofName p.1 with
  | .encryption => c.ssl = if p.1 = "ssl" then p.2 == "true" || p.2 == "1" else p.2 != "disable"
  | .zone => c.timezone = p.2
  | .connections => readUInt32 p.2.toList = some c.maxConnections
  | .other name => Sorted.get? name c.params = some p.2

def refuses (p : String × String) : Bool :=
  Setting.ofName p.1 = .connections && (readUInt32 p.2.toList).isNone

def write (c : Config) (p : String × String) : Config :=
  match Setting.ofName p.1 with
  | .encryption => { c with ssl := if p.1 = "ssl" then p.2 == "true" || p.2 == "1" else p.2 != "disable" }
  | .zone => { c with timezone := p.2 }
  | .connections => { c with maxConnections := (readUInt32 p.2.toList).getD 0 }
  | .other name => { c with params := Sorted.insert name p.2 c.params }

section
variable {p q : String × String} {ps qs : List (String × String)}

theorem setParameter_eq (c : Config) (p : String × String) : c.setParameter p =
    if refuses p then .error (.configuration (.maxConnections p.2)) else .ok (c.write p) := by
  obtain ⟨name, value⟩ := p
  unfold setParameter refuses write Setting.ofName
  dsimp only
  by_cases ssl : name = "ssl"
  · simp [ssl]
  · by_cases mode : name = "sslmode"
    · simp [mode]
    · by_cases zone : name = "timezone"
      · simp [zone]
      · by_cases most : name = "max_connections" ∨ name = "pool_max"
        · cases readUInt32 value.toList <;> simp [ssl, mode, zone, most]
        · simp [ssl, mode, zone, most]

theorem write_comm (apart : Apart p q) (c : Config) : (c.write p).write q = (c.write q).write p := by
  unfold write
  cases first : Setting.ofName p.1 <;> cases second : Setting.ofName q.1
  case encryption.encryption => exact absurd (first.trans second.symm) apart
  case zone.zone => exact absurd (first.trans second.symm) apart
  case connections.connections => exact absurd (first.trans second.symm) apart
  case other.other n m =>
    have names : m ≠ n := by
      rintro rfl
      exact apart (first.trans second.symm)
    simp only [Sorted.insert_comm names]
  all_goals rfl

theorem refuses_apart (apart : Apart p q) : refuses p = false ∨ refuses q = false := by
  unfold refuses
  by_cases first : Setting.ofName p.1 = .connections
  · have other : Setting.ofName q.1 ≠ .connections := fun second => apart (first.trans second.symm)
    simp [other]
  · simp [first]

def setNext (c : Except Fault Config) (p : String × String) : Except Fault Config := c.bind (·.setParameter p)

theorem setNext_comm (apart : Apart p q) (c : Except Fault Config) :
    setNext (setNext c p) q = setNext (setNext c q) p := by
  cases c with
  | error fault => rfl
  | ok c =>
    simp only [setNext, Except.bind, setParameter_eq]
    rcases refuses_apart apart with taken | taken
    · cases refuses q <;> simp [taken, write_comm apart]
    · cases refuses p <;> simp [taken, write_comm apart]

theorem setParameters_eq_foldl (c : Config) (ps : List (String × String)) : c.setParameters ps = ps.foldl setNext (.ok c) := by
  have stopped (fault : Fault) (ps : List (String × String)) : ps.foldl setNext (.error fault) = .error fault := by
    induction ps with
    | nil => rfl
    | cons p r ih => exact ih
  induction ps generalizing c with
  | nil => rfl
  | cons p r ih =>
    rw [List.foldl_cons, setParameters]
    show (c.setParameter p).bind _ = r.foldl setNext (c.setParameter p)
    cases c.setParameter p with
    | error fault => exact (stopped fault r).symm
    | ok next => exact ih next

theorem setParameters_perm (perm : ps.Perm qs) (apart : ps.Pairwise Apart) (c : Config) :
    c.setParameters ps = c.setParameters qs := by
  rw [setParameters_eq_foldl, setParameters_eq_foldl]
  apply perm.foldl_eq'
  intro p first q second z
  by_cases same : p = q
  · rw [same]
  · exact setNext_comm (apart.forall first second same) z

theorem shows_of_setParameter {c next : Config} (taken : c.setParameter p = .ok next) : next.Shows p := by
  rw [setParameter_eq] at taken
  split at taken
  · cases taken
  · rename_i free
    cases taken
    unfold Shows write
    unfold refuses at free
    cases setting : Setting.ofName p.1 with
    | encryption => rfl
    | zone => rfl
    | connections =>
      cases read : readUInt32 p.2.toList with
      | none => simp [setting, read] at free
      | some n => rfl
    | other name => simp [Sorted.get?_insert]

theorem shows_of_setParameters {c last : Config} (apart : ps.Pairwise Apart) (taken : c.setParameters ps = .ok last) :
    ∀ p ∈ ps, last.Shows p := by
  intro p member
  have behind : ps.Perm (ps.erase p ++ [p]) :=
    (List.perm_cons_erase member).trans (List.perm_append_singleton p (ps.erase p)).symm
  rw [setParameters_perm behind apart, setParameters_eq_foldl, List.foldl_append] at taken
  show last.Shows p
  cases before : (ps.erase p).foldl setNext (.ok c) with
  | error fault =>
    rw [before] at taken
    cases taken
  | ok earlier =>
    rw [before] at taken
    exact shows_of_setParameter taken

end

theorem ofUrl_withQuery {q r : Option String} (perm : (Url.parameters (q.getD "")).Perm (Url.parameters (r.getD "")))
    (apart : (Url.parameters (q.getD "")).Pairwise Apart) (url : Url) :
    ofUrl (url.withQuery q) = ofUrl (url.withQuery r) := by
  unfold ofUrl Url.withQuery
  dsimp only
  simp only [setParameters_perm perm apart]

theorem shows_of_ofUrl {url : Url} {c : Config} (taken : ofUrl url = .ok c)
    (apart : (Url.parameters (url.query.getD "")).Pairwise Apart) : ∀ p ∈ Url.parameters (url.query.getD ""), c.Shows p := by
  unfold ofUrl at taken
  split at taken
  · cases taken
  · split at taken
    · cases taken
    · split at taken
      · cases taken
      · dsimp only at taken
        generalize set : Config.setParameters _ _ = outcome at taken
        cases outcome with
        | error fault => cases taken
        | ok last =>
          cases valid : last.validate <;> simp only [valid, bind, Except.bind] at taken <;> cases taken
          exact shows_of_setParameters apart set

theorem shows_of_ofAddress {address : String} {c : Config} (apart : (Url.parametersOf address).Pairwise Apart)
    (taken : ofAddress address = .ok c) : ∀ p ∈ Url.parametersOf address, c.Shows p := by
  unfold Url.parametersOf at apart ⊢
  cases said : Url.queryChars? (Url.clean address.toList) with
  | none => exact fun p member => absurd member List.not_mem_nil
  | some query =>
    rw [said, Option.map_some, Option.getD_some] at apart
    rw [Option.map_some, Option.getD_some]
    obtain ⟨read, behind⟩ := Url.read_queried ((Url.clean address.toList).takeWhile fun c => !Url.endsPath c)
    rw [ofAddress, behind address query rfl said] at taken
    cases read with
    | error cause => cases taken
    | ok url =>
      generalize Url.encodeText Url.inQuery query = text at apart taken ⊢
      have read : ofUrl (url.withQuery (some text)) = .ok c := taken
      have shown := shows_of_ofUrl read apart
      exact shown

-- Addresses that differ in the order of their parameters alone give the same settings and the same key, or the same
-- fault, if no two of their parameters write one setting.
theorem ofAddress_reordered {a b : String} (reordered : Url.Reordered a b)
    (apart : (Url.parametersOf a).Pairwise Apart) :
    ofAddress a = ofAddress b ∧ (ofAddress a).map key = (ofAddress b).map key ∧
      ∀ c, ofAddress a = .ok c → ∀ p ∈ Url.parametersOf a, c.Shows p := by
  have same : ofAddress a = ofAddress b := by
    rcases Url.read_reordered reordered with read | ⟨front, readA, readB⟩
    · unfold ofAddress
      rw [read]
    · unfold ofAddress
      rw [readA, readB]
      cases front with
      | error cause => rfl
      | ok url => exact ofUrl_withQuery reordered.parameters apart url
  exact ⟨same, congrArg (·.map key) same, fun c taken => shows_of_ofAddress apart taken⟩

def shopAddress : String := "postgres://db/shop?b=2&ssl=1&a=1"

def shopAddressReordered : String := "postgres://db/shop?a=1&b=2&ssl=1"

theorem shop_reordered : Url.Reordered shopAddress shopAddressReordered :=
  Url.reordered_of_parts (by decide +kernel) (by decide +kernel) rfl rfl (by decide +kernel)

theorem shop_apart : (Url.parametersOf shopAddress).Pairwise Apart := by decide +kernel

theorem shop_address_reordered :
    (Url.Reordered shopAddress shopAddressReordered ∧ (Url.parametersOf shopAddress).Pairwise Apart) ∧
      ofAddress shopAddress = ofAddress shopAddressReordered ∧
      (ofAddress shopAddress).map key = (ofAddress shopAddressReordered).map key ∧
      ∃ c, ofAddress shopAddress = .ok c ∧ ∀ p ∈ Url.parametersOf shopAddress, c.Shows p := by
  obtain ⟨same, keys, shown⟩ := ofAddress_reordered shop_reordered shop_apart
  have taken : (ofAddress shopAddress).toOption.isSome = true := by decide +kernel
  refine ⟨⟨shop_reordered, shop_apart⟩, same, keys, ?_⟩
  cases read : ofAddress shopAddress with
  | error fault =>
    rw [read] at taken
    cases taken
  | ok c => exact ⟨c, rfl, shown c read⟩

end Config

end QueryKit
