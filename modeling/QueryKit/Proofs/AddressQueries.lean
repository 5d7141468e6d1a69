import Mathlib.Data.List.TakeWhile
import QueryKit.Url.Basic
import QueryKit.Url.Reading

-- The query of an address. It stands behind the first question mark, and all in front of that mark is read
-- without looking at it; so addresses whose queries differ are read alike but for their queries.

namespace QueryKit
open Text

namespace Text

-- A run that ends at a stop at the latest, whatever stands behind the stop.
theorem takeWhile_behind (keeps : Char → Bool) {c : Char} (stop : keeps c = false) (cs r : List Char) :
    (cs ++ c :: r).takeWhile keeps = cs.takeWhile keeps := by
  induction cs with
  | nil => rw [List.nil_append, List.takeWhile_cons_of_neg (Bool.eq_false_iff.mp stop), List.takeWhile_nil]
  | cons d s ih => simp only [List.cons_append, List.takeWhile_cons, ih]

theorem dropWhile_behind (keeps : Char → Bool) {c : Char} (stop : keeps c = false) (cs r : List Char) :
    (cs ++ c :: r).dropWhile keeps = cs.dropWhile keeps ++ c :: r := by
  induction cs with
  | nil => rw [List.nil_append, List.dropWhile_cons_of_neg (Bool.eq_false_iff.mp stop), List.dropWhile_nil, List.nil_append]
  | cons d s ih =>
    simp only [List.cons_append, List.dropWhile_cons, ih]
    split <;> rfl

theorem mem_dropWhile {keeps : Char → Bool} {cs : List Char} {c : Char} (member : c ∈ cs.dropWhile keeps) : c ∈ cs :=
  (List.dropWhile_sublist keeps).subset member

end Text

namespace Url

def withQuery (query : Option String) (url : Url) : Url := { url with query := query }

def Authority.behind (r : List Char) (a : Authority) : Authority := { a with rest := a.rest ++ '?' :: r }

section
variable {web : Bool} {cs : List Char}

theorem splitScheme_behind (cs r : List Char) :
    splitScheme (cs ++ '?' :: r) = (splitScheme cs).map fun p => (p.1, p.2 ++ '?' :: r) := by
  cases cs with
  | nil => rfl
  | cons c s =>
    have stop : isSchemeChar '?' = false := by decide
    have taken := takeWhile_behind isSchemeChar stop (c :: s) r
    have left := dropWhile_behind isSchemeChar stop (c :: s) r
    rw [List.cons_append] at taken left ⊢
    unfold splitScheme
    dsimp only
    rw [taken, left]
    split
    · rcases (c :: s).dropWhile isSchemeChar with _ | ⟨d, t⟩
      · rfl
      · by_cases colon : d = ':'
        · subst colon
          rfl
        · simp [colon]
    · rfl

theorem readPort_behind (cs r : List Char) :
    readPort (cs ++ '?' :: r) = (readPort cs).map fun p => (p.1, p.2 ++ '?' :: r) := by
  have stop : Char.isDigit '?' = false := by decide
  have next : ((cs.dropWhile Char.isDigit ++ '?' :: r).head?.any fun c => !endsAuthority true c) =
      ((cs.dropWhile Char.isDigit).head?.any fun c => !endsAuthority true c) := by
    cases cs.dropWhile Char.isDigit <;> rfl
  unfold readPort
  dsimp only
  rw [takeWhile_behind _ stop, dropWhile_behind _ stop, next]
  split
  · rfl
  · split <;> rfl

theorem readServer_behind (web : Bool) (username : String) (password : Option String) (cs r : List Char) :
    readServer web username password (cs ++ '?' :: r) = (readServer web username password cs).map (·.behind r) := by
  have stop : (!endsAuthority web '?') = false := by cases web <;> rfl
  unfold readServer
  rw [takeWhile_behind _ stop, dropWhile_behind _ stop]
  generalize splitHost false (cs.takeWhile fun c => !endsAuthority web c) = parts
  obtain ⟨written, colon⟩ := parts
  dsimp only
  rw [← List.append_assoc]
  generalize colon ++ cs.dropWhile (fun c => !endsAuthority web c) = rest
  have head : (rest ++ '?' :: r).head? = some ':' ↔ rest.head? = some ':' := by cases rest <;> simp
  simp only [head]
  split
  case isTrue => rfl
  case isFalse =>
    cases readHost web written with
    | error fault => rfl
    | ok host =>
      simp only [bind, Except.bind]
      split
      case isTrue => rfl
      case isFalse =>
        split
        case isTrue => rfl
        case isFalse =>
          rcases rest with _ | ⟨c, s⟩
          · rfl
          · by_cases port : c = ':'
            · subst port
              simp only [List.cons_append, readPort_behind]
              cases readPort s <;> rfl
            · simp [port]
              rfl

theorem mem_splitScheme {rest : List Char} {scheme : String} (read : splitScheme cs = some (scheme, rest)) :
    ∀ c ∈ rest, c ∈ cs := by
  unfold splitScheme at read
  split at read
  · cases read
  · split at read
    · split at read
      · rename_i left
        cases read
        intro c member
        have behind : c ∈ (_ :: _).dropWhile isSchemeChar := left ▸ List.mem_cons_of_mem ':' member
        exact mem_dropWhile behind
      · cases read
    · cases read

theorem mem_splitUserinfo (cs : List Char) : ∀ c ∈ (splitUserinfo cs).2, c ∈ cs := by
  induction cs with
  | nil => exact fun c member => member
  | cons d r ih =>
    have later : ∀ host, (splitUserinfo r).2 = host → ∀ c ∈ host, c ∈ d :: r := by
      rintro _ rfl c member
      exact List.mem_cons_of_mem d (ih c member)
    unfold splitUserinfo
    split
    · rename_i before host parts
      exact later host (congrArg Prod.snd parts)
    · rename_i host parts
      split
      · exact later host (congrArg Prod.snd parts)
      · exact List.forall_mem_cons.mpr ⟨List.mem_cons_self, later host (congrArg Prod.snd parts)⟩

theorem mem_splitHost (inBrackets : Bool) (cs : List Char) : ∀ c ∈ (splitHost inBrackets cs).2, c ∈ cs := by
  induction cs generalizing inBrackets with
  | nil => exact fun c member => member
  | cons d r ih =>
    unfold splitHost
    split
    · exact fun c member => member
    · exact fun c member => List.mem_cons_of_mem d (ih _ c member)

theorem mem_readPort {rest : List Char} {port : Option UInt16} (read : readPort cs = .ok (port, rest)) :
    ∀ c ∈ rest, c ∈ cs := by
  unfold readPort at read
  dsimp only at read
  split at read
  · cases read
  · split at read
    · cases read
    · cases read
      exact fun c member => mem_dropWhile member

theorem mem_readServer {username : String} {password : Option String} {a : Authority}
    (read : readServer web username password cs = .ok a) : ∀ c ∈ a.rest, c ∈ cs := by
  have inside := mem_splitHost false (cs.takeWhile fun c => !endsAuthority web c)
  unfold readServer at read
  generalize splitHost false (cs.takeWhile fun c => !endsAuthority web c) = parts at read inside
  obtain ⟨written, colon⟩ := parts
  have whole : ∀ c ∈ colon ++ cs.dropWhile (fun c => !endsAuthority web c), c ∈ cs := by
    refine List.forall_mem_append.mpr ⟨fun c member => ?_, fun c member => mem_dropWhile member⟩
    exact (List.takeWhile_sublist _).subset (inside c member)
  dsimp only at read
  generalize colon ++ cs.dropWhile (fun c => !endsAuthority web c) = rest at read whole
  split at read
  case isTrue => cases read
  case isFalse =>
    cases host : readHost web written with
    | error fault =>
      rw [host] at read
      cases read
    | ok name =>
      rw [host] at read
      simp only [bind, Except.bind] at read
      split at read
      case isTrue => cases read
      case isFalse =>
        split at read
        case isTrue => cases read
        case isFalse =>
          split at read
          · rename_i r _
            cases given : readPort r with
            | error fault =>
              rw [given] at read
              cases read
            | ok p =>
              rw [given] at read
              cases read
              exact fun c member => whole c (List.mem_cons_of_mem ':' (mem_readPort given c member))
          · cases read
            exact whole

theorem readAuthority_behind (web : Bool) (cs : List Char) : ∃ read : Except UrlFault Authority,
    (∀ a, read = .ok a → ∀ c ∈ a.rest, c ∈ cs) ∧
    ∀ r, readAuthority web (cs ++ '?' :: r) = read.map (·.behind r) := by
  have stop : (!endsAuthority web '?') = false := by cases web <;> rfl
  have taken := takeWhile_behind (fun c => !endsAuthority web c) stop cs
  have left := dropWhile_behind (fun c => !endsAuthority web c) stop cs
  have server : ∀ c ∈ (splitUserinfo (cs.takeWhile fun c => !endsAuthority web c)).2 ++
      cs.dropWhile (fun c => !endsAuthority web c), c ∈ cs := by
    refine List.forall_mem_append.mpr ⟨fun c member => ?_, fun c member => mem_dropWhile member⟩
    exact (List.takeWhile_sublist _).subset (mem_splitUserinfo _ c member)
  simp only [readAuthority, taken, left, ← List.append_assoc, readServer_behind]
  generalize splitUserinfo (cs.takeWhile fun c => !endsAuthority web c) = parts at server ⊢
  obtain ⟨userinfo, host⟩ := parts
  cases userinfo with
  | none => exact ⟨readServer web "" none cs, fun a read => mem_readServer read, fun r => rfl⟩
  | some userinfo =>
    cases userinfo with
    | nil =>
      by_cases none : host = []
      · refine ⟨.error .emptyHost, nofun, fun r => ?_⟩
        simp [none]
        rfl
      · refine ⟨readServer web "" .none _, fun a read c member => server c (mem_readServer read c member), fun r => ?_⟩
        simp [none]
    | cons c u =>
      refine ⟨readServer web (credentials (c :: u)).1 (credentials (c :: u)).2 _, fun a read d member => ?_, fun r => rfl⟩
      exact server d (mem_readServer read d member)

theorem parted_at_query (plain : ∀ c ∈ cs, endsPath c = false) (r : List Char) :
    (cs ++ '?' :: r).takeWhile (fun c => !endsPath c) = cs.takeWhile (fun c => !endsPath c) ∧
      (cs ++ '?' :: r).dropWhile (fun c => !endsPath c) = '?' :: r := by
  have kept : ∀ c ∈ cs, (!endsPath c) = true := fun c member => by rw [plain c member]; rfl
  rw [List.takeWhile_eq_self_iff.mpr kept]
  exact parted_at (fun c => !endsPath c) '?' r kept rfl

theorem ofAuthority_behind (scheme : String) (web : Bool) {a : Authority} (plain : ∀ c ∈ a.rest, endsPath c = false)
    (r : List Char) : ofAuthority scheme web (a.behind r) = withQuery (readQuery ('?' :: r)) (ofAuthority scheme web a) := by
  obtain ⟨path, query⟩ := parted_at_query plain r
  unfold ofAuthority withQuery Authority.behind
  dsimp only
  rw [path, query]

theorem withoutHost_behind (scheme : String) (plain : ∀ c ∈ cs, endsPath c = false) (r : List Char) :
    withoutHost scheme (cs ++ '?' :: r) = withQuery (readQuery ('?' :: r)) (withoutHost scheme cs) := by
  obtain ⟨path, query⟩ := parted_at_query plain r
  unfold withoutHost withQuery
  rw [path, query]

theorem map_authority (scheme : String) (web : Bool) (plain : ∀ c ∈ cs, endsPath c = false) :
    ∃ front : Except UrlFault Url, ∀ r, (readAuthority web (cs ++ '?' :: r)).map (ofAuthority scheme web) =
      front.map (withQuery (readQuery ('?' :: r))) := by
  obtain ⟨read, inside, behind⟩ := readAuthority_behind web cs
  refine ⟨read.map (ofAuthority scheme web), fun r => ?_⟩
  rw [behind]
  cases read with
  | error fault => rfl
  | ok a => exact congrArg Except.ok (ofAuthority_behind scheme web (fun c member => plain c (inside a rfl c member)) r)

theorem read_rest (name : String) (plain : ∀ c ∈ cs, endsPath c = false) : ∃ front : Except UrlFault Url,
    ∀ text r, splitScheme (clean text.toList) = some (name, cs ++ '?' :: r) →
      read text = front.map (withQuery (readQuery ('?' :: r))) := by
  have bare (r : List Char) := congrArg (Except.ok (ε := UrlFault)) (withoutHost_behind name plain r)
  by_cases web : isWebScheme name = true
  · have stop : ('?' == '/' || '?' == '\\') = false := rfl
    have inside : ∀ c ∈ cs.dropWhile (fun c => c == '/' || c == '\\'), endsPath c = false := fun c member =>
      plain c (mem_dropWhile member)
    obtain ⟨front, behind⟩ := map_authority name true inside
    refine ⟨front, fun text r split => ?_⟩
    rw [← behind, ← dropWhile_behind _ stop]
    simp only [read, split, if_pos web]
  · by_cases file : name = "file"
    · refine ⟨.ok (withoutHost name cs), fun text r split => ?_⟩
      simp only [read, split, if_neg web, if_pos file]
      exact bare r
    · by_cases slashes : ∃ s, cs = '/' :: '/' :: s
      · obtain ⟨s, rfl⟩ := slashes
        have inside : ∀ c ∈ s, endsPath c = false := fun c member =>
          plain c (List.mem_cons_of_mem _ (List.mem_cons_of_mem _ member))
        obtain ⟨front, behind⟩ := map_authority name false inside
        refine ⟨front, fun text r split => ?_⟩
        rw [← behind]
        simp only [read, split, if_neg web, if_neg file, List.cons_append]
      · have other (r : List Char) : ∀ s, cs ++ '?' :: r ≠ '/' :: '/' :: s := by
          intro s same
          rcases cs with _ | ⟨a, _ | ⟨b, t⟩⟩
          · cases same
          · cases same
          · cases same
            exact slashes ⟨t, rfl⟩
        refine ⟨.ok (withoutHost name cs), fun text r split => ?_⟩
        simp only [read, split, if_neg web, if_neg file]
        split
        · rename_i s same
          exact absurd same (other r s)
        · exact bare r

theorem read_behind (plain : ∀ c ∈ cs, endsPath c = false) : ∃ front : Except UrlFault Url,
    ∀ text r, clean text.toList = cs ++ '?' :: r → read text = front.map (withQuery (readQuery ('?' :: r))) := by
  cases scheme : splitScheme cs with
  | none =>
    refine ⟨.error .noScheme, fun text r cleaned => ?_⟩
    rw [read, cleaned, splitScheme_behind, scheme]
    rfl
  | some p =>
    obtain ⟨name, rest⟩ := p
    have tail : ∀ c ∈ rest, endsPath c = false := fun c member => plain c (mem_splitScheme scheme c member)
    obtain ⟨front, behind⟩ := read_rest name tail
    refine ⟨front, fun text r cleaned => behind text r ?_⟩
    rw [cleaned, splitScheme_behind, scheme]
    rfl

end

end Url

end QueryKit
