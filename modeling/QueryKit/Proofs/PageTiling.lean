import QueryKit.Proofs.LinkKeys
import QueryKit.Proofs.OrderedStatements

-- Pages of rows. The offset of a page is a product that stops at the largest count; which rows a page has does not
-- depend on that, so that pages one behind the other are all rows up to the last of them.

namespace QueryKit

-- The rows that are given of all that match: the first ones are skipped, and of the others no more than the limit come.
def limitedRows {α : Type} (limit offset : Option UInt64) (rows : List α) : List α :=
  let behind := rows.drop (offset.elim 0 UInt64.toNat)
  limit.elim behind fun count => behind.take count.toNat

def rowsBetween {α : Type} (first last : Nat) (rows : List α) : List α :=
  (rows.zipIdx.filter fun row => first ≤ row.2 ∧ row.2 < last).map Prod.fst

section
variable {α : Type}

theorem rows_numbered (first last start : Nat) (rows : List α) :
    ((rows.zipIdx start).filter fun row => first ≤ row.2 ∧ row.2 < last).map Prod.fst =
      (rows.drop (first - start)).take (last - max first start) := by
  induction rows generalizing start with
  | nil => simp
  | cons row r ih =>
    rw [List.zipIdx_cons]
    rcases Nat.lt_or_ge start first with early | reached
    · have further : first - start = first - (start + 1) + 1 := by omega
      have later : max first (start + 1) = max first start := by omega
      rw [List.filter_cons_of_neg (by simp; omega), ih, further, List.drop_succ_cons, later]
    · have begun : first - start = 0 := by omega
      have begunBehind : first - (start + 1) = 0 := by omega
      rw [begun, List.drop_zero]
      rcases Nat.lt_or_ge start last with inside | outside
      · have more : last - max first start = last - max first (start + 1) + 1 := by omega
        rw [List.filter_cons_of_pos (by simp; omega), List.map_cons, ih, begunBehind, List.drop_zero, more, List.take_succ_cons]
      · have empty : last - max first start = 0 ∧ last - max first (start + 1) = 0 := by omega
        rw [List.filter_cons_of_neg (by simp; omega), ih, empty.1, empty.2, List.take_zero, List.take_zero]

theorem rowsBetween_eq (first last : Nat) (rows : List α) :
    rowsBetween first last rows = (rows.drop first).take (last - first) := by
  simpa [rowsBetween] using rows_numbered first last 0 rows

theorem flatMap_pages (size count : Nat) (rows : List α) :
    (List.range count).flatMap (fun page => (rows.drop (page * size)).take size) = rows.take (count * size) := by
  induction count with
  | zero => simp
  | succ count ih =>
    rw [List.range_succ, List.flatMap_append, ih, Nat.succ_mul, List.take_add]
    simp

end

namespace Select

theorem toNat_saturatingMul (a b : UInt64) : (saturatingMul a b).toNat = min (a.toNat * b.toNat) (UInt64.size - 1) := by
  unfold saturatingMul
  split
  case isTrue small =>
    rw [UInt64.toNat_mul, Nat.mod_eq_of_lt small]
    omega
  case isFalse large =>
    have top : (UInt64.ofNat (UInt64.size - 1)).toNat = UInt64.size - 1 := rfl
    rw [top]
    omega

theorem toNat_pageOffset (perPage page : UInt64) :
    (pageOffset perPage page).toNat = min ((page.toNat - 1) * perPage.toNat) (UInt64.size - 1) := by
  have before : (if page = 0 then 0 else page - 1).toNat = page.toNat - 1 := by
    split
    case isTrue zero => simp [zero]
    case isFalse numbered =>
      have counted : page.toNat ≠ 0 := fun zero => numbered (UInt64.toNat_inj.mp zero)
      have one : (1 : UInt64) ≤ page := UInt64.le_iff_toNat_le.mpr (Nat.one_le_iff_ne_zero.mpr counted)
      exact UInt64.toNat_sub_of_le page 1 one
  rw [pageOffset, toNat_saturatingMul, before]

theorem drop_pageOffset {α : Type} {rows : List α} (counted : rows.length < UInt64.size) (perPage page : UInt64) :
    rows.drop (pageOffset perPage page).toNat = rows.drop ((page.toNat - 1) * perPage.toNat) := by
  rw [toNat_pageOffset]
  by_cases exact : (page.toNat - 1) * perPage.toNat ≤ UInt64.size - 1
  · rw [Nat.min_eq_left exact]
  · rw [Nat.min_eq_right (by omega), List.drop_eq_nil_of_le (by omega), List.drop_eq_nil_of_le (by omega)]

def paged (q : Select) (perPage page : UInt64) (later : List Turn) : Select := q.run (.call (.paginate perPage page) :: later)

section
variable (q : Select) (perPage page : UInt64) {later : List Turn}

theorem limits_paged (unlimited : ∀ c, Turn.call c ∈ later → c.limit? = none ∧ c.offset? = none) :
    (q.paged perPage page later).limit = some perPage ∧
      (q.paged perPage page later).offset = some (pageOffset perPage page) := by
  have kept : ((q.setPage perPage page).run later).limit = some perPage ∧
      ((q.setPage perPage page).run later).offset = some (pageOffset perPage page) := by
    refine run_keeps (p := fun q => q.limit = some perPage ∧ q.offset = some (pageOffset perPage page)) ⟨rfl, rfl⟩
      (fun q next c member applied limits => ?called) fun q filled limits => ?flushed
    case called =>
      have told := apply_settings applied
      obtain ⟨limit, offset⟩ := unlimited c member
      have sameLimit : next.limit = c.limit?.or q.limit := congrArg Settings.limit told
      have sameOffset : next.offset = c.offset?.or q.offset := congrArg Settings.offset told
      rw [sameLimit, sameOffset, limit, offset]
      exact limits
    case flushed =>
      have same := settings_flush filled
      exact ⟨(congrArg Settings.limit same).trans limits.1, (congrArg Settings.offset same).trans limits.2⟩
  exact kept

theorem limitedRows_paged {α : Type} {rows : List α} (counted : rows.length < UInt64.size)
    (unlimited : ∀ c, Turn.call c ∈ later → c.limit? = none ∧ c.offset? = none) :
    limitedRows (q.paged perPage page later).limit (q.paged perPage page later).offset rows =
      (rows.drop ((page.toNat - 1) * perPage.toNat)).take perPage.toNat := by
  obtain ⟨limit, offset⟩ := q.limits_paged perPage page unlimited
  rw [limit, offset]
  show (rows.drop (pageOffset perPage page).toNat).take perPage.toNat = _
  rw [drop_pageOffset counted]

end

end Select

-- The rows of a page are those at the positions that its number and size say, counted without a bound, as long as a
-- query is not limited anew; page zero is the first one. So the first pages one behind the other are the first rows, as
-- many as fit on them. The limit and the offset of the page are what the statement says.
theorem pages_tile (q : Select) (perPage : UInt64) {α : Type} {rows : List α} (counted : rows.length < UInt64.size)
    {later : List Select.Turn} (unlimited : ∀ c, Select.Turn.call c ∈ later → c.limit? = none ∧ c.offset? = none) :
    (∀ page, limitedRows (q.paged perPage page later).limit (q.paged perPage page later).offset rows =
      rowsBetween ((max page.toNat 1 - 1) * perPage.toNat) (max page.toNat 1 * perPage.toNat) rows) ∧
    (∀ count < UInt64.size, (List.range count).flatMap (fun page =>
        limitedRows (q.paged perPage (.ofNat (page + 1)) later).limit (q.paged perPage (.ofNat (page + 1)) later).offset rows) =
      rows.take (count * perPage.toNat)) ∧
    ∀ page text next, (q.paged perPage page later).build = (.ok text, next) →
      text = next.wrapped next.format (Outline.text { next.outline with
        limit := (q.paged perPage page later).limit
        offset := (q.paged perPage page later).offset }) := by
  refine ⟨fun page => ?rows, fun count small => ?tile, fun page text next built => ?written⟩
  case rows =>
    have size : max page.toNat 1 * perPage.toNat - (max page.toNat 1 - 1) * perPage.toNat = perPage.toNat := by
      rw [← Nat.sub_mul, Nat.sub_sub_self (Nat.le_max_right _ _), Nat.one_mul]
    have before : max page.toNat 1 - 1 = page.toNat - 1 := by omega
    rw [q.limitedRows_paged perPage page counted unlimited, rowsBetween_eq, size, before]
  case tile =>
    rw [← flatMap_pages]
    refine List.flatMap_congr fun page member => ?_
    have inside := List.mem_range.mp member
    have number : (UInt64.ofNat (page + 1)).toNat - 1 = page := by
      have fits : page + 1 < UInt64.size := Nat.lt_of_le_of_lt inside small
      rw [UInt64.toNat_ofNat_of_lt' fits, Nat.add_sub_cancel]
    rw [q.limitedRows_paged perPage _ counted unlimited, number]
  case written =>
    have settled : next.settings = (q.paged perPage page later).settings := Select.settings_of_build built
    have limit : next.limit = (q.paged perPage page later).limit := congrArg Select.Settings.limit settled
    have offset : next.offset = (q.paged perPage page later).offset := congrArg Select.Settings.offset settled
    rw [← limit, ← offset, Select.format_of_build built]
    exact Select.build_outline built

-- The second page of people, put in order after it was asked for, and the last page that there can be.
def byNameLater : List Select.Turn := [.build, .call (.order "name" .ascending)]

theorem secondPage_shown :
    limitedRows (people.paged 2 2 byNameLater).limit (people.paged 2 2 byNameLater).offset ["a", "b", "c", "d", "e"] =
      ["c", "d"] ∧
    limitedRows (people.paged (.ofNat (UInt64.size - 1)) (.ofNat (UInt64.size - 1)) byNameLater).limit
      (people.paged (.ofNat (UInt64.size - 1)) (.ofNat (UInt64.size - 1)) byNameLater).offset ["a", "b", "c", "d", "e"] = [] ∧
    (List.range 2).flatMap (fun page => limitedRows (people.paged 2 (.ofNat (page + 1)) byNameLater).limit
      (people.paged 2 (.ofNat (page + 1)) byNameLater).offset ["a", "b", "c", "d", "e"]) = ["a", "b", "c", "d"] ∧
    ∃ next, (people.paged 2 2 byNameLater).build =
        (.ok "SELECT * FROM \"person\" ORDER BY \"name\" ASC LIMIT 2 OFFSET 2", next) ∧
      "SELECT * FROM \"person\" ORDER BY \"name\" ASC LIMIT 2 OFFSET 2" =
        next.wrapped next.format (Outline.text { next.outline with limit := some 2, offset := some 2 }) := by
  have counted : ["a", "b", "c", "d", "e"].length < UInt64.size := by decide
  have unlimited : ∀ c, Select.Turn.call c ∈ byNameLater → c.limit? = none ∧ c.offset? = none := by
    intro c member
    have only : c = .order "name" .ascending := by simpa [byNameLater] using member
    exact only ▸ ⟨rfl, rfl⟩
  obtain ⟨rows, tile, written⟩ := pages_tile people 2 counted unlimited
  obtain ⟨last, _⟩ := pages_tile people (.ofNat (UInt64.size - 1)) counted unlimited
  have text : (people.paged 2 2 byNameLater).build.1.toOption =
      some "SELECT * FROM \"person\" ORDER BY \"name\" ASC LIMIT 2 OFFSET 2" := by decide +kernel
  have built : (people.paged 2 2 byNameLater).build =
      (.ok "SELECT * FROM \"person\" ORDER BY \"name\" ASC LIMIT 2 OFFSET 2", (people.paged 2 2 byNameLater).build.2) :=
    Prod.ext (Select.ok_of_toOption text) rfl
  refine ⟨rows 2, ?_, tile 2 (by decide), _, built, written 2 _ _ built⟩
  rw [last]
  decide +kernel

end QueryKit
