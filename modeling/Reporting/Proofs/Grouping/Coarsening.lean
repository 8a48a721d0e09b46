import Reporting.Proofs.Grouping.Partition

/-!
# Coarse and fine groupings

Grouping by more paths splits groups.  A fine key starts with the texts of the coarse one
(`firstTexts_key`), so every fine group lies in one coarse group, and since both come in the order
in which they are first seen, the coarse groups are found again by looking at the fine rows alone.

What is counted or added up in a coarse group is the sum of what is counted or added up in its fine
groups (`sum_members`).  The cells say so as far as the numbers are exact: counts up to `2 ^ 53`,
and totals of whole numbers whose sizes add up to at most `2 ^ 53`.  `Grouping.rows_append` puts
these together.
-/

namespace Reporting

namespace Row

/-- The texts that a row shows under some keys. -/
def textsAt (keys : List String) (row : Row) : List (Option String) :=
  keys.map fun key => (row.get? key).bind Json.str?

/-- The number in a cell, counted in units. -/
def amount? (key : String) (row : Row) : Option Int :=
  ((row.get? key).bind Json.numberView).map Binary64.value

/-- There are numbers in the cells under a key, and the one of a row is the sum of those of other
rows. -/
def AddsUp (key : String) (row : Row) (parts : List Row) : Prop :=
  ∃ amounts : List Int,
    parts.map (amount? key) = amounts.map some ∧ row.amount? key = some amounts.sum

end Row

namespace Grouping

/-- The records with the texts at some paths that a row shows. -/
def groupOf (paths : List String) (records : List Json) (row : Row) : List Json :=
  records.filter fun record => (texts paths record).map some = row.textsAt paths

/-- How many of some records have the texts at some paths that a row shows. -/
def size (paths : List String) (records : List Json) (row : Row) : Nat :=
  records.countP fun record => (texts paths record).map some = row.textsAt paths

/-- A row of a coarse grouping counts the records with its texts, and so do the rows of a finer
grouping that have these texts; no record is lost and none is counted twice.  As long as numbers
are exact the cells add up. -/
structure CountsUp (coarse fine : List String) (records : List Json) (label : String) (row : Row)
    (parts : List Row) : Prop where
  count : row.get? label = some (.ofExtended (.ofNat (size coarse records row)))
  counts : ∀ part ∈ parts, part.get? label = some (.ofExtended (.ofNat (size fine records part)))
  total : size coarse records row = (parts.map (size fine records)).sum
  cells : records.length ≤ powTwo 53 → row.AddsUp label parts

section Rows

variable (grouping : Grouping) {paths : List String}

/-- A row shows the texts of every record of its group. -/
theorem textsAt_row (hpaths : ∀ path ∈ paths, path ∈ grouping.groupBy)
    (hlabels : ∀ agg ∈ grouping.aggregations, agg.label ∉ paths) (record : Json)
    (accs : List Accumulator) :
    (grouping.row (key grouping.groupBy record, accs)).textsAt paths
      = (texts paths record).map some := by
  unfold Row.textsAt texts
  rw [List.map_map]
  refine List.map_congr_left fun path hpath => ?_
  rw [get?_row_path (hpaths path hpath) fun agg hagg hsame => hlabels agg hagg (hsame ▸ hpath)]
  rfl

/-- The records with the texts of a row are those that the row was made of. -/
theorem groupOf_rowFor (hgroupBy : grouping.groupBy ≠ [])
    (hlabels : ∀ agg ∈ grouping.aggregations, agg.label ∉ grouping.groupBy) {records : List Json}
    {k : String} (hk : k ∈ keys grouping.groupBy records) :
    groupOf grouping.groupBy records (grouping.rowFor records k)
      = members grouping.groupBy k records := by
  obtain ⟨record, _, rfl⟩ := mem_keys.mp hk
  unfold groupOf members rowFor
  rw [textsAt_row grouping (fun _ hpath => hpath) hlabels]
  apply List.filter_congr
  intro other _
  exact decide_eq_decide.mpr ((Option.some_injective String).list_map.eq_iff.trans
    (key_eq_key_iff hgroupBy other record).symm)

/-- As many records have the texts of a row as there are in its group. -/
theorem size_rowFor (hgroupBy : grouping.groupBy ≠ [])
    (hlabels : ∀ agg ∈ grouping.aggregations, agg.label ∉ grouping.groupBy) {records : List Json}
    {k : String} (hk : k ∈ keys grouping.groupBy records) :
    size grouping.groupBy records (grouping.rowFor records k)
      = (members grouping.groupBy k records).length := by
  rw [← groupOf_rowFor grouping hgroupBy hlabels hk, size, List.countP_eq_length_filter, groupOf]

section Label

variable {records : List Json} (hlabels : (grouping.aggregations.map Aggregation.label).Nodup)
  {agg : Aggregation} (hagg : agg ∈ grouping.aggregations) (hlabel : agg.label ∉ grouping.groupBy)
include hlabels hagg hlabel

/-- Under the label of a count stands the number of the records of the group. -/
theorem get?_rowFor_count (hcount : agg.function = .count) (k : String) :
    (grouping.rowFor records k).get? agg.label
      = some (.ofExtended (.ofNat (members grouping.groupBy k records).length)) := by
  have hcell := get?_row_label hlabels hagg hlabel k (members grouping.groupBy k records)
  rw [hcount, Accumulator.compute, Accumulator.count_ofList, List.length_map] at hcell
  exact hcell

/-- A count of up to `2 ^ 53` records is a sum of ones. -/
theorem amount?_rowFor_count (hcount : agg.function = .count)
    (hlength : records.length ≤ powTwo 53) (k : String) :
    (grouping.rowFor records k).amount? agg.label
      = some ((members grouping.groupBy k records).map fun _ => (Binary64.one : Int)).sum := by
  have hmembers : (members grouping.groupBy k records).length ≤ powTwo 53 :=
    (List.length_filter_le _ _).trans hlength
  obtain ⟨z, hz, hvalue⟩ := Extended.ofNat_whole hmembers
  obtain ⟨y, hy, hsame⟩ := Json.numberView_ofExtended z
  unfold Row.amount?
  rw [get?_rowFor_count grouping hlabels hagg hlabel hcount, hz, Option.bind_some, hy,
    Option.map_some, hsame, hvalue]
  simp

/-- A total of whole numbers within the bound is the sum of the numbers. -/
theorem amount?_rowFor_sum (hsum : agg.function = .sum) (hwhole : WholeWithin agg.field records)
    (k : String) :
    (grouping.rowFor records k).amount? agg.label
      = some ((members grouping.groupBy k records).map (Json.amountAt agg.field)).sum := by
  have hpart : (members grouping.groupBy k records).Sublist records := List.filter_sublist
  obtain ⟨z, hz, hvalue⟩ := Accumulator.sum_ofList_of_wholeWithin (hwhole.sublist hpart)
  obtain ⟨y, hy, hsame⟩ := Json.numberView_ofExtended z
  have hcell := get?_row_label hlabels hagg hlabel k (members grouping.groupBy k records)
  rw [hsum, Accumulator.compute, hz] at hcell
  unfold Row.amount? rowFor
  rw [hcell, Option.bind_some, hy, Option.map_some, hsame, hvalue]

end Label

end Rows

section Coarsening

variable {g h : List String}

/-- The texts that a key starts with, as many as there are coarse paths. -/
def firstTexts (g : List String) (key : String) : List (Option String) :=
  ((parts key).take g.length).map some

/-- A fine key starts with the texts of the coarse paths. -/
theorem firstTexts_key (hg : g ≠ []) (h : List String) (record : Json) :
    firstTexts g (key (g ++ h) record) = (texts g record).map some := by
  have hlength : g.length = (texts g record).length := (List.length_map _).symm
  unfold firstTexts
  rw [parts_key (List.append_ne_nil_of_left_ne_nil hg h), texts, List.map_append]
  exact congrArg (List.map some) (List.take_left' hlength.symm)

/-- Fine keys that start with the same texts belong to one coarse key. -/
theorem firstTexts_eq_iff (hg : g ≠ []) (h : List String) (a b : Json) :
    firstTexts g (key (g ++ h) a) = (texts g b).map some ↔ key g a = key g b := by
  rw [firstTexts_key hg, key_eq_key_iff hg, (Option.some_injective String).list_map.eq_iff]

/-- **A sum over a coarse group is the sum of the sums over its fine groups.** -/
theorem sum_members {M : Type} [AddCommMonoid M] (weight : Json → M) (hg : g ≠ [])
    (h : List String) (records : List Json) (record : Json) :
    (((keys (g ++ h) records).filter fun k => firstTexts g k = (texts g record).map some).map
        fun k => ((members (g ++ h) k records).map weight).sum).sum
      = ((members g (key g record) records).map weight).sum := by
  refine (Distinct.sum_map_classes_filter (key (g ++ h)) weight _ records).trans ?_
  refine congrArg (fun kept => (kept.map weight).sum) (List.filter_congr fun other _ => ?_)
  exact decide_eq_decide.mpr (firstTexts_eq_iff hg h other record)

variable {aggregations : List Aggregation} {records : List Json}

/-- The coarse texts of the fine rows are what the fine keys start with. -/
theorem map_textsAt_rows (hg : g ≠ []) (hlabels : ∀ agg ∈ aggregations, agg.label ∉ g) :
    ((⟨g ++ h, aggregations⟩ : Grouping).rows records).map (Row.textsAt g)
      = (keys (g ++ h) records).map (firstTexts g) := by
  rw [rows_eq, List.map_map]
  refine List.map_congr_left fun k hk => ?_
  obtain ⟨record, _, rfl⟩ := mem_keys.mp hk
  rw [firstTexts_key hg]
  exact textsAt_row _ (fun path hpath => List.mem_append_left h hpath) hlabels record _

/-- The fine rows show the texts of the records, as far as they are distinct. -/
theorem eraseDups_map_textsAt_rows (hg : g ≠ []) (hlabels : ∀ agg ∈ aggregations, agg.label ∉ g) :
    (((⟨g ++ h, aggregations⟩ : Grouping).rows records).map (Row.textsAt g)).eraseDups
      = (records.map fun record => (texts g record).map some).eraseDups := by
  rw [map_textsAt_rows hg hlabels, keys, Distinct.eraseDups_map_eraseDups, List.map_map]
  exact congrArg List.eraseDups (List.map_congr_left fun record _ => firstTexts_key hg h record)

/-- The coarse rows show the texts of the records, each list of texts once. -/
theorem map_textsAt_rows_self (hg : g ≠ []) (hlabels : ∀ agg ∈ aggregations, agg.label ∉ g) :
    ((⟨g, aggregations⟩ : Grouping).rows records).map (Row.textsAt g)
      = (records.map fun record => (texts g record).map some).eraseDups := by
  -- No two coarse keys show the same texts, so the rows need not be made distinct.
  have hinjective : Function.Injective fun key => (parts key).map some :=
    (Option.some_injective String).list_map.comp parts_injective
  have hrows : ((⟨g, aggregations⟩ : Grouping).rows records).map (Row.textsAt g)
      = (keys g records).map fun key => (parts key).map some := by
    rw [rows_eq, List.map_map]
    refine List.map_congr_left fun k hk => ?_
    obtain ⟨record, _, rfl⟩ := mem_keys.mp hk
    rw [parts_key hg]
    exact textsAt_row _ (fun _ hpath => hpath) hlabels record _
  rw [hrows, keys, ← Distinct.eraseDups_map_of_injective hinjective, List.map_map]
  exact congrArg List.eraseDups
    (List.map_congr_left fun record _ => congrArg (List.map some) (parts_key hg record))

/-- The fine rows with the texts of a coarse row are those whose keys start with them. -/
theorem filter_textsAt_rows (hg : g ≠ []) (hlabels : ∀ agg ∈ aggregations, agg.label ∉ g)
    (coarseTexts : List (Option String)) :
    ((⟨g ++ h, aggregations⟩ : Grouping).rows records).filter
        (fun part => part.textsAt g = coarseTexts)
      = ((keys (g ++ h) records).filter fun k => firstTexts g k = coarseTexts).map
          ((⟨g ++ h, aggregations⟩ : Grouping).rowFor records) := by
  rw [rows_eq, List.filter_map]
  refine congrArg (List.map _) (List.filter_congr fun k hk => ?_)
  obtain ⟨record, _, rfl⟩ := mem_keys.mp hk
  have htexts := textsAt_row ⟨g ++ h, aggregations⟩
    (fun path hpath => List.mem_append_left h hpath) hlabels record
    (accumulate aggregations (members (g ++ h) (key (g ++ h) record) records))
  exact decide_eq_decide.mpr (by rw [firstTexts_key hg, ← htexts]; rfl)

/-- Cells that sum up some weight of their records add up. -/
theorem addsUp_of_weight (hg : g ≠ []) (hlabels : ∀ agg ∈ aggregations, agg.label ∉ g)
    {label : String} {weight : Json → Int} {record : Json}
    (hcoarse : ((⟨g, aggregations⟩ : Grouping).rowFor records (key g record)).amount? label
      = some ((members g (key g record) records).map weight).sum)
    (hfine : ∀ k, ((⟨g ++ h, aggregations⟩ : Grouping).rowFor records k).amount? label
      = some ((members (g ++ h) k records).map weight).sum) :
    ((⟨g, aggregations⟩ : Grouping).rowFor records (key g record)).AddsUp label
      (((⟨g ++ h, aggregations⟩ : Grouping).rows records).filter fun part =>
        part.textsAt g = (texts g record).map some) := by
  rw [filter_textsAt_rows hg hlabels]
  refine ⟨((keys (g ++ h) records).filter fun k => firstTexts g k = (texts g record).map some).map
    fun k => ((members (g ++ h) k records).map weight).sum, ?_, ?_⟩
  · rw [List.map_map, List.map_map]
    exact List.map_congr_left fun k _ => hfine k
  · rw [hcoarse, sum_members weight hg]

/-- A coarse count is the sum of the fine ones. -/
theorem countsUp_rowFor (hg : g ≠ []) (hnodup : (aggregations.map Aggregation.label).Nodup)
    (hlabels : ∀ agg ∈ aggregations, agg.label ∉ g ++ h) {agg : Aggregation}
    (hagg : agg ∈ aggregations) (hcount : agg.function = .count) {record : Json}
    (hrecord : record ∈ records) :
    CountsUp g (g ++ h) records agg.label
      ((⟨g, aggregations⟩ : Grouping).rowFor records (key g record))
      (((⟨g ++ h, aggregations⟩ : Grouping).rows records).filter fun part =>
        part.textsAt g = (texts g record).map some) := by
  have hcoarseLabels : ∀ agg ∈ aggregations, agg.label ∉ g :=
    fun agg hagg hpath => hlabels agg hagg (List.mem_append_left h hpath)
  have hfine : g ++ h ≠ [] := List.append_ne_nil_of_left_ne_nil hg h
  have hkey : key g record ∈ keys g records := mem_keys.mpr ⟨record, hrecord, rfl⟩
  have hsize : size g records ((⟨g, aggregations⟩ : Grouping).rowFor records (key g record))
      = (members g (key g record) records).length :=
    size_rowFor ⟨g, aggregations⟩ hg hcoarseLabels hkey
  have hsizes : ∀ k ∈ keys (g ++ h) records,
      size (g ++ h) records ((⟨g ++ h, aggregations⟩ : Grouping).rowFor records k)
        = (members (g ++ h) k records).length :=
    fun k hk => size_rowFor ⟨g ++ h, aggregations⟩ hfine hlabels hk
  constructor
  case count =>
    rw [hsize]
    exact get?_rowFor_count ⟨g, aggregations⟩ hnodup hagg (hcoarseLabels agg hagg) hcount _
  case counts =>
    intro part hpart
    rw [filter_textsAt_rows hg hcoarseLabels] at hpart
    obtain ⟨k, hk, rfl⟩ := List.mem_map.mp hpart
    rw [hsizes k (List.mem_filter.mp hk).1]
    exact get?_rowFor_count ⟨g ++ h, aggregations⟩ hnodup hagg (hlabels agg hagg) hcount _
  case total =>
    -- If every record weighs one, the sum over a group is the number of its members.
    have hones := sum_members (fun _ => 1) hg h records record
    simp only [List.map_const', List.sum_replicate_nat, Nat.mul_one] at hones
    rw [hsize, ← hones, filter_textsAt_rows hg hcoarseLabels, List.map_map]
    exact congrArg List.sum
      (List.map_congr_left fun k hk => (hsizes k (List.mem_filter.mp hk).1).symm)
  case cells =>
    intro hlength
    exact addsUp_of_weight hg hcoarseLabels
      (amount?_rowFor_count ⟨g, aggregations⟩ hnodup hagg (hcoarseLabels agg hagg) hcount
        hlength _)
      (amount?_rowFor_count ⟨g ++ h, aggregations⟩ hnodup hagg (hlabels agg hagg) hcount hlength)

/-- **Coarse and fine groupings are consistent.**  Let the labels of some aggregations be distinct
and different from all paths.  The rows of a grouping by `g` show, in order, the distinct texts
under `g` among the rows of the grouping by `g ++ h`, as they first occur there.  The count of a
coarse row is that of the fine rows with its texts together; and if the numbers at an aggregated
path are whole and their sizes add up to at most `2 ^ 53`, its total is the sum of their totals. -/
theorem rows_append (hg : g ≠ []) (hnodup : (aggregations.map Aggregation.label).Nodup)
    (hlabels : ∀ agg ∈ aggregations, agg.label ∉ g ++ h) (records : List Json) :
    let coarse := (⟨g, aggregations⟩ : Grouping).rows records
    let fine := (⟨g ++ h, aggregations⟩ : Grouping).rows records
    coarse.map (Row.textsAt g) = (fine.map (Row.textsAt g)).eraseDups ∧
      ∀ row ∈ coarse,
        let parts := fine.filter fun part => part.textsAt g = row.textsAt g
        none ∉ row.textsAt g ∧
          ∀ agg ∈ aggregations,
            (agg.function = .count → CountsUp g (g ++ h) records agg.label row parts) ∧
            (agg.function = .sum → WholeWithin agg.field records → row.AddsUp agg.label parts) := by
  intro coarse fine
  have hcoarseLabels : ∀ agg ∈ aggregations, agg.label ∉ g :=
    fun agg hagg hpath => hlabels agg hagg (List.mem_append_left h hpath)
  refine ⟨?_, fun row hrow => ?_⟩
  · rw [map_textsAt_rows_self hg hcoarseLabels]
    exact (eraseDups_map_textsAt_rows hg hcoarseLabels).symm
  have hkey : row ∈ (keys g records).map ((⟨g, aggregations⟩ : Grouping).rowFor records) := by
    rw [← rows_eq]
    exact hrow
  obtain ⟨k, hk, rfl⟩ := List.mem_map.mp hkey
  obtain ⟨record, hrecord, rfl⟩ := mem_keys.mp hk
  have htexts : ((⟨g, aggregations⟩ : Grouping).rowFor records (key g record)).textsAt g
      = (texts g record).map some :=
    textsAt_row ⟨g, aggregations⟩ (fun _ hpath => hpath) hcoarseLabels record _
  intro parts
  refine ⟨by simp [htexts], fun agg hagg => ⟨fun hcount => ?_, fun hsum hwhole => ?_⟩⟩
  · simp only [parts, htexts]
    exact countsUp_rowFor hg hnodup hlabels hagg hcount hrecord
  · simp only [parts, htexts]
    exact addsUp_of_weight hg hcoarseLabels
      (amount?_rowFor_sum ⟨g, aggregations⟩ hnodup hagg (hcoarseLabels agg hagg) hsum
        hwhole _)
      (amount?_rowFor_sum ⟨g ++ h, aggregations⟩ hnodup hagg (hlabels agg hagg) hsum hwhole)

/-- The theorem at deals of two cities, some of them without a price. -/
theorem rows_append_deals_by_city_and_stage :
    let deal (city stage : String) (price : Json) : Json :=
      .obj [("city", .str city), ("price", price), ("stage", .str stage)]
    let records :=
      [deal "Dubai" "won" (.ofNat 5), deal "Sharjah" "won" (.ofNat 7),
        deal "Dubai" "lost" (.str "unknown"), deal "Dubai" "won" .null]
    let aggregations : List Aggregation := [⟨"price", .count, "n"⟩, ⟨"price", .sum, "total"⟩]
    let coarse := (⟨["city"], aggregations⟩ : Grouping).rows records
    let fine := (⟨["city"] ++ ["stage"], aggregations⟩ : Grouping).rows records
    ["city"] ≠ [] ∧ (aggregations.map Aggregation.label).Nodup ∧
      (∀ agg ∈ aggregations, agg.label ∉ ["city"] ++ ["stage"]) ∧
      WholeWithin "price" records ∧
      coarse.map (Row.textsAt ["city"]) = (fine.map (Row.textsAt ["city"])).eraseDups ∧
      ∀ row ∈ coarse,
        let parts := fine.filter fun part => part.textsAt ["city"] = row.textsAt ["city"]
        none ∉ row.textsAt ["city"] ∧
          CountsUp ["city"] (["city"] ++ ["stage"]) records "n" row parts ∧
          row.AddsUp "total" parts := by
  intro deal records aggregations coarse fine
  have hg : ["city"] ≠ [] := List.cons_ne_nil _ _
  have hnodup : (aggregations.map Aggregation.label).Nodup := by decide
  have hlabels : ∀ agg ∈ aggregations, agg.label ∉ ["city"] ++ ["stage"] := by decide
  have hfive : (Json.resolve? (deal "Dubai" "won" (.ofNat 5)) "price").bind Json.numberView
      = some (.ofInt 5 (by decide)) := rfl
  have hseven : (Json.resolve? (deal "Sharjah" "won" (.ofNat 7)) "price").bind Json.numberView
      = some (.ofInt 7 (by decide)) := rfl
  have hunknown : (Json.resolve? (deal "Dubai" "lost" (.str "unknown")) "price").bind
      Json.numberView = none := rfl
  have hnull : (Json.resolve? (deal "Dubai" "won" .null) "price").bind Json.numberView
      = none := rfl
  have hwhole : WholeWithin "price" records := by
    constructor
    · intro record hrecord x hx
      simp only [records, List.mem_cons, List.not_mem_nil, or_false] at hrecord
      rcases hrecord with rfl | rfl | rfl | rfl
      · obtain rfl := Option.some.inj (hfive.symm.trans hx)
        exact Binary64.isWhole_ofInt _ (by decide)
      · obtain rfl := Option.some.inj (hseven.symm.trans hx)
        exact Binary64.isWhole_ofInt _ (by decide)
      · exact absurd (hunknown.symm.trans hx) (Option.some_ne_none x).symm
      · exact absurd (hnull.symm.trans hx) (Option.some_ne_none x).symm
    · have hpow : powTwo 53 = 9007199254740992 := rfl
      simp only [hpow, records, List.map_cons, List.map_nil, List.sum_cons, List.sum_nil,
        Json.amountAt, hfive, hseven, hunknown, hnull, Option.elim_some, Option.elim_none,
        Binary64.value_ofInt (n := 5) _ (by decide), Binary64.value_ofInt (n := 7) _ (by decide)]
      omega
  obtain ⟨htexts, hrows⟩ := rows_append hg hnodup hlabels records
  refine ⟨hg, hnodup, hlabels, hwhole, htexts, fun row hrow => ?_⟩
  obtain ⟨hshown, haggregations⟩ := hrows row hrow
  have hcount := (haggregations ⟨"price", .count, "n"⟩ List.mem_cons_self).1 rfl
  have htotal := (haggregations ⟨"price", .sum, "total"⟩
    (List.mem_cons_of_mem _ List.mem_cons_self)).2 rfl hwhole
  exact ⟨hshown, hcount, htotal⟩

end Coarsening

end Grouping

end Reporting
