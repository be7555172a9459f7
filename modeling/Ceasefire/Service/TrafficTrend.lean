/-
# The traffic trend: `service/src/network_history/manager.rs`, `get_traffic_trend`

The points are made before the query, one for each of the last `num_points` buckets, and a bucket
that the query finds and that has no point is dropped.  The query's window slides with the clock and
the buckets stand still, so that the window can begin in a bucket before the first point.

`trendExact_iff_settled` says exactly when the points add up to the totals of the window, and
`trendCovered_iff` for which times and hours no row can be dropped.
-/

import Ceasefire.Lib.Buckets
import Ceasefire.Service.Columns
import Mathlib.Algebra.Order.Ring.Int
import Mathlib.Tactic.Ring

namespace Ceasefire
namespace Service

/-! ## The rows of the window -/

/-- A row of `network_history`.  Its time is in nanoseconds since 1970: the texts of UTC times sort
as the times do.  The byte counters are `INTEGER` columns, written from a `u64`. -/
structure TrendRow where
  timestamp : ℕ
  bytesSent : U64
  bytesReceived : U64
  deriving DecidableEq, Repr

namespace TrendRow

/-- `strftime('%s', timestamp)`. -/
def seconds (row : TrendRow) : ℕ := row.timestamp / 10 ^ 9

/-- The columns, as SQLite has them. -/
def sent (row : TrendRow) : ℤ := row.bytesSent.toInt

def received (row : TrendRow) : ℤ := row.bytesReceived.toInt

/-- `(strftime('%s', timestamp) / ?2) * ?2`. -/
def bucket (interval : ℕ) (row : TrendRow) : ℤ := (row.seconds / interval * interval : ℕ)

end TrendRow

/-- `history_cutoff_rfc3339`. -/
def historyCutoff (now hours : ℕ) : ℤ := now - hours * 3600 * 10 ^ 9

/-- `WHERE timestamp >= ?1`. -/
def trendWindow (now hours : ℕ) (rows : List TrendRow) : List TrendRow :=
  rows.filter fun row => decide (historyCutoff now hours ≤ row.timestamp)

/-- An `INTEGER` value. -/
def FitsI64 (n : ℤ) : Prop := -2 ^ 63 ≤ n ∧ n < 2 ^ 63

instance (n : ℤ) : Decidable (FitsI64 n) := inferInstanceAs (Decidable (_ ∧ _))

/-- A step of `SUM`: an overflow is an error. -/
def sqlAdd (acc n : ℤ) : Option ℤ := if FitsI64 (acc + n) then some (acc + n) else none

/-- `SUM`, in the order of the rows. -/
def sqlSum (values : List ℤ) : Option ℤ := values.foldlM sqlAdd 0

/-- `get_history_traffic_totals`. -/
def getHistoryTrafficTotals (now hours : ℕ) (rows : List TrendRow) : Option (U64 × U64) := do
  let found := trendWindow now hours rows
  let sent ← sqlSum (found.map TrendRow.sent)
  let received ← sqlSum (found.map TrendRow.received)
  some (BitVec.ofInt 64 sent, BitVec.ofInt 64 received)

/-! ## The trend -/

/-- A row of the grouped query. -/
structure TrendBucket where
  bucket : ℤ
  sent : ℤ
  received : ℤ
  count : ℕ
  deriving DecidableEq, Repr

/-- `aggregate_trend_buckets`. -/
def aggregateTrendBuckets (now hours interval : ℕ) (rows : List TrendRow) :
    Option (List TrendBucket) :=
  let found := trendWindow now hours rows
  (found.map (TrendRow.bucket interval)).dedup.mapM fun bucket => do
    let rows := Lib.group (TrendRow.bucket interval) found bucket
    let sent ← sqlSum (rows.map TrendRow.sent)
    let received ← sqlSum (rows.map TrendRow.received)
    some ⟨bucket, sent, received, rows.length⟩

/-- `TrafficTrendPoint`, with its time in seconds. -/
structure TrafficTrendPoint where
  timestamp : ℤ
  bytesSent : U64
  bytesReceived : U64
  connectionCount : U32
  deriving DecidableEq, Repr

/-- `interval_minutes` and `num_points`. -/
def trendTier (hours : ℕ) : ℕ × ℕ :=
  if hours ≤ 1 then (5, 12)
  else if hours ≤ 6 then (15, 24)
  else if hours ≤ 24 then (60, 24)
  else if hours ≤ 168 then (360, 28)
  else (1440, 30)

/-- `interval_seconds`. -/
def intervalSeconds (hours : ℕ) : ℕ := (trendTier hours).1 * 60

/-- `bucket_timestamp`, of the time so many buckets before the last. -/
def bucketTimestamp (now interval back : ℕ) : ℤ :=
  ((now / 10 ^ 9 : ℕ) - back * interval : ℤ).tdiv interval * interval

/-- The keys of `trend_map`, in order. -/
def trendBuckets (now hours : ℕ) : List ℤ :=
  ((List.range (trendTier hours).2).map fun i =>
    bucketTimestamp now (intervalSeconds hours) ((trendTier hours).2 - i - 1)).dedup

/-- `u64::saturating_add`. -/
def saturatingAdd (a b : U64) : U64 :=
  if a.toNat + b.toNat < 2 ^ 64 then a + b else BitVec.allOnes 64

namespace TrafficTrendPoint

/-- The point that `trend_map` begins with. -/
def empty (bucket : ℤ) : TrafficTrendPoint := ⟨bucket, 0, 0, 0⟩

/-- What the loop adds to the point of a bucket. -/
def add (p : TrafficTrendPoint) (g : TrendBucket) : TrafficTrendPoint :=
  { p with
    bytesSent := saturatingAdd p.bytesSent (BitVec.ofInt 64 g.sent)
    bytesReceived := saturatingAdd p.bytesReceived (BitVec.ofInt 64 g.received)
    connectionCount := p.connectionCount + BitVec.ofNat 32 g.count }

/-- `if let Some(trend) = trend_map.get_mut(&bucket_timestamp)`, for one point. -/
def addTo (p : TrafficTrendPoint) (g : TrendBucket) : TrafficTrendPoint :=
  if p.timestamp = g.bucket then p.add g else p

end TrafficTrendPoint

/-- `get_traffic_trend`. -/
def getTrafficTrend (now hours : ℕ) (rows : List TrendRow) : Option (List TrafficTrendPoint) := do
  let trendMap := (trendBuckets now hours).map TrafficTrendPoint.empty
  let buckets ← aggregateTrendBuckets now hours (intervalSeconds hours) rows
  some (buckets.foldl (fun points g => points.map fun p => p.addTo g) trendMap)

/-! ## What the trend is for -/

/-- A point is about the rows from its time to the next bucket. -/
def PointExact (interval : ℕ) (found : List TrendRow) (p : TrafficTrendPoint) : Prop :=
  let rows := found.filter fun row =>
    decide (p.timestamp ≤ row.seconds ∧ row.seconds < p.timestamp + interval)
  p.connectionCount.toNat = rows.length ∧
    p.bytesSent = BitVec.ofInt 64 (rows.map TrendRow.sent).sum ∧
    p.bytesReceived = BitVec.ofInt 64 (rows.map TrendRow.received).sum

/-- Both queries succeed, the points add up to the totals of the window, and each is right.  The
queries go through the rows in an order each. -/
def TrendExact (now hours : ℕ) (rows rows' : List TrendRow) : Prop :=
  ∃ points totals, getTrafficTrend now hours rows = some points ∧
    getHistoryTrafficTotals now hours rows' = some totals ∧
    (points.map fun p => p.bytesSent.toNat).sum = totals.1.toNat ∧
    (points.map fun p => p.bytesReceived.toNat).sum = totals.2.toNat ∧
    (points.map fun p => p.connectionCount.toNat).sum = (trendWindow now hours rows).length ∧
    ∀ p ∈ points, PointExact (intervalSeconds hours) (trendWindow now hours rows) p

/-- The start of the first bucket with a point. -/
def firstBucket (now hours : ℕ) : ℤ :=
  ((now / 10 ^ 9 / intervalSeconds hours : ℕ) - ((trendTier hours).2 - 1 : ℕ) : ℤ) *
    intervalSeconds hours

/-- No row of the window is before the first bucket. -/
def TrendCovered (now hours : ℕ) (rows : List TrendRow) : Prop :=
  ∀ row ∈ trendWindow now hours rows, firstBucket now hours ≤ row.seconds

/-! ## The sums -/

theorem sqlAdd_eq_some {acc n s : ℤ} : sqlAdd acc n = some s ↔ FitsI64 s ∧ s = acc + n := by
  unfold sqlAdd
  split_ifs with h
  · rw [Option.some.injEq]
    exact ⟨fun hs => ⟨hs ▸ h, hs.symm⟩, fun hs => hs.2.symm⟩
  · refine iff_of_false (by simp) ?_
    rintro ⟨hs, rfl⟩
    exact h hs

theorem foldlM_sqlAdd {values : List ℤ} {acc s : ℤ} (hacc : FitsI64 acc)
    (h : values.foldlM sqlAdd acc = some s) : s = acc + values.sum ∧ FitsI64 s := by
  induction values generalizing acc with
  | nil =>
      obtain rfl : acc = s := Option.some.inj h
      exact ⟨by simp, hacc⟩
  | cons n values ih =>
      rw [List.foldlM_cons] at h
      obtain ⟨acc', hacc', hrest⟩ := Option.bind_eq_some_iff.1 h
      obtain ⟨hfits, rfl⟩ := sqlAdd_eq_some.1 hacc'
      obtain ⟨hs, hs'⟩ := ih hfits hrest
      refine ⟨?_, hs'⟩
      rw [hs, List.sum_cons]
      omega

/-- **A `SUM` that is no error is the sum.** -/
theorem sqlSum_eq_some {values : List ℤ} {s : ℤ} (h : sqlSum values = some s) :
    s = values.sum ∧ FitsI64 s := by
  have hsum := foldlM_sqlAdd (by decide) h
  rwa [zero_add] at hsum

theorem sqlSum_of_isSome {values : List ℤ} (h : (sqlSum values).isSome) :
    sqlSum values = some values.sum ∧ FitsI64 values.sum := by
  obtain ⟨s, hs⟩ := Option.isSome_iff_exists.1 h
  obtain ⟨rfl, hfits⟩ := sqlSum_eq_some hs
  exact ⟨hs, hfits⟩

/-! ## The points -/

/-- The rows of a bucket. -/
def bucketRows (interval : ℕ) (found : List TrendRow) (b : ℤ) : List TrendRow :=
  Lib.group (TrendRow.bucket interval) found b

/-- No `SUM` of the grouped query overflows. -/
def SumsFit (interval : ℕ) (found : List TrendRow) : Prop :=
  ∀ b ∈ (found.map (TrendRow.bucket interval)).dedup,
    (sqlSum ((bucketRows interval found b).map TrendRow.sent)).isSome ∧
      (sqlSum ((bucketRows interval found b).map TrendRow.received)).isSome

/-- The row of the grouped query. -/
def bucketTotals (interval : ℕ) (found : List TrendRow) (b : ℤ) : TrendBucket :=
  ⟨b, ((bucketRows interval found b).map TrendRow.sent).sum,
    ((bucketRows interval found b).map TrendRow.received).sum,
    (bucketRows interval found b).length⟩

/-- The point of a bucket. -/
def bucketPoint (interval : ℕ) (found : List TrendRow) (b : ℤ) : TrafficTrendPoint :=
  ⟨b, BitVec.ofInt 64 ((bucketRows interval found b).map TrendRow.sent).sum,
    BitVec.ofInt 64 ((bucketRows interval found b).map TrendRow.received).sum,
    BitVec.ofNat 32 (bucketRows interval found b).length⟩

variable {now hours interval : ℕ} {rows rows' found : List TrendRow}

theorem aggregateTrendBuckets_eq_some {buckets : List TrendBucket} :
    aggregateTrendBuckets now hours interval rows = some buckets ↔
      SumsFit interval (trendWindow now hours rows) ∧
        buckets = ((trendWindow now hours rows).map (TrendRow.bucket interval)).dedup.map
          (bucketTotals interval (trendWindow now hours rows)) := by
  set found := trendWindow now hours rows with hfound
  set keys := (found.map (TrendRow.bucket interval)).dedup with hkeys
  set f : ℤ → Option TrendBucket := fun b => do
    let sent ← sqlSum ((bucketRows interval found b).map TrendRow.sent)
    let received ← sqlSum ((bucketRows interval found b).map TrendRow.received)
    some ⟨b, sent, received, (bucketRows interval found b).length⟩ with hf
  have hquery : aggregateTrendBuckets now hours interval rows = keys.mapM f := rfl
  have hrow : ∀ b, (sqlSum ((bucketRows interval found b).map TrendRow.sent)).isSome ∧
      (sqlSum ((bucketRows interval found b).map TrendRow.received)).isSome →
      f b = some (bucketTotals interval found b) := by
    rintro b ⟨hsent, hreceived⟩
    simp only [hf, (sqlSum_of_isSome hsent).1, (sqlSum_of_isSome hreceived).1]
    rfl
  have hsome : ∀ b, (f b).isSome →
      (sqlSum ((bucketRows interval found b).map TrendRow.sent)).isSome ∧
        (sqlSum ((bucketRows interval found b).map TrendRow.received)).isSome := by
    intro b hb
    obtain ⟨g, hg⟩ := Option.isSome_iff_exists.1 hb
    obtain ⟨sent, hsent, hg⟩ := Option.bind_eq_some_iff.1 hg
    obtain ⟨received, hreceived, -⟩ := Option.bind_eq_some_iff.1 hg
    exact ⟨Option.isSome_iff_exists.2 ⟨sent, hsent⟩,
      Option.isSome_iff_exists.2 ⟨received, hreceived⟩⟩
  have htotals : SumsFit interval found →
      keys.mapM f = some (keys.map (bucketTotals interval found)) := by
    intro hfits
    rw [Lib.mapM_eq_some_iff, List.map_map]
    exact List.map_congr_left fun b hb => hrow b (hfits b hb)
  rw [hquery]
  constructor
  · intro h
    have hfits : SumsFit interval found := fun b hb =>
      hsome b (Lib.isSome_mapM_iff.1 (Option.isSome_iff_exists.2 ⟨buckets, h⟩) b hb)
    exact ⟨hfits, Option.some.inj (h.symm.trans (htotals hfits))⟩
  · rintro ⟨hfits, rfl⟩
    exact htotals hfits

/-- The loop goes through the points one by one. -/
theorem foldl_map_addTo (buckets : List TrendBucket) (points : List TrafficTrendPoint) :
    buckets.foldl (fun points g => points.map fun p => p.addTo g) points =
      points.map fun p => buckets.foldl TrafficTrendPoint.addTo p := by
  induction buckets generalizing points with
  | nil => simp
  | cons g buckets ih =>
      rw [List.foldl_cons, ih, List.map_map]
      rfl

theorem foldl_addTo_of_ne {buckets : List TrendBucket} {p : TrafficTrendPoint}
    (h : ∀ g ∈ buckets, p.timestamp ≠ g.bucket) : buckets.foldl TrafficTrendPoint.addTo p = p := by
  induction buckets with
  | nil => rfl
  | cons g buckets ih =>
      obtain ⟨hg, hrest⟩ := List.forall_mem_cons.1 h
      rw [List.foldl_cons, TrafficTrendPoint.addTo, if_neg hg, ih hrest]

theorem saturatingAdd_zero (a : U64) : saturatingAdd 0 a = a := by
  have hlt : (0 : U64).toNat + a.toNat < 2 ^ 64 := by
    have ha := a.isLt
    simpa using ha
  rw [saturatingAdd, if_pos hlt]
  exact BitVec.zero_add a

theorem empty_add (interval : ℕ) (found : List TrendRow) (b : ℤ) :
    (TrafficTrendPoint.empty b).add (bucketTotals interval found b) =
      bucketPoint interval found b := by
  have hcount : (0 : U32) + BitVec.ofNat 32 (bucketRows interval found b).length =
      BitVec.ofNat 32 (bucketRows interval found b).length := BitVec.zero_add _
  simp only [TrafficTrendPoint.add, TrafficTrendPoint.empty, bucketTotals, bucketPoint,
    saturatingAdd_zero, hcount]

/-- A point gets its bucket, once. -/
theorem foldl_addTo_empty {keys : List ℤ} (hkeys : keys.Nodup)
    (hempty : ∀ b ∉ keys, bucketRows interval found b = []) (b : ℤ) :
    (keys.map (bucketTotals interval found)).foldl TrafficTrendPoint.addTo
      (TrafficTrendPoint.empty b) = bucketPoint interval found b := by
  by_cases hb : b ∈ keys
  · obtain ⟨front, back, rfl⟩ := List.append_of_mem hb
    have hother : ∀ k ∈ front ++ back, k ≠ b := by
      rintro k hk rfl
      exact (List.nodup_cons.1 (List.perm_middle.nodup_iff.1 hkeys)).1 hk
    have hfront : (front.map (bucketTotals interval found)).foldl TrafficTrendPoint.addTo
        (TrafficTrendPoint.empty b) = TrafficTrendPoint.empty b := by
      refine foldl_addTo_of_ne fun g hg => ?_
      obtain ⟨k, hk, rfl⟩ := List.mem_map.1 hg
      exact (hother k (List.mem_append_left _ hk)).symm
    have hhere : (TrafficTrendPoint.empty b).addTo (bucketTotals interval found b) =
        bucketPoint interval found b := (if_pos rfl).trans (empty_add interval found b)
    rw [List.map_append, List.map_cons, List.foldl_append, List.foldl_cons, hfront, hhere]
    refine foldl_addTo_of_ne fun g hg => ?_
    obtain ⟨k, hk, rfl⟩ := List.mem_map.1 hg
    exact (hother k (List.mem_append_right _ hk)).symm
  · rw [foldl_addTo_of_ne, bucketPoint, hempty b hb]
    · rfl
    · intro g hg
      obtain ⟨k, hk, rfl⟩ := List.mem_map.1 hg
      exact fun hsame => hb (by rwa [show b = k from hsame])

/-- **The points of the trend.** -/
theorem getTrafficTrend_eq_some {points : List TrafficTrendPoint} :
    getTrafficTrend now hours rows = some points ↔
      SumsFit (intervalSeconds hours) (trendWindow now hours rows) ∧
        points = (trendBuckets now hours).map
          (bucketPoint (intervalSeconds hours) (trendWindow now hours rows)) := by
  have hempty : ∀ b ∉ ((trendWindow now hours rows).map
      (TrendRow.bucket (intervalSeconds hours))).dedup,
      bucketRows (intervalSeconds hours) (trendWindow now hours rows) b = [] := by
    intro b hb
    refine Lib.group_eq_nil fun row hrow hsame => hb ?_
    exact List.mem_dedup.2 (List.mem_map.2 ⟨row, hrow, hsame⟩)
  have hpoints : ∀ buckets, aggregateTrendBuckets now hours (intervalSeconds hours) rows =
      some buckets → buckets.foldl (fun points g => points.map fun p => p.addTo g)
        ((trendBuckets now hours).map TrafficTrendPoint.empty) =
          (trendBuckets now hours).map
            (bucketPoint (intervalSeconds hours) (trendWindow now hours rows)) := by
    intro buckets hbuckets
    obtain ⟨-, rfl⟩ := aggregateTrendBuckets_eq_some.1 hbuckets
    rw [foldl_map_addTo, List.map_map]
    exact List.map_congr_left fun b _ => foldl_addTo_empty (List.nodup_dedup _) hempty b
  constructor
  · intro h
    obtain ⟨buckets, hbuckets, hp⟩ := Option.bind_eq_some_iff.1 h
    refine ⟨(aggregateTrendBuckets_eq_some.1 hbuckets).1, ?_⟩
    rw [← Option.some.inj hp, hpoints buckets hbuckets]
  · rintro ⟨hfits, rfl⟩
    have hbuckets := aggregateTrendBuckets_eq_some.2 ⟨hfits, rfl⟩
    refine Option.bind_eq_some_iff.2 ⟨_, hbuckets, ?_⟩
    rw [hpoints _ hbuckets]

/-! ## The buckets -/

theorem intervalSeconds_pos (hours : ℕ) : 0 < intervalSeconds hours := by
  unfold intervalSeconds trendTier
  split_ifs <;> decide

theorem numPoints_pos (hours : ℕ) : 0 < (trendTier hours).2 := by
  unfold trendTier
  split_ifs <;> decide

theorem nodup_trendBuckets (now hours : ℕ) : (trendBuckets now hours).Nodup := List.nodup_dedup _

theorem mem_trendBuckets {b : ℤ} :
    b ∈ trendBuckets now hours ↔
      ∃ back < (trendTier hours).2, b = bucketTimestamp now (intervalSeconds hours) back := by
  rw [trendBuckets, List.mem_dedup, List.mem_map]
  constructor
  · rintro ⟨i, hi, rfl⟩
    have hlt := List.mem_range.1 hi
    exact ⟨_, by omega, rfl⟩
  · rintro ⟨back, hback, rfl⟩
    refine ⟨(trendTier hours).2 - back - 1, List.mem_range.2 (by omega), ?_⟩
    rw [show (trendTier hours).2 - ((trendTier hours).2 - back - 1) - 1 = back by omega]

/-- The rows of a bucket are those from its start to the next. -/
theorem bucket_eq_iff (hw : 0 < interval) (row : TrendRow) (k : ℤ) :
    row.bucket interval = k * interval ↔
      k * interval ≤ row.seconds ∧ (row.seconds : ℤ) < k * interval + interval := by
  have hw' : (0 : ℤ) < interval := by exact_mod_cast hw
  have hbucket : row.bucket interval = (row.seconds : ℤ) / interval * interval := by
    rw [TrendRow.bucket]
    push_cast
    rfl
  rw [hbucket, mul_left_inj' hw'.ne']
  constructor
  · rintro rfl
    exact ⟨Int.ediv_mul_le _ hw'.ne', Int.lt_ediv_add_one_mul_self _ hw' |>.trans_eq (by ring)⟩
  · rintro ⟨hlow, hhigh⟩
    refine le_antisymm ?_ ((Int.le_ediv_iff_mul_le hw').2 hlow)
    refine Int.lt_add_one_iff.1 ((Int.ediv_lt_iff_lt_mul hw').2 ?_)
    rw [add_mul, one_mul]
    exact hhigh

theorem bucketTimestamp_of_le (hw : 0 < interval) {back : ℕ}
    (h : back * interval ≤ now / 10 ^ 9) :
    bucketTimestamp now interval back = ((now / 10 ^ 9 / interval : ℕ) - back : ℤ) * interval := by
  have hw' : (0 : ℤ) < interval := by exact_mod_cast hw
  have hnonneg : (0 : ℤ) ≤ (now / 10 ^ 9 : ℕ) - back * interval := by
    have hcast : (back * interval : ℤ) ≤ (now / 10 ^ 9 : ℕ) := by exact_mod_cast h
    omega
  rw [bucketTimestamp, Int.tdiv_eq_ediv_of_nonneg hnonneg, Int.sub_mul_ediv_right _ _ hw'.ne']
  rfl

/-- **The buckets with a point are those from the first one on.** -/
theorem bucket_mem_iff {row : TrendRow} (hrow : row.timestamp ≤ now) :
    row.bucket (intervalSeconds hours) ∈ trendBuckets now hours ↔
      firstBucket now hours ≤ row.seconds := by
  have hw := intervalSeconds_pos hours
  have hw' : (0 : ℤ) < intervalSeconds hours := by exact_mod_cast hw
  have hpoints := numPoints_pos hours
  have hseconds : row.seconds ≤ now / 10 ^ 9 := Nat.div_le_div_right hrow
  have hfloor : row.seconds / intervalSeconds hours ≤ now / 10 ^ 9 / intervalSeconds hours :=
    Nat.div_le_div_right hseconds
  have hstart : row.bucket (intervalSeconds hours) ≤ row.seconds := by
    have hle := Nat.div_mul_le_self row.seconds (intervalSeconds hours)
    rw [TrendRow.bucket]
    exact_mod_cast hle
  rw [mem_trendBuckets]
  constructor
  · rintro ⟨back, hback, hsame⟩
    by_cases hle : back * intervalSeconds hours ≤ now / 10 ^ 9
    · rw [bucketTimestamp_of_le hw hle] at hsame
      refine le_trans ?_ hstart
      rw [hsame, firstBucket]
      exact mul_le_mul_of_nonneg_right (by omega) hw'.le
    · -- a bucket before 1970: so is the first
      have hlt : now / 10 ^ 9 / intervalSeconds hours < back :=
        (Nat.div_lt_iff_lt_mul hw).2 (Nat.lt_of_not_le hle)
      have hfirst : firstBucket now hours ≤ 0 :=
        mul_nonpos_of_nonpos_of_nonneg (by omega) hw'.le
      exact hfirst.trans (Int.natCast_nonneg _)
  · intro hfirst
    have hback : ((now / 10 ^ 9 / intervalSeconds hours : ℕ) - ((trendTier hours).2 - 1 : ℕ) : ℤ) ≤
        (row.seconds / intervalSeconds hours : ℕ) := by
      push_cast
      exact (Int.le_ediv_iff_mul_le hw').2 (by simpa [firstBucket] using hfirst)
    refine ⟨now / 10 ^ 9 / intervalSeconds hours - row.seconds / intervalSeconds hours, by omega,
      ?_⟩
    rw [bucketTimestamp_of_le hw ((Nat.mul_le_mul_right _ (Nat.sub_le _ _)).trans
      (Nat.div_mul_le_self _ _)), TrendRow.bucket, Nat.cast_sub hfloor]
    push_cast
    ring

/-- The points are at multiples of the interval. -/
theorem exists_mul_of_mem {b : ℤ} (hb : b ∈ trendBuckets now hours) :
    ∃ k : ℤ, b = k * intervalSeconds hours := by
  obtain ⟨back, -, rfl⟩ := mem_trendBuckets.1 hb
  exact ⟨_, rfl⟩

/-- **A point is about its bucket**, if it can hold the number of rows. -/
theorem pointExact_bucketPoint {b : ℤ} (hb : b ∈ trendBuckets now hours)
    (hcount : (bucketRows (intervalSeconds hours) found b).length < 2 ^ 32) :
    PointExact (intervalSeconds hours) found (bucketPoint (intervalSeconds hours) found b) := by
  obtain ⟨k, rfl⟩ := exists_mul_of_mem hb
  set p := bucketPoint (intervalSeconds hours) found (k * intervalSeconds hours) with hp
  have hrows : (found.filter fun row => decide (p.timestamp ≤ row.seconds ∧
      row.seconds < p.timestamp + intervalSeconds hours)) =
      bucketRows (intervalSeconds hours) found (k * intervalSeconds hours) := by
    refine List.filter_congr fun row _ => ?_
    rw [decide_eq_decide, bucket_eq_iff (intervalSeconds_pos hours)]
    rfl
  unfold PointExact
  simp only [hrows]
  refine ⟨?_, rfl, rfl⟩
  rw [hp, bucketPoint, BitVec.toNat_ofNat, Nat.mod_eq_of_lt hcount]

/-! ## The totals -/

/-- A sum as the `u64` that it becomes. -/
theorem toNat_ofInt {n : ℤ} (h : FitsI64 n) :
    ((BitVec.ofInt 64 n).toNat : ℤ) = if n < 0 then n + 2 ^ 64 else n := by
  obtain ⟨hlow, hhigh⟩ := h
  rw [BitVec.toNat_ofInt]
  split_ifs with hneg
  · omega
  · omega

/-- Sums become `u64`s one by one, with 2^64 for each that is negative. -/
theorem sum_toNat_ofInt {S : ℤ → ℤ} {B : List ℤ} (h : ∀ b ∈ B, FitsI64 (S b)) :
    (((B.map fun b => (BitVec.ofInt 64 (S b)).toNat).sum : ℕ) : ℤ) =
      (B.map S).sum + 2 ^ 64 * (B.filter fun b => decide (S b < 0)).length := by
  induction B with
  | nil => rfl
  | cons b B ih =>
      obtain ⟨hb, hB⟩ := List.forall_mem_cons.1 h
      have hrest := ih hB
      have hhead := toNat_ofInt hb
      rw [List.map_cons, List.sum_cons, List.map_cons, List.sum_cons, List.filter_cons,
        Nat.cast_add, hrest, hhead]
      by_cases hneg : S b < 0
      · rw [if_pos hneg, if_pos (decide_eq_true hneg), List.length_cons, Nat.cast_succ]
        omega
      · rw [if_neg hneg, if_neg (by simpa using hneg)]
        omega

/-- The intervals whose rows have counters that add up to less than zero: none, for counters below
2^63. -/
def negativeIntervals (interval : ℕ) (column : TrendRow → ℤ) (found : List TrendRow) : List ℤ :=
  (found.map (TrendRow.bucket interval)).dedup.filter fun b =>
    decide (((found.filter fun row => decide (row.bucket interval = b)).map column).sum < 0)

/-- The counters of one interval add up to less than zero if those of all rows do, and else those of
none. -/
def SignsAgree (interval : ℕ) (column : TrendRow → ℤ) (found : List TrendRow) : Prop :=
  (negativeIntervals interval column found).length = if (found.map column).sum < 0 then 1 else 0

variable {column : TrendRow → ℤ}

/-- Sums are negative in the intervals of rows only. -/
theorem length_negativeIntervals (hmem : ∀ row ∈ found,
    row.bucket (intervalSeconds hours) ∈ trendBuckets now hours) :
    ((trendBuckets now hours).filter fun b =>
      decide (((bucketRows (intervalSeconds hours) found b).map column).sum < 0)).length =
        (negativeIntervals (intervalSeconds hours) column found).length := by
  refine List.Perm.length_eq ?_
  refine (List.perm_ext_iff_of_nodup ((nodup_trendBuckets now hours).filter _)
    ((List.nodup_dedup _).filter _)).2 fun b => ?_
  rw [List.mem_filter, List.mem_filter, List.mem_dedup]
  refine and_congr_left fun hneg => ⟨fun _ => ?_, fun hb => ?_⟩
  · have hrows : bucketRows (intervalSeconds hours) found b ≠ [] := by
      intro hnil
      simp [hnil] at hneg
    obtain ⟨row, hrow⟩ := List.exists_mem_of_ne_nil _ hrows
    obtain ⟨hfound, hbucket⟩ := Lib.mem_group.1 hrow
    exact List.mem_map.2 ⟨row, hfound, hbucket⟩
  · obtain ⟨row, hrow, rfl⟩ := List.mem_map.1 hb
    exact hmem row hrow

/-- The sums by bucket add up to the total. -/
theorem sum_bucketRows (hmem : ∀ row ∈ found,
    row.bucket (intervalSeconds hours) ∈ trendBuckets now hours) :
    ((trendBuckets now hours).map fun b =>
      ((bucketRows (intervalSeconds hours) found b).map column).sum).sum =
        (found.map column).sum := by
  rw [← List.sum_toFinset _ (nodup_trendBuckets now hours)]
  refine (Lib.sum_groups _ column found).trans ?_
  rw [List.filter_eq_self.2 fun row hrow => decide_eq_true (List.mem_toFinset.2 (hmem row hrow))]

/-- **The bytes of the points are those of the window exactly when the signs agree.** -/
theorem sum_bytes_iff (hmem : ∀ row ∈ found,
    row.bucket (intervalSeconds hours) ∈ trendBuckets now hours)
    (hfits : ∀ b, FitsI64 ((bucketRows (intervalSeconds hours) found b).map column).sum)
    (htotal : FitsI64 (found.map column).sum) :
    ((trendBuckets now hours).map fun b =>
      (BitVec.ofInt 64 ((bucketRows (intervalSeconds hours) found b).map column).sum).toNat).sum =
        (BitVec.ofInt 64 (found.map column).sum).toNat ↔
      SignsAgree (intervalSeconds hours) column found := by
  have hpoints := sum_toNat_ofInt (B := trendBuckets now hours) fun b _ => hfits b
  have hwhole := toNat_ofInt htotal
  rw [sum_bucketRows hmem, length_negativeIntervals hmem] at hpoints
  rw [SignsAgree, ← @Nat.cast_inj ℤ, hpoints, hwhole]
  split_ifs <;> omega

/-- All rows have a point, every number fits, and no sum overflows. -/
structure TrendSettled (now hours : ℕ) (rows rows' : List TrendRow) : Prop where
  covered : TrendCovered now hours rows
  counted : ∀ b ∈ trendBuckets now hours,
    (bucketRows (intervalSeconds hours) (trendWindow now hours rows) b).length < 2 ^ 32
  fits : SumsFit (intervalSeconds hours) (trendWindow now hours rows)
  sent : (sqlSum ((trendWindow now hours rows').map TrendRow.sent)).isSome
  received : (sqlSum ((trendWindow now hours rows').map TrendRow.received)).isSome
  sentSigns : SignsAgree (intervalSeconds hours) TrendRow.sent (trendWindow now hours rows)
  receivedSigns : SignsAgree (intervalSeconds hours) TrendRow.received (trendWindow now hours rows)

theorem getHistoryTrafficTotals_eq_some {totals : U64 × U64} :
    getHistoryTrafficTotals now hours rows = some totals ↔
      (sqlSum ((trendWindow now hours rows).map TrendRow.sent)).isSome ∧
        (sqlSum ((trendWindow now hours rows).map TrendRow.received)).isSome ∧
        totals = (BitVec.ofInt 64 ((trendWindow now hours rows).map TrendRow.sent).sum,
          BitVec.ofInt 64 ((trendWindow now hours rows).map TrendRow.received).sum) := by
  constructor
  · intro h
    obtain ⟨sent, hsent, h⟩ := Option.bind_eq_some_iff.1 h
    obtain ⟨received, hreceived, h⟩ := Option.bind_eq_some_iff.1 h
    refine ⟨Option.isSome_iff_exists.2 ⟨sent, hsent⟩,
      Option.isSome_iff_exists.2 ⟨received, hreceived⟩, ?_⟩
    rw [← Option.some.inj h, (sqlSum_eq_some hsent).1, (sqlSum_eq_some hreceived).1]
  · rintro ⟨hsent, hreceived, rfl⟩
    refine Option.bind_eq_some_iff.2 ⟨_, (sqlSum_of_isSome hsent).1, ?_⟩
    exact Option.bind_eq_some_iff.2 ⟨_, (sqlSum_of_isSome hreceived).1, rfl⟩

/-- No sum by bucket overflows: the buckets without rows have none. -/
theorem SumsFit.fitsI64 (h : SumsFit interval found) (b : ℤ) :
    FitsI64 ((bucketRows interval found b).map TrendRow.sent).sum ∧
      FitsI64 ((bucketRows interval found b).map TrendRow.received).sum := by
  by_cases hb : b ∈ (found.map (TrendRow.bucket interval)).dedup
  · exact ⟨(sqlSum_of_isSome (h b hb).1).2, (sqlSum_of_isSome (h b hb).2).2⟩
  · have hempty : bucketRows interval found b = [] := by
      refine Lib.group_eq_nil fun row hrow hsame => hb ?_
      exact List.mem_dedup.2 (List.mem_map.2 ⟨row, hrow, hsame⟩)
    rw [hempty]
    decide

/-- The rows of the window have points exactly when none is before the first. -/
theorem trendCovered_iff_mem (hnow : ∀ row ∈ rows, row.timestamp ≤ now) :
    TrendCovered now hours rows ↔ ∀ row ∈ trendWindow now hours rows,
      row.bucket (intervalSeconds hours) ∈ trendBuckets now hours :=
  forall₂_congr fun row hrow => (bucket_mem_iff (hnow row (List.mem_of_mem_filter hrow))).symm

/-- **The trend adds up exactly when it is settled.** -/
theorem trendExact_iff_settled (hnow : ∀ row ∈ rows, row.timestamp ≤ now)
    (hperm : rows'.Perm rows) :
    TrendExact now hours rows rows' ↔ TrendSettled now hours rows rows' := by
  set found := trendWindow now hours rows with hfound
  have hfoundPerm : (trendWindow now hours rows').Perm found := hperm.filter _
  have hsent : ((trendWindow now hours rows').map TrendRow.sent).sum =
      (found.map TrendRow.sent).sum := (hfoundPerm.map _).sum_eq
  have hreceived : ((trendWindow now hours rows').map TrendRow.received).sum =
      (found.map TrendRow.received).sum := (hfoundPerm.map _).sum_eq
  have hcount : ∀ B : List ℤ, B.Nodup →
      (B.map fun b => (bucketPoint (intervalSeconds hours) found b).connectionCount.toNat).sum =
        ∑ b ∈ B.toFinset, (bucketRows (intervalSeconds hours) found b).length % 2 ^ 32 := by
    intro B hB
    rw [List.sum_toFinset _ hB]
    simp only [bucketPoint, BitVec.toNat_ofNat]
  constructor
  · rintro ⟨points, totals, hpoints, htotals, hsentSum, hreceivedSum, hcounts, -⟩
    obtain ⟨hfits, rfl⟩ := getTrafficTrend_eq_some.1 hpoints
    obtain ⟨hsome, hsome', rfl⟩ := getHistoryTrafficTotals_eq_some.1 htotals
    rw [List.map_map] at hsentSum hreceivedSum hcounts
    have hall := (Lib.sum_lengths_eq_iff _ found fun n => Nat.mod_le n (2 ^ 32)).1
      ((hcount _ (nodup_trendBuckets now hours)).symm.trans hcounts)
    have hmem : ∀ row ∈ found, row.bucket (intervalSeconds hours) ∈ trendBuckets now hours :=
      fun row hrow => List.mem_toFinset.1 (hall.1 row hrow)
    refine ⟨(trendCovered_iff_mem hnow).2 hmem, fun b hb => ?_, hfits, hsome, hsome', ?_, ?_⟩
    · have hsame := hall.2 b (List.mem_toFinset.2 hb)
      exact hsame ▸ Nat.mod_lt _ (by decide)
    · refine (sum_bytes_iff hmem (fun b => (hfits.fitsI64 b).1) ?_).1 (hsentSum.trans ?_)
      · exact hsent ▸ (sqlSum_of_isSome hsome).2
      · rw [hsent]
    · refine (sum_bytes_iff hmem (fun b => (hfits.fitsI64 b).2) ?_).1 (hreceivedSum.trans ?_)
      · exact hreceived ▸ (sqlSum_of_isSome hsome').2
      · rw [hreceived]
  · intro h
    have hmem := (trendCovered_iff_mem hnow).1 h.covered
    refine ⟨_, _, getTrafficTrend_eq_some.2 ⟨h.fits, rfl⟩,
      getHistoryTrafficTotals_eq_some.2 ⟨h.sent, h.received, rfl⟩, ?_, ?_, ?_, ?_⟩
    · rw [List.map_map, hsent]
      exact (sum_bytes_iff hmem (fun b => (h.fits.fitsI64 b).1)
        (hsent ▸ (sqlSum_of_isSome h.sent).2)).2 h.sentSigns
    · rw [List.map_map, hreceived]
      exact (sum_bytes_iff hmem (fun b => (h.fits.fitsI64 b).2)
        (hreceived ▸ (sqlSum_of_isSome h.received).2)).2 h.receivedSigns
    · rw [List.map_map]
      refine (hcount _ (nodup_trendBuckets now hours)).trans ?_
      refine (Lib.sum_lengths_eq_iff _ found fun n => Nat.mod_le n (2 ^ 32)).2
        ⟨fun row hrow => List.mem_toFinset.2 (hmem row hrow), fun b hb => ?_⟩
      exact Nat.mod_eq_of_lt (h.counted b (List.mem_toFinset.1 hb))
    · intro p hp
      obtain ⟨b, hb, rfl⟩ := List.mem_map.1 hp
      exact pointExact_bucketPoint hb (h.counted b hb)

/-! ## Ordinary tables -/

/-- Fewer than 2^32 rows, and byte counters whose totals are below 2^63. -/
structure OrdinaryTraffic (rows : List TrendRow) : Prop where
  length : rows.length < 2 ^ 32
  sentNonneg : ∀ row ∈ rows, 0 ≤ row.sent
  receivedNonneg : ∀ row ∈ rows, 0 ≤ row.received
  sent : (rows.map TrendRow.sent).sum < 2 ^ 63
  received : (rows.map TrendRow.received).sum < 2 ^ 63

theorem sqlSum_isSome {values : List ℤ} (hnonneg : ∀ n ∈ values, 0 ≤ n)
    (hsum : values.sum < 2 ^ 63) : (sqlSum values).isSome := by
  have hfrom : ∀ acc : ℤ, 0 ≤ acc → acc + values.sum < 2 ^ 63 →
      (values.foldlM sqlAdd acc).isSome := by
    clear hsum
    induction values with
    | nil => exact fun acc _ _ => rfl
    | cons n values ih =>
        intro acc hacc hlt
        obtain ⟨hn, hrest⟩ := List.forall_mem_cons.1 hnonneg
        have hvalues : 0 ≤ values.sum := List.sum_nonneg hrest
        rw [List.sum_cons] at hlt
        have hstep : sqlAdd acc n = some (acc + n) :=
          sqlAdd_eq_some.2 ⟨⟨by omega, by omega⟩, rfl⟩
        rw [List.foldlM_cons, hstep]
        exact ih hrest (acc + n) (by omega) (by omega)
  exact hfrom 0 le_rfl (by omega)

/-- Part of the rows add up to part of the total. -/
theorem sqlSum_isSome_of_sublist {part : List TrendRow} (hsub : part.Sublist rows)
    (hnonneg : ∀ row ∈ rows, 0 ≤ column row) (hsum : (rows.map column).sum < 2 ^ 63) :
    (sqlSum (part.map column)).isSome := by
  have hpart : ∀ n ∈ part.map column, 0 ≤ n := by
    intro n hn
    obtain ⟨row, hrow, rfl⟩ := List.mem_map.1 hn
    exact hnonneg row (hsub.subset hrow)
  have hle : (part.map column).sum ≤ (rows.map column).sum := by
    refine (hsub.map column).sum_le_sum fun n hn => ?_
    obtain ⟨row, hrow, rfl⟩ := List.mem_map.1 hn
    exact hnonneg row hrow
  exact sqlSum_isSome hpart (hle.trans_lt hsum)

/-- Without negative counters no sum is negative. -/
theorem signsAgree_of_nonneg (hnonneg : ∀ row ∈ found, 0 ≤ column row) :
    SignsAgree interval column found := by
  have hsum : ∀ part : List TrendRow, (∀ row ∈ part, row ∈ found) → 0 ≤ (part.map column).sum := by
    intro part hpart
    refine List.sum_nonneg fun n hn => ?_
    obtain ⟨row, hrow, rfl⟩ := List.mem_map.1 hn
    exact hnonneg row (hpart row hrow)
  have hnone : negativeIntervals interval column found = [] := by
    refine List.filter_eq_nil_iff.2 fun b _ => ?_
    rw [decide_eq_true_iff, not_lt]
    exact hsum _ fun row hrow => List.mem_of_mem_filter hrow
  rw [SignsAgree, hnone, if_neg (not_lt.2 (hsum found fun _ h => h)), List.length_nil]

/-- **On an ordinary table only the coverage is in question.** -/
theorem trendExact_iff_covered (hnow : ∀ row ∈ rows, row.timestamp ≤ now)
    (hperm : rows'.Perm rows) (h : OrdinaryTraffic rows) :
    TrendExact now hours rows rows' ↔ TrendCovered now hours rows := by
  rw [trendExact_iff_settled hnow hperm]
  refine ⟨TrendSettled.covered, fun hcovered => ?_⟩
  have hwindow : (trendWindow now hours rows).Sublist rows := List.filter_sublist
  have hbucket : ∀ b, (bucketRows (intervalSeconds hours) (trendWindow now hours rows) b).Sublist
      rows := fun b => List.filter_sublist.trans hwindow
  have hwindow' : (trendWindow now hours rows').Sublist rows' := List.filter_sublist
  refine ⟨hcovered, fun b _ => (hbucket b).length_le.trans_lt h.length, fun b _ => ⟨?_, ?_⟩, ?_, ?_,
    ?_, ?_⟩
  · exact sqlSum_isSome_of_sublist (hbucket b) h.sentNonneg h.sent
  · exact sqlSum_isSome_of_sublist (hbucket b) h.receivedNonneg h.received
  · exact sqlSum_isSome_of_sublist hwindow'
      (fun row hrow => h.sentNonneg row (hperm.mem_iff.1 hrow))
      (((hperm.map _).sum_eq).trans_lt h.sent)
  · exact sqlSum_isSome_of_sublist hwindow'
      (fun row hrow => h.receivedNonneg row (hperm.mem_iff.1 hrow))
      (((hperm.map _).sum_eq).trans_lt h.received)
  · exact signsAgree_of_nonneg fun row hrow => h.sentNonneg row (hwindow.subset hrow)
  · exact signsAgree_of_nonneg fun row hrow => h.receivedNonneg row (hwindow.subset hrow)

theorem mem_trendWindow {row : TrendRow} :
    row ∈ trendWindow now hours rows ↔ row ∈ rows ∧ historyCutoff now hours ≤ row.timestamp := by
  rw [trendWindow, List.mem_filter, decide_eq_true_iff]

/-- **No row can be dropped exactly when the first bucket does not begin inside the window.** -/
theorem trendCovered_iff (now hours : ℕ) :
    (∀ rows, (∀ row ∈ rows, row.timestamp ≤ now) → TrendCovered now hours rows) ↔
      firstBucket now hours * 10 ^ 9 ≤ max 0 (historyCutoff now hours) := by
  have hcutoff : historyCutoff now hours ≤ now := by
    unfold historyCutoff
    omega
  constructor
  · intro h
    -- a row at the very start of the window
    have hstart : ((max 0 (historyCutoff now hours)).toNat : ℤ) = max 0 (historyCutoff now hours) :=
      Int.toNat_of_nonneg (le_max_left _ _)
    have hfirst := h [⟨(max 0 (historyCutoff now hours)).toNat, 0, 0⟩]
      (fun row hrow => by
        rw [List.mem_singleton.1 hrow]
        show (max 0 (historyCutoff now hours)).toNat ≤ now
        omega) _ (mem_trendWindow.2 ⟨List.mem_singleton_self _, by
        show historyCutoff now hours ≤ ((max 0 (historyCutoff now hours)).toNat : ℤ)
        omega⟩)
    change firstBucket now hours ≤ ((max 0 (historyCutoff now hours)).toNat / 10 ^ 9 : ℕ) at hfirst
    omega
  · intro h rows hnow row hrow
    obtain ⟨-, hin⟩ := mem_trendWindow.1 hrow
    rw [TrendRow.seconds]
    omega

/-- **When the traffic trend accounts for the window.**  Exactly when the trend is settled; on an
ordinary table, when no row of the window is before the first bucket; and whatever the table, that
is so exactly when the window does not begin before that bucket. -/
theorem trafficTrend_exact_iff (now hours : ℕ) :
    (∀ rows rows' : List TrendRow, (∀ row ∈ rows, row.timestamp ≤ now) → rows'.Perm rows →
      (TrendExact now hours rows rows' ↔ TrendSettled now hours rows rows')) ∧
    (∀ rows rows' : List TrendRow, (∀ row ∈ rows, row.timestamp ≤ now) → rows'.Perm rows →
      OrdinaryTraffic rows →
      (TrendExact now hours rows rows' ↔ TrendCovered now hours rows)) ∧
    ((∀ rows, (∀ row ∈ rows, row.timestamp ≤ now) → TrendCovered now hours rows) ↔
      firstBucket now hours * 10 ^ 9 ≤ max 0 (historyCutoff now hours)) :=
  ⟨fun _ _ hnow hperm => trendExact_iff_settled hnow hperm,
    fun _ _ hnow hperm h => trendExact_iff_covered hnow hperm h, trendCovered_iff now hours⟩

/-- A connection of one hour ago, of 4096 bytes each way. -/
def hourOldRow : TrendRow := ⟨1699996500000000000, 4096, 4096⟩

/-- The trend of the last hour has no point for it. -/
theorem not_trafficTrend_exact :
    ¬ TrendExact 1700000100000000000 1 [hourOldRow] [hourOldRow] := by
  intro h
  have hsettled := (trendExact_iff_settled (by decide) (List.Perm.refl _)).1 h
  exact absurd (hsettled.covered hourOldRow (by decide)) (by decide)

end Service
end Ceasefire
