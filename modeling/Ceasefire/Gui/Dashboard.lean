/-
# The traffic chart of the dashboard: `gui/src/utils/dashboardTransform.ts`

The chart draws points of traffic, a time, a process and bytes sent and received.
`aggregateTimeline` adds up the points of a process that fall into one bucket of time, in a `Map`
whose keys are texts of a bucket and a path; `buildStackedTrafficSeries` makes a time axis of what
there is, ranks the processes by their totals, and gives one series to each of the first `topN` and
one to all others together.  Each series is filled by a pass over all points.

Bytes are natural numbers, which the numbers of JavaScript are as long as their sums stay below
`2 ^ 53`.  `Date.parse` and `toISOString` are parameters (`DateApi`).
-/

import Ceasefire.Gui.Date
import Ceasefire.Lib.OrderedMap
import Mathlib.Data.List.Sort
import Mathlib.Data.Rat.Floor

namespace Ceasefire
namespace Gui

open Lib (group fill length_fill getElem?_fill sum_groups sum_filter sum_filter_add)
open Lib.OrderedMap (lookup set tally distinct forall_mem_tally exists_mem_tally)

/-! ## Numbers -/

/-- A number, as far as it is compared and cut to an index. -/
inductive JsNumber
  | nan
  | negInfinity
  | finite (q : ℚ)
  | infinity
  deriving DecidableEq, Repr

/-- `n <= q` -/
def JsNumber.le : JsNumber → ℚ → Bool
  | .nan, _ => false
  | .negInfinity, _ => true
  | .finite n, q => decide (n ≤ q)
  | .infinity, _ => false

/-- `ToIntegerOrInfinity`, and the index that `slice` makes of it in an array of this length. -/
def JsNumber.sliceIndex (n : JsNumber) (length : ℕ) : ℕ :=
  match n with
  | .nan => 0
  | .negInfinity => 0
  | .finite q =>
      let relative : ℤ := if 0 ≤ q then ⌊q⌋ else ⌈q⌉
      if relative < 0 then (length + relative).toNat else min relative.toNat length
  | .infinity => length

/-! ## The functions -/

/-- `TimelinePoint` -/
structure TimelinePoint where
  timestamp : JsString
  processPath : JsString
  processName : Option JsString
  bytesSent : ℕ
  bytesReceived : ℕ
  deriving DecidableEq

/-- One series of `StackedSeries`. -/
structure Series where
  name : JsString
  path : JsString
  data : List ℕ
  deriving DecidableEq

/-- `StackedSeries` -/
structure StackedSeries where
  timestamps : List JsString
  series : List Series
  deriving DecidableEq

/-- `p.bytes_sent + p.bytes_received` -/
def TimelinePoint.bytes (p : TimelinePoint) : ℕ := p.bytesSent + p.bytesReceived

/-- `bucketMsFor` -/
def bucketMsFor (rangeHours : JsNumber) : ℤ :=
  if rangeHours.le 1 then 5 * 60 * 1000
  else if rangeHours.le 24 then 60 * 60 * 1000
  else 24 * 60 * 60 * 1000

/-- `Math.floor(ms / bucketMs) * bucketMs` -/
def bucketStart (bucketMs ms : ℤ) : ℤ := ms / bucketMs * bucketMs

/-- An integer in a template. -/
def intText (n : ℤ) : List Char :=
  if n < 0 then '-' :: Nat.toDigits 10 n.natAbs else Nat.toDigits 10 n.natAbs

/-- The key of a bucket and a process. -/
def pointKey (bucket : ℤ) (path : JsString) : JsString := js (intText bucket) ++ 0 :: path

section

variable (date : DateApi)

/-- One turn of the loop of `aggregateTimeline`. -/
def mergePoint (bucketMs : ℤ) (merged : List (JsString × TimelinePoint)) (p : TimelinePoint) :
    Option (List (JsString × TimelinePoint)) :=
  match date.parse p.timestamp with
  | none => some merged
  | some ms =>
      let bucket := bucketStart bucketMs ms
      let key := pointKey bucket p.processPath
      match lookup key merged with
      | some existing =>
          some (set key
            { existing with
              bytesSent := existing.bytesSent + p.bytesSent
              bytesReceived := existing.bytesReceived + p.bytesReceived } merged)
      | none => do
          let timestamp ← date.toISOString bucket
          return set key { p with timestamp } merged

/-- The comparison of two timestamps by their times, where `NaN` is taken for no difference. -/
def timeLe (s t : JsString) : Prop := ∀ ms ∈ date.parse s, ∀ ms' ∈ date.parse t, ms ≤ ms'

instance : DecidableRel (timeLe date) := fun s t =>
  match hs : date.parse s, ht : date.parse t with
  | none, _ => isTrue (by simp [timeLe, hs])
  | some _, none => isTrue (by simp [timeLe, ht])
  | some ms, some ms' => decidable_of_iff (ms ≤ ms') (by simp [timeLe, hs, ht])

/-- `aggregateTimeline`; `none` when it throws. -/
def aggregateTimeline (points : List TimelinePoint) (rangeHours : JsNumber) :
    Option (List TimelinePoint) := do
  let merged ← points.foldlM (mergePoint date (bucketMsFor rangeHours)) []
  return (merged.map Prod.snd).insertionSort fun a b => timeLe date a.timestamp b.timestamp

/-- The time axis. -/
def axis (points : List TimelinePoint) : List JsString :=
  (distinct (points.map TimelinePoint.timestamp)).insertionSort (timeLe date)

/-- `timeIndex` -/
def timeIndex (timestamps : List JsString) (t : JsString) : Option ℕ := lookup t timestamps.zipIdx

/-- `totals`: the name and the total of each process. -/
def totals (points : List TimelinePoint) : List (JsString × JsString × ℕ) :=
  tally TimelinePoint.processPath (fun p o =>
    let entry := o.getD ((p.processName.filter (· ≠ [])).getD p.processPath, 0)
    (entry.1, entry.2 + p.bytes)) points

/-- `ranked` -/
def ranked (points : List TimelinePoint) : List (JsString × JsString × ℕ) :=
  (totals points).insertionSort fun a b => b.2.2 ≤ a.2.2

/-- The points that `makeData` passes over; `path` is `none` for the others. -/
def skips (points : List TimelinePoint) (top rest : List (JsString × JsString × ℕ))
    (path : Option JsString) (p : TimelinePoint) : Bool :=
  match path with
  | some path => p.processPath != path
  | none =>
      (lookup p.processPath (totals points)).isSome && top.any (fun e => e.1 == p.processPath) ||
        !rest.any fun e => e.1 == p.processPath

/-- `makeData` -/
def makeData (points : List TimelinePoint) (top rest : List (JsString × JsString × ℕ))
    (path : Option JsString) : List ℕ :=
  let timestamps := axis date points
  fill (fun p => if skips points top rest path p then none else timeIndex timestamps p.timestamp)
    TimelinePoint.bytes points (timestamps.map fun _ => 0)

/-- The series of the first processes. -/
def namedSeries (points : List TimelinePoint) (top rest : List (JsString × JsString × ℕ)) :
    List Series :=
  top.map fun e => ⟨e.2.1, e.1, makeData date points top rest (some e.1)⟩

/-- The series of the others, if there are any. -/
def othersSeries (points : List TimelinePoint) (top rest : List (JsString × JsString × ℕ)) :
    List Series :=
  if rest.length > 0 then
    [{  name := js ("其他（".toList ++ Nat.toDigits 10 rest.length ++ "）".toList)
        path := js "__others__".toList
        data := makeData date points top rest none }]
  else []

/-- `buildStackedTrafficSeries` -/
def buildStackedTrafficSeries (points : List TimelinePoint) (topN : JsNumber) : StackedSeries :=
  if points = [] then ⟨[], []⟩
  else
    let ranked := ranked points
    let top := ranked.take (topN.sliceIndex ranked.length)
    let rest := ranked.drop (topN.sliceIndex ranked.length)
    ⟨axis date points, namedSeries date points top rest ++ othersSeries date points top rest⟩

end

/-! ## Keys -/

theorem isDigit_iff {c : Char} : c.isDigit = true ↔ 48 ≤ c.toNat ∧ c.toNat ≤ 57 := by
  rw [Char.isDigit, Bool.and_eq_true, decide_eq_true_iff, decide_eq_true_iff, ge_iff_le,
    UInt32.le_iff_toNat_le, UInt32.le_iff_toNat_le]
  exact Iff.rfl

/-- The characters of an integer. -/
theorem toNat_of_mem_intText {n : ℤ} {c : Char} (h : c ∈ intText n) : 0 < c.toNat ∧ c.toNat < 128 := by
  have hdigit : ∀ {k : ℕ}, c ∈ Nat.toDigits 10 k → 0 < c.toNat ∧ c.toNat < 128 := fun {k} hc => by
    have hrange := isDigit_iff.1 (Nat.isDigit_of_mem_toDigits (by decide) (by decide) hc)
    omega
  unfold intText at h
  split_ifs at h
  · rcases List.mem_cons.1 h with rfl | h
    · decide
    · exact hdigit h
  · exact hdigit h

theorem intText_inj {m n : ℤ} (h : intText m = intText n) : m = n := by
  have hsign : ∀ {a : ℕ} {l : List Char}, Nat.toDigits 10 a ≠ '-' :: l := fun {a l} h => by
    have hmem : '-' ∈ Nat.toDigits 10 a := h ▸ List.mem_cons_self ..
    exact absurd (Nat.isDigit_of_mem_toDigits (by decide) (by decide) hmem) (by decide)
  have habs : ∀ {a b : ℕ}, Nat.toDigits 10 a = Nat.toDigits 10 b → a = b := fun {a b} h => by
    have hvalue := congrArg (Net.digitsValue 10 0) h
    rwa [Net.digitsValue_toDigits (by decide) (by decide),
      Net.digitsValue_toDigits (by decide) (by decide)] at hvalue
  unfold intText at h
  split_ifs at h with hm hn hn
  · have := habs (List.cons.inj h).2
    omega
  · exact absurd h.symm hsign
  · exact absurd h hsign
  · have := habs h
    omega

theorem js_inj {s t : List Char} (hs : ∀ c ∈ s, c.toNat < 128) (ht : ∀ c ∈ t, c.toNat < 128)
    (h : js s = js t) : s = t := by
  rw [← chars_js hs, h, chars_js ht]

/-- Texts in front of a mark that is not in them. -/
theorem append_cons_inj {x x' z z' : JsString} {c : U16} (hx : c ∉ x) (hx' : c ∉ x')
    (h : x ++ c :: z = x' ++ c :: z') : x = x' ∧ z = z' := by
  rcases List.append_eq_append_iff.1 h with ⟨d, rfl, hd⟩ | ⟨d, rfl, hd⟩
  · cases d with
    | nil => exact ⟨(List.append_nil x).symm, (List.cons.inj hd).2⟩
    | cons y d =>
        obtain rfl : c = y := (List.cons.inj hd).1
        exact absurd (List.mem_append_right _ (List.mem_cons_self ..)) hx'
  · cases d with
    | nil => exact ⟨List.append_nil x', (List.cons.inj hd).2.symm⟩
    | cons y d =>
        obtain rfl : c = y := (List.cons.inj hd).1
        exact absurd (List.mem_append_right _ (List.mem_cons_self ..)) hx

/-- **The key tells the bucket and the process,** whatever characters the path has. -/
theorem pointKey_inj {b b' : ℤ} {path path' : JsString} (h : pointKey b path = pointKey b' path') :
    b = b' ∧ path = path' := by
  have hnul : ∀ n, (0 : U16) ∉ js (intText n) := fun n hmem => by
    obtain ⟨c, hc, hzero⟩ := List.mem_map.1 hmem
    have hrange := toNat_of_mem_intText hc
    have hmod := congrArg BitVec.toNat hzero
    rw [BitVec.toNat_ofNat, Nat.mod_eq_of_lt (by omega)] at hmod
    exact absurd hmod (by simpa using hrange.1.ne')
  obtain ⟨hbucket, rfl⟩ := append_cons_inj (hnul b) (hnul b') h
  exact ⟨intText_inj (js_inj (fun c hc => (toNat_of_mem_intText hc).2)
    (fun c hc => (toNat_of_mem_intText hc).2) hbucket), rfl⟩

/-! ## The aggregated points -/

variable {date : DateApi} {bucketMs : ℤ}

/-- The points that have a time, with it. -/
def dated (date : DateApi) (points : List TimelinePoint) : List (ℤ × TimelinePoint) :=
  points.filterMap fun p => (date.parse p.timestamp).map (·, p)

/-- What a point makes of the point of its bucket and process. -/
def merge (date : DateApi) (bucketMs : ℤ) (a : ℤ × TimelinePoint) : Option TimelinePoint → TimelinePoint
  | some existing =>
      { existing with
        bytesSent := existing.bytesSent + a.2.bytesSent
        bytesReceived := existing.bytesReceived + a.2.bytesReceived }
  | none => { a.2 with timestamp := (date.toISOString (bucketStart bucketMs a.1)).getD [] }

/-- The key of a point with its time. -/
def datedKey (bucketMs : ℤ) (a : ℤ × TimelinePoint) : JsString :=
  pointKey (bucketStart bucketMs a.1) a.2.processPath

/-- A bucket begins in the range of times when its points are in it. -/
theorem bucketStart_range (rangeHours : JsNumber) {ms : ℤ} (h : -maxTime ≤ ms ∧ ms ≤ maxTime) :
    -maxTime ≤ bucketStart (bucketMsFor rangeHours) ms ∧
      bucketStart (bucketMsFor rangeHours) ms ≤ maxTime := by
  unfold bucketStart bucketMsFor maxTime at *
  split_ifs <;> omega

/-- **The loop throws nothing,** and is a tally of the points that have a time. -/
theorem foldlM_mergePoint (rangeHours : JsNumber) (points : List TimelinePoint) :
    points.foldlM (mergePoint date (bucketMsFor rangeHours)) [] =
      some (tally (datedKey (bucketMsFor rangeHours)) (merge date (bucketMsFor rangeHours))
        (dated date points)) := by
  have hall : ∀ (points : List TimelinePoint) (m : List (JsString × TimelinePoint)),
      points.foldlM (mergePoint date (bucketMsFor rangeHours)) m =
        some ((dated date points).foldl (fun m a =>
          set (datedKey (bucketMsFor rangeHours) a)
            (merge date (bucketMsFor rangeHours) a (lookup (datedKey (bucketMsFor rangeHours) a) m)) m)
          m) := by
    intro points
    induction points with
    | nil => exact fun m => rfl
    | cons p points ih =>
        intro m
        rw [List.foldlM_cons, mergePoint, dated]
        cases hparse : date.parse p.timestamp with
        | none =>
            rw [List.filterMap_cons_none (by rw [hparse]; rfl), ← dated]
            exact ih m
        | some ms =>
            have hrange := bucketStart_range rangeHours (date.le_of_parse hparse)
            obtain ⟨iso, hiso, -⟩ := date.parse_toISOString hrange.1 hrange.2
            rw [List.filterMap_cons_some (by rw [hparse]; rfl), ← dated, List.foldl_cons, datedKey]
            dsimp only
            cases hlookup : lookup (pointKey (bucketStart (bucketMsFor rangeHours) ms) p.processPath) m with
            | some existing => exact ih _
            | none =>
                rw [hiso]
                rw [merge, hiso]
                exact ih _
  exact hall points []

/-- The bytes of the points that meet a condition. -/
def traffic (points : List TimelinePoint) (q : TimelinePoint → Bool) : ℕ :=
  ((points.filter q).map TimelinePoint.bytes).sum

/-- The bucket of a point, if it has a time. -/
def bucketOf (date : DateApi) (bucketMs : ℤ) (p : TimelinePoint) : Option ℤ :=
  (date.parse p.timestamp).map (bucketStart bucketMs)

theorem mem_dated {points : List TimelinePoint} {a : ℤ × TimelinePoint} :
    a ∈ dated date points ↔ a.2 ∈ points ∧ date.parse a.2.timestamp = some a.1 := by
  rw [dated, List.mem_filterMap]
  constructor
  · rintro ⟨p, hp, h⟩
    obtain ⟨ms, hms, rfl⟩ := Option.map_eq_some_iff.1 h
    exact ⟨hp, hms⟩
  · rintro ⟨hp, hms⟩
    exact ⟨a.2, hp, by rw [hms]; rfl⟩

/-- A sum over the points with a time. -/
theorem sum_dated (points : List TimelinePoint) (w : ℤ × TimelinePoint → ℕ) :
    ((dated date points).map w).sum =
      (points.map fun p => ((date.parse p.timestamp).map fun ms => w (ms, p)).getD 0).sum := by
  induction points with
  | nil => rfl
  | cons p points ih =>
      rw [dated, List.map_cons, List.sum_cons, ← ih]
      cases hparse : date.parse p.timestamp with
      | none =>
          rw [List.filterMap_cons_none (by rw [hparse]; rfl)]
          exact (Nat.zero_add _).symm
      | some ms =>
          rw [List.filterMap_cons_some (by rw [hparse]; rfl)]
          exact List.sum_cons

/-- What the map holds under a key: a point of its bucket and process. -/
def Stands (date : DateApi) (key : JsString) (v : TimelinePoint) : Prop :=
  ∃ b, date.toISOString b = some v.timestamp ∧ date.parse v.timestamp = some b ∧
    key = pointKey b v.processPath

theorem stands_merge (rangeHours : JsNumber) {points : List TimelinePoint} {a : ℤ × TimelinePoint}
    (ha : a ∈ dated date points) (o : Option TimelinePoint)
    (ho : ∀ v ∈ o, Stands date (datedKey (bucketMsFor rangeHours) a) v) :
    Stands date (datedKey (bucketMsFor rangeHours) a) (merge date (bucketMsFor rangeHours) a o) := by
  cases o with
  | some v => exact ho v rfl
  | none =>
      have hrange := bucketStart_range rangeHours (date.le_of_parse (mem_dated.1 ha).2)
      obtain ⟨iso, hiso, hparse⟩ := date.parse_toISOString hrange.1 hrange.2
      refine ⟨bucketStart (bucketMsFor rangeHours) a.1, ?_, ?_, rfl⟩
      · rw [merge, hiso]
        rfl
      · rw [merge, hiso]
        exact hparse

section Aggregated

variable {points aggregated : List TimelinePoint} {rangeHours : JsNumber}

/-- The aggregated points are those of the map. -/
theorem aggregated_perm (h : aggregateTimeline date points rangeHours = some aggregated) :
    aggregated.Perm ((tally (datedKey (bucketMsFor rangeHours)) (merge date (bucketMsFor rangeHours))
      (dated date points)).map Prod.snd) := by
  rw [aggregateTimeline, foldlM_mergePoint] at h
  obtain rfl := Option.some.inj h
  exact List.perm_insertionSort _ _

theorem aggregateTimeline_isSome (points : List TimelinePoint) (rangeHours : JsNumber) :
    ∃ aggregated, aggregateTimeline date points rangeHours = some aggregated := by
  rw [aggregateTimeline, foldlM_mergePoint]
  exact ⟨_, rfl⟩

/-- **There is an aggregated point for each bucket and process that has one,** and no other. -/
theorem exists_mem_aggregated_iff (h : aggregateTimeline date points rangeHours = some aggregated)
    {b : ℤ} {path : JsString} :
    (∃ v ∈ aggregated, date.parse v.timestamp = some b ∧ v.processPath = path) ↔
      ∃ p ∈ points, bucketOf date (bucketMsFor rangeHours) p = some b ∧ p.processPath = path := by
  have hstands : ∀ e ∈ tally (datedKey (bucketMsFor rangeHours)) (merge date (bucketMsFor rangeHours))
      (dated date points), Stands date e.1 e.2 :=
    forall_mem_tally fun a ha o => stands_merge rangeHours ha o
  constructor
  · rintro ⟨v, hv, hparse, rfl⟩
    obtain ⟨⟨key, v'⟩, he, rfl⟩ := List.mem_map.1 ((aggregated_perm h).mem_iff.1 hv)
    obtain ⟨b', -, hparse', hkey⟩ := hstands _ he
    obtain rfl := Option.some.inj (hparse.symm.trans hparse')
    have hentry : ∃ v, (key, v) ∈ tally (datedKey (bucketMsFor rangeHours))
        (merge date (bucketMsFor rangeHours)) (dated date points) := ⟨v', he⟩
    obtain ⟨a, ha, hakey⟩ := exists_mem_tally.1 hentry
    obtain ⟨hbucket, hpath⟩ := pointKey_inj (hakey.trans hkey)
    obtain ⟨hp, htime⟩ := mem_dated.1 ha
    exact ⟨a.2, hp, by rw [bucketOf, htime, Option.map_some, hbucket], hpath⟩
  · rintro ⟨p, hp, hbucket, rfl⟩
    obtain ⟨ms, hms, rfl⟩ := Option.map_eq_some_iff.1 hbucket
    have ha : (ms, p) ∈ dated date points := mem_dated.2 ⟨hp, hms⟩
    have hkey : ∃ a ∈ dated date points, datedKey (bucketMsFor rangeHours) a =
        datedKey (bucketMsFor rangeHours) (ms, p) := ⟨_, ha, rfl⟩
    obtain ⟨v, hv⟩ := (exists_mem_tally (f := merge date (bucketMsFor rangeHours))).2 hkey
    obtain ⟨b', -, hparse, hkey⟩ := hstands _ hv
    obtain ⟨hb, hpath⟩ := pointKey_inj hkey
    exact ⟨v, (aggregated_perm h).mem_iff.2 (List.mem_map_of_mem hv), by rw [hparse, hb], hpath.symm⟩

/-- **Aggregating keeps the traffic** of every selection of buckets and processes. -/
theorem traffic_aggregated (h : aggregateTimeline date points rangeHours = some aggregated)
    (q : Option ℤ → JsString → Bool) (hq : ∀ path, q none path = false) :
    traffic aggregated (fun v => q (date.parse v.timestamp) v.processPath) =
      traffic points fun p => q (bucketOf date (bucketMsFor rangeHours) p) p.processPath := by
  have hcounts : ∀ a ∈ dated date points, ∀ o : Option TimelinePoint,
      (∀ v ∈ o, Stands date (datedKey (bucketMsFor rangeHours) a) v) →
      (if q (date.parse (merge date (bucketMsFor rangeHours) a o).timestamp)
          (merge date (bucketMsFor rangeHours) a o).processPath then
        (merge date (bucketMsFor rangeHours) a o).bytes else 0) =
      (o.map fun v => if q (date.parse v.timestamp) v.processPath then v.bytes else 0).getD 0 +
        if q (bucketOf date (bucketMsFor rangeHours) a.2) a.2.processPath then a.2.bytes else 0 := by
    intro a ha o ho
    obtain ⟨b, -, hparse, hkey⟩ := stands_merge rangeHours ha o ho
    obtain ⟨rfl, hpath⟩ := pointKey_inj hkey
    have hbucket : bucketOf date (bucketMsFor rangeHours) a.2 =
        some (bucketStart (bucketMsFor rangeHours) a.1) := by
      rw [bucketOf, (mem_dated.1 ha).2, Option.map_some]
    rw [hparse, hbucket, ← hpath]
    cases o with
    | none => exact (Nat.zero_add _).symm
    | some v =>
        have hparse' : date.parse v.timestamp = some (bucketStart (bucketMsFor rangeHours) a.1) := hparse
        have hpath' : a.2.processPath = v.processPath := hpath
        rw [Option.map_some, Option.getD_some, hparse', ← hpath']
        split_ifs
        · show v.bytesSent + a.2.bytesSent + (v.bytesReceived + a.2.bytesReceived) =
            v.bytesSent + v.bytesReceived + (a.2.bytesSent + a.2.bytesReceived)
          omega
        · rfl
  have hsum := Lib.OrderedMap.sum_tally (l := dated date points)
    (g := fun e => if q (date.parse e.2.timestamp) e.2.processPath then e.2.bytes else 0)
    (fun a ha o => stands_merge rangeHours ha o) hcounts
  rw [traffic, traffic, sum_filter, sum_filter, ((aggregated_perm h).map _).sum_eq, List.map_map]
  refine hsum.trans ((sum_dated points _).trans (congrArg List.sum (List.map_congr_left fun p _ => ?_)))
  cases hparse : date.parse p.timestamp with
  | none =>
      simp only [bucketOf, hparse, Option.map_none, hq]
      rfl
  | some ms => rfl

end Aggregated

/-! ## The series -/

section Series

variable {points : List TimelinePoint}

theorem mem_axis {t : JsString} : t ∈ axis date points ↔ ∃ p ∈ points, p.timestamp = t := by
  rw [axis, (List.perm_insertionSort _ _).mem_iff, Lib.OrderedMap.mem_distinct, List.mem_map]

theorem nodup_axis (date : DateApi) (points : List TimelinePoint) : (axis date points).Nodup :=
  (List.perm_insertionSort _ _).nodup_iff.2 (Lib.OrderedMap.nodup_distinct _)

/-- The times on the axis do not go back. -/
theorem axis_sorted (h : ∀ p ∈ points, (date.parse p.timestamp).isSome) :
    ((axis date points).map fun t => (date.parse t).getD 0).Pairwise (· ≤ ·) := by
  have hparse : ∀ t ∈ distinct (points.map TimelinePoint.timestamp),
      ∃ ms, date.parse t = some ms := fun t ht => by
    obtain ⟨p, hp, rfl⟩ := List.mem_map.1 (Lib.OrderedMap.mem_distinct.1 ht)
    exact Option.isSome_iff_exists.1 (h p hp)
  have hmap : (axis date points).map (fun t => (date.parse t).getD 0) =
      ((distinct (points.map TimelinePoint.timestamp)).map fun t =>
        (date.parse t).getD 0).insertionSort (· ≤ ·) := by
    refine List.map_insertionSort _ _ _ _ fun s hs t ht => ?_
    obtain ⟨ms, hms⟩ := hparse s hs
    obtain ⟨ms', hms'⟩ := hparse t ht
    simp [timeLe, hms, hms']
  rw [hmap]
  exact List.pairwise_insertionSort _ _

theorem timeIndex_eq_some {t : JsString} {i : ℕ} :
    timeIndex (axis date points) t = some i ↔ (axis date points)[i]? = some t := by
  have hnodup : ((axis date points).zipIdx.map Prod.fst).Nodup := by
    rw [List.zipIdx_map_fst]
    exact nodup_axis date points
  rw [timeIndex, Lib.OrderedMap.lookup_eq_some hnodup, List.mk_mem_zipIdx_iff_getElem?]

/-- **A series holds the traffic of its points** at each time. -/
theorem getElem?_makeData (top rest : List (JsString × JsString × ℕ)) (path : Option JsString) {i : ℕ}
    {t : JsString} (ht : (axis date points)[i]? = some t) :
    (makeData date points top rest path)[i]? =
      some (traffic points fun p => !skips points top rest path p && p.timestamp == t) := by
  rw [makeData, getElem?_fill, List.getElem?_map, ht, Option.map_some, Option.map_some, Nat.zero_add,
    traffic, group]
  refine congrArg (fun l => some (List.map TimelinePoint.bytes l).sum) (List.filter_congr fun p _ => ?_)
  cases skips points top rest path p with
  | true => rfl
  | false =>
      rw [if_neg Bool.false_ne_true, Bool.not_false, Bool.true_and, Bool.eq_iff_iff,
        decide_eq_true_iff, timeIndex_eq_some, ht, Option.some.injEq, beq_iff_eq, eq_comm]

theorem length_makeData (top rest : List (JsString × JsString × ℕ)) (path : Option JsString) :
    (makeData date points top rest path).length = (axis date points).length := by
  rw [makeData, length_fill, List.length_map]

/-! ### The ranking -/

theorem ranked_perm (points : List TimelinePoint) : (ranked points).Perm (totals points) :=
  List.perm_insertionSort _ _

theorem nodup_ranked (points : List TimelinePoint) : ((ranked points).map Prod.fst).Nodup :=
  ((ranked_perm points).map _).nodup_iff.2 (Lib.OrderedMap.nodup_tally _ _ _)

theorem exists_mem_totals {path : JsString} :
    (∃ v, (path, v) ∈ totals points) ↔ ∃ p ∈ points, p.processPath = path :=
  exists_mem_tally

theorem exists_mem_ranked {path : JsString} :
    path ∈ (ranked points).map Prod.fst ↔ ∃ p ∈ points, p.processPath = path := by
  have hkeys : path ∈ (totals points).map Prod.fst ↔ ∃ v, (path, v) ∈ totals points := by
    rw [List.mem_map]
    exact ⟨fun ⟨e, he, h⟩ => ⟨e.2, h ▸ he⟩, fun ⟨v, h⟩ => ⟨_, h, rfl⟩⟩
  rw [((ranked_perm points).map _).mem_iff, hkeys, exists_mem_totals]

/-- **A total is the traffic of its process.** -/
theorem total_eq {e : JsString × JsString × ℕ} (he : e ∈ ranked points) :
    e.2.2 = traffic points fun p => p.processPath == e.1 := by
  have hvalue := Lib.OrderedMap.value_tally (l := points) (k := e.1) (v := e.2)
    (I := fun _ _ => True) (g := fun e => e.2.2) (w := TimelinePoint.bytes)
    (fun _ _ _ _ => trivial) (fun p _ o _ => by cases o <;> rfl) ((ranked_perm points).mem_iff.1 he)
  refine hvalue.trans (congrArg (fun l => (List.map TimelinePoint.bytes l).sum) ?_)
  exact List.filter_congr fun p _ => (beq_eq_decide _ _).symm

/-- Those that come first have the larger totals. -/
theorem ranked_le {k : ℕ} {e e' : JsString × JsString × ℕ} (he : e ∈ (ranked points).take k)
    (he' : e' ∈ (ranked points).drop k) : e'.2.2 ≤ e.2.2 := by
  have hsorted : (ranked points).Pairwise fun a b => b.2.2 ≤ a.2.2 := List.pairwise_insertionSort _ _
  rw [← List.take_append_drop k (ranked points)] at hsorted
  exact (List.pairwise_append.1 hsorted).2.2 e he e' he'

/-- A point is in the series of its process, or in that of the others. -/
theorem skips_some {top rest : List (JsString × JsString × ℕ)} {path : JsString} (p : TimelinePoint) :
    (!skips points top rest (some path) p) = (p.processPath == path) := Bool.not_not _

theorem skips_none {k : ℕ} {p : TimelinePoint} (hp : p ∈ points) :
    (!skips points ((ranked points).take k) ((ranked points).drop k) none p) =
      !(((ranked points).take k).map Prod.fst).contains p.processPath := by
  have hmem := exists_mem_ranked.2 ⟨p, hp, rfl⟩
  have hnodup := nodup_ranked points
  rw [← List.take_append_drop k (ranked points), List.map_append] at hmem hnodup
  have hany : ∀ l : List (JsString × JsString × ℕ),
      l.any (fun e => e.1 == p.processPath) = (l.map Prod.fst).contains p.processPath := fun l => by
    rw [Bool.eq_iff_iff, List.any_eq_true, List.contains_iff_mem, List.mem_map]
    exact exists_congr fun e => and_congr_right fun _ => beq_iff_eq
  have hknown : (lookup p.processPath (totals points)).isSome = true := by
    obtain ⟨v, hv⟩ := exists_mem_totals.2 ⟨p, hp, rfl⟩
    exact Option.isSome_iff_exists.2
      ⟨v, (Lib.OrderedMap.lookup_eq_some (Lib.OrderedMap.nodup_tally _ _ _)).2 hv⟩
  rw [skips, hknown, hany, hany, Bool.true_and]
  by_cases htop : p.processPath ∈ ((ranked points).take k).map Prod.fst
  · rw [List.contains_iff_mem.2 htop]
    rfl
  · have hrest : p.processPath ∈ ((ranked points).drop k).map Prod.fst :=
      (List.mem_append.1 hmem).resolve_left htop
    rw [List.contains_iff_mem.2 hrest, Bool.not_true, Bool.or_false]

/-- The traffic of some processes is that of each of them. -/
theorem sum_traffic {paths : List JsString} (hpaths : paths.Nodup) (q : TimelinePoint → Bool) :
    (paths.map fun path => traffic points fun p => p.processPath == path && q p).sum =
      traffic points fun p => paths.contains p.processPath && q p := by
  have hsum : ∑ path ∈ paths.toFinset, ((group TimelinePoint.processPath (points.filter q) path).map
      TimelinePoint.bytes).sum = _ := sum_groups paths.toFinset TimelinePoint.bytes (points.filter q)
  rw [List.sum_toFinset _ hpaths] at hsum
  have hgroup : ∀ path, ((group TimelinePoint.processPath (points.filter q) path).map
      TimelinePoint.bytes).sum = traffic points fun p => p.processPath == path && q p := fun path => by
    rw [group, List.filter_filter, traffic]
    refine congrArg (fun l => (List.map TimelinePoint.bytes l).sum) (List.filter_congr fun p _ => ?_)
    rw [beq_eq_decide]
  rw [List.map_congr_left fun path _ => hgroup path] at hsum
  rw [hsum, List.filter_filter, traffic]
  refine congrArg (fun l => (List.map TimelinePoint.bytes l).sum) (List.filter_congr fun p _ => ?_)
  rw [Bool.eq_iff_iff, Bool.and_eq_true, Bool.and_eq_true, decide_eq_true_iff, List.mem_toFinset,
    List.contains_iff_mem]

/-- Traffic is that of some processes and that of the others. -/
theorem traffic_add (paths : List JsString) (q : TimelinePoint → Bool) :
    (traffic points fun p => paths.contains p.processPath && q p) +
      (traffic points fun p => !paths.contains p.processPath && q p) = traffic points q := by
  have hsplit := sum_filter_add (fun p => paths.contains p.processPath) TimelinePoint.bytes
    (points.filter q)
  rw [List.filter_filter, List.filter_filter] at hsplit
  exact hsplit

/-- The series without the case of no points, which makes no difference. -/
theorem buildStackedTrafficSeries_eq (points : List TimelinePoint) (topN : JsNumber) :
    ∃ k, k = topN.sliceIndex (ranked points).length ∧
      buildStackedTrafficSeries date points topN =
        ⟨axis date points,
          namedSeries date points ((ranked points).take k) ((ranked points).drop k) ++
            othersSeries date points ((ranked points).take k) ((ranked points).drop k)⟩ := by
  refine ⟨_, rfl, ?_⟩
  by_cases hnil : points = []
  · subst hnil
    have hranked : ranked [] = [] := rfl
    rw [buildStackedTrafficSeries, if_pos rfl, hranked, List.take_nil, List.drop_nil]
    rfl
  · rw [buildStackedTrafficSeries, if_neg hnil]

section Data

variable {k i : ℕ} {t : JsString}

theorem path_namedSeries (date : DateApi) (points : List TimelinePoint)
    (top rest : List (JsString × JsString × ℕ)) :
    (namedSeries date points top rest).map Series.path = top.map Prod.fst := by
  rw [namedSeries, List.map_map]
  rfl

theorem data_namedSeries (ht : (axis date points)[i]? = some t)
    {top rest : List (JsString × JsString × ℕ)} {s : Series}
    (hs : s ∈ namedSeries date points top rest) :
    s.data[i]? = some (traffic points fun p => p.processPath == s.path && p.timestamp == t) := by
  obtain ⟨e, -, rfl⟩ := List.mem_map.1 hs
  rw [getElem?_makeData _ _ _ ht]
  simp only [skips_some]

theorem data_othersSeries (ht : (axis date points)[i]? = some t) {s : Series}
    (hs : s ∈ othersSeries date points ((ranked points).take k) ((ranked points).drop k)) :
    s.data[i]? = some (traffic points fun p =>
      !(((ranked points).take k).map Prod.fst).contains p.processPath && p.timestamp == t) := by
  rw [othersSeries] at hs
  split_ifs at hs
  · obtain rfl := List.mem_singleton.1 hs
    rw [getElem?_makeData _ _ _ ht, traffic, traffic]
    refine congrArg (fun l => some (List.map TimelinePoint.bytes l).sum)
      (List.filter_congr fun p hp => ?_)
    rw [skips_none hp]
  · nomatch hs

/-- **At each time the series add up to all traffic.** -/
theorem sum_series (ht : (axis date points)[i]? = some t) :
    ((namedSeries date points ((ranked points).take k) ((ranked points).drop k) ++
        othersSeries date points ((ranked points).take k) ((ranked points).drop k)).map
      fun s => s.data.getD i 0).sum = traffic points fun p => p.timestamp == t := by
  have hnodup : (((ranked points).take k).map Prod.fst).Nodup := by
    have h := nodup_ranked points
    rw [← List.take_append_drop k (ranked points), List.map_append] at h
    exact h.of_append_left
  have hnamed : ((namedSeries date points ((ranked points).take k) ((ranked points).drop k)).map
      fun s => s.data.getD i 0).sum = traffic points fun p =>
        (((ranked points).take k).map Prod.fst).contains p.processPath && p.timestamp == t := by
    rw [← sum_traffic hnodup, ← path_namedSeries date points _ ((ranked points).drop k),
      List.map_map]
    refine congrArg List.sum (List.map_congr_left fun s hs => ?_)
    rw [List.getD_eq_getElem?_getD, data_namedSeries ht hs]
    rfl
  have hothers : ((othersSeries date points ((ranked points).take k) ((ranked points).drop k)).map
      fun s => s.data.getD i 0).sum = traffic points fun p =>
        !(((ranked points).take k).map Prod.fst).contains p.processPath && p.timestamp == t := by
    by_cases hrest : ((ranked points).drop k).length > 0
    · have hdata := fun s hs => data_othersSeries (k := k) (s := s) ht hs
      rw [othersSeries, if_pos hrest] at hdata ⊢
      rw [List.map_singleton, List.sum_singleton, List.getD_eq_getElem?_getD,
        hdata _ (List.mem_singleton_self _)]
      rfl
    · rw [othersSeries, if_neg hrest, traffic, List.filter_eq_nil_iff.2]
      · rfl
      · intro p hp
        have hall : (ranked points).take k = ranked points :=
          List.take_of_length_le (by rw [List.length_drop] at hrest; omega)
        rw [hall, List.contains_iff_mem.2 (exists_mem_ranked.2 ⟨p, hp, rfl⟩)]
        exact Bool.false_ne_true
  rw [List.map_append, List.sum_append, hnamed, hothers, traffic_add]

end Data

end Series

/-! ## The chart -/

theorem sliceIndex_finite {q : ℚ} (hq : 0 ≤ q) (length : ℕ) :
    (JsNumber.finite q).sliceIndex length = min ⌊q⌋₊ length := by
  have hfloor : ¬ ⌊q⌋ < 0 := not_lt.2 (Int.floor_nonneg.2 hq)
  rw [JsNumber.sliceIndex, if_pos hq, if_neg hfloor, Int.floor_toNat]

/-- How many of the processes are named. -/
def IsCut (topN : JsNumber) (processes named : ℕ) : Prop :=
  match topN with
  | .finite q => 0 ≤ q → named = min ⌊q⌋₊ processes
  | .infinity => named = processes
  | _ => True

/-- The series are those of the processes with the largest totals, and that of all others. -/
structure Ranks (date : DateApi) (points : List TimelinePoint) (bucketMs : ℤ) (topN : JsNumber)
    (timestamps : List JsString) (named others : List Series) : Prop where
  nodup : (named.map Series.path).Nodup
  cut : IsCut topN (distinct ((points.filter fun p =>
    (bucketOf date bucketMs p).isSome).map TimelinePoint.processPath)).length named.length
  process : ∀ s ∈ named, ∃ p ∈ points, (bucketOf date bucketMs p).isSome ∧ p.processPath = s.path
  largest : ∀ s ∈ named, ∀ p ∈ points, (bucketOf date bucketMs p).isSome →
    p.processPath ∉ named.map Series.path →
      (traffic points fun p' => p'.processPath == p.processPath && (bucketOf date bucketMs p').isSome) ≤
        traffic points fun p' => p'.processPath == s.path && (bucketOf date bucketMs p').isSome
  namedData : ∀ s ∈ named, ∀ (i : ℕ) (t : JsString) (b : ℤ), timestamps[i]? = some t →
    date.parse t = some b → s.data[i]? = some (traffic points fun p =>
      p.processPath == s.path && bucketOf date bucketMs p == some b)
  othersData : ∀ s ∈ others, ∀ (i : ℕ) (t : JsString) (b : ℤ), timestamps[i]? = some t →
    date.parse t = some b → s.data[i]? = some (traffic points fun p =>
      !(named.map Series.path).contains p.processPath && bucketOf date bucketMs p == some b)
  others_le : others.length ≤ 1

/-- What the chart shows is the traffic of the points. -/
structure ConservesTraffic (date : DateApi) (points : List TimelinePoint) (rangeHours topN : JsNumber)
    (out : StackedSeries) : Prop where
  increasing : ∃ times : List ℤ, out.timestamps.map date.parse = times.map some ∧ times.Pairwise (· < ·) ∧
    ∀ b, b ∈ times ↔ ∃ p ∈ points, bucketOf date (bucketMsFor rangeHours) p = some b
  nodup : out.timestamps.Nodup
  aligned : ∀ s ∈ out.series, s.data.length = out.timestamps.length
  conserved : ∀ (i : ℕ) (t : JsString) (b : ℤ), out.timestamps[i]? = some t → date.parse t = some b →
    (out.series.map fun s => s.data.getD i 0).sum =
      traffic points fun p => bucketOf date (bucketMsFor rangeHours) p == some b
  ranks : ∃ named others, out.series = named ++ others ∧
    Ranks date points (bucketMsFor rangeHours) topN out.timestamps named others

section Chart

variable {points aggregated : List TimelinePoint} {rangeHours : JsNumber}
  (h : aggregateTimeline date points rangeHours = some aggregated)

include h

/-- The timestamps of the aggregated points are those of their times. -/
theorem toISOString_aggregated {v : TimelinePoint} (hv : v ∈ aggregated) :
    ∃ b, date.toISOString b = some v.timestamp ∧ date.parse v.timestamp = some b := by
  have hstands : ∀ e ∈ tally (datedKey (bucketMsFor rangeHours)) (merge date (bucketMsFor rangeHours))
      (dated date points), Stands date e.1 e.2 :=
    forall_mem_tally fun a ha o => stands_merge rangeHours ha o
  obtain ⟨e, he, rfl⟩ := List.mem_map.1 ((aggregated_perm h).mem_iff.1 hv)
  obtain ⟨b, hiso, hparse, -⟩ := hstands e he
  exact ⟨b, hiso, hparse⟩

/-- The traffic at a time of the axis is that of its bucket. -/
theorem traffic_at {t : JsString} {b : ℤ} (ht : t ∈ axis date aggregated)
    (hb : date.parse t = some b) (c : JsString → Bool) :
    (traffic aggregated fun v => c v.processPath && v.timestamp == t) =
      traffic points fun p => c p.processPath &&
        bucketOf date (bucketMsFor rangeHours) p == some b := by
  have hkeep := traffic_aggregated h (fun o path => c path && o == some b) fun path => by
    rw [Bool.and_eq_false_iff]
    exact .inr (beq_eq_false_iff_ne.2 (Option.some_ne_none b).symm)
  rw [← hkeep, traffic, traffic]
  refine congrArg (fun l => (List.map TimelinePoint.bytes l).sum) (List.filter_congr fun v hv => ?_)
  congr 1
  rw [Bool.eq_iff_iff, beq_iff_eq, beq_iff_eq]
  refine ⟨fun hsame => hsame ▸ hb, fun hparse => ?_⟩
  obtain ⟨u, hu, rfl⟩ := mem_axis.1 ht
  obtain ⟨b₁, hiso, hparse₁⟩ := toISOString_aggregated h hv
  obtain ⟨b₂, hiso', hparse₂⟩ := toISOString_aggregated h hu
  obtain rfl := Option.some.inj (hparse₁.symm.trans hparse)
  obtain rfl := Option.some.inj (hparse₂.symm.trans hb)
  exact Option.some.inj (hiso.symm.trans hiso')

/-- The totals of the aggregated points are those of the points. -/
theorem traffic_process (path : JsString) :
    (traffic aggregated fun v => v.processPath == path) = traffic points fun p =>
      p.processPath == path && (bucketOf date (bucketMsFor rangeHours) p).isSome := by
  rw [← traffic_aggregated h (fun o path' => path' == path && o.isSome) fun path' =>
    Bool.and_false _, traffic, traffic]
  refine congrArg (fun l => (List.map TimelinePoint.bytes l).sum) (List.filter_congr fun v hv => ?_)
  obtain ⟨b, -, hparse⟩ := toISOString_aggregated h hv
  rw [hparse, Option.isSome_some, Bool.and_true]

theorem exists_mem_ranked_iff {path : JsString} :
    path ∈ (ranked aggregated).map Prod.fst ↔ ∃ p ∈ points,
      (bucketOf date (bucketMsFor rangeHours) p).isSome ∧ p.processPath = path := by
  rw [exists_mem_ranked]
  constructor
  · rintro ⟨v, hv, rfl⟩
    obtain ⟨b, -, hparse⟩ := toISOString_aggregated h hv
    obtain ⟨p, hp, hbucket, hpath⟩ := (exists_mem_aggregated_iff h).1 ⟨v, hv, hparse, rfl⟩
    exact ⟨p, hp, by rw [hbucket, Option.isSome_some], hpath⟩
  · rintro ⟨p, hp, hsome, rfl⟩
    obtain ⟨b, hb⟩ := Option.isSome_iff_exists.1 hsome
    obtain ⟨v, hv, -, hpath⟩ := (exists_mem_aggregated_iff h).2 ⟨p, hp, hb, rfl⟩
    exact ⟨v, hv, hpath⟩

theorem length_ranked : (ranked aggregated).length = (distinct ((points.filter fun p =>
    (bucketOf date (bucketMsFor rangeHours) p).isSome).map TimelinePoint.processPath)).length := by
  rw [← List.length_map (f := Prod.fst)]
  refine ((List.perm_ext_iff_of_nodup (nodup_ranked _) (Lib.OrderedMap.nodup_distinct _)).2
    fun path => ?_).length_eq
  rw [exists_mem_ranked_iff h, Lib.OrderedMap.mem_distinct, List.mem_map]
  exact exists_congr fun p => by rw [List.mem_filter, and_assoc]

theorem axis_increasing : ∃ times : List ℤ, (axis date aggregated).map date.parse = times.map some ∧
    times.Pairwise (· < ·) ∧
      ∀ b, b ∈ times ↔ ∃ p ∈ points, bucketOf date (bucketMsFor rangeHours) p = some b := by
  have hparse : ∀ t ∈ axis date aggregated, ∃ b, date.toISOString b = some t ∧ date.parse t = some b :=
    fun t ht => by
      obtain ⟨v, hv, rfl⟩ := mem_axis.1 ht
      exact toISOString_aggregated h hv
  have htimes : (axis date aggregated).map date.parse =
      ((axis date aggregated).map fun t => (date.parse t).getD 0).map some := by
    rw [List.map_map]
    refine List.map_congr_left fun t ht => ?_
    obtain ⟨b, -, hb⟩ := hparse t ht
    show date.parse t = some ((date.parse t).getD 0)
    rw [hb, Option.getD_some]
  have hne : ((axis date aggregated).map fun t => (date.parse t).getD 0).Nodup := by
    refine List.Nodup.map_on (fun t ht t' ht' hsame => ?_) (nodup_axis date aggregated)
    obtain ⟨b, hiso, hb⟩ := hparse t ht
    obtain ⟨b', hiso', hb'⟩ := hparse t' ht'
    rw [hb, hb', Option.getD_some, Option.getD_some] at hsame
    subst hsame
    exact Option.some.inj (hiso.symm.trans hiso')
  have hsome : ∀ v ∈ aggregated, (date.parse v.timestamp).isSome := fun v hv => by
    obtain ⟨b, -, hb⟩ := toISOString_aggregated h hv
    rw [hb, Option.isSome_some]
  have hle := axis_sorted hsome
  refine ⟨_, htimes, (hle.and hne).imp fun hboth => lt_of_le_of_ne hboth.1 hboth.2, fun b => ?_⟩
  have hmem : b ∈ (axis date aggregated).map (fun t => (date.parse t).getD 0) ↔
      ∃ t ∈ axis date aggregated, date.parse t = some b := by
    rw [List.mem_map]
    refine exists_congr fun t => and_congr_right fun ht => ?_
    obtain ⟨b', -, hb'⟩ := hparse t ht
    rw [hb', Option.getD_some, Option.some.injEq]
  rw [hmem]
  constructor
  · rintro ⟨t, ht, hb⟩
    obtain ⟨v, hv, rfl⟩ := mem_axis.1 ht
    obtain ⟨p, hp, hbucket, -⟩ := (exists_mem_aggregated_iff h).1 ⟨v, hv, hb, rfl⟩
    exact ⟨p, hp, hbucket⟩
  · rintro ⟨p, hp, hbucket⟩
    obtain ⟨v, hv, hb, -⟩ := (exists_mem_aggregated_iff h).2 ⟨p, hp, hbucket, rfl⟩
    exact ⟨v.timestamp, mem_axis.2 ⟨v, hv, rfl⟩, hb⟩

/-- The series of the first `k` processes and that of the others. -/
theorem ranks_series {topN : JsNumber} {k : ℕ} (hk : k = topN.sliceIndex (ranked aggregated).length) :
    Ranks date points (bucketMsFor rangeHours) topN (axis date aggregated)
      (namedSeries date aggregated ((ranked aggregated).take k) ((ranked aggregated).drop k))
      (othersSeries date aggregated ((ranked aggregated).take k) ((ranked aggregated).drop k)) := by
  have hnodup := nodup_ranked aggregated
  rw [← List.take_append_drop k (ranked aggregated), List.map_append] at hnodup
  have hpath := path_namedSeries date aggregated ((ranked aggregated).take k)
    ((ranked aggregated).drop k)
  have hentry : ∀ s ∈ namedSeries date aggregated ((ranked aggregated).take k)
      ((ranked aggregated).drop k), ∃ e ∈ (ranked aggregated).take k, e.1 = s.path := fun s hs => by
    obtain ⟨e, he, rfl⟩ := List.mem_map.1 hs
    exact ⟨e, he, rfl⟩
  have hmem : ∀ {t : JsString} {i : ℕ}, (axis date aggregated)[i]? = some t → t ∈ axis date aggregated :=
    fun ht => List.mem_of_getElem? ht
  constructor
  case nodup =>
    rw [hpath]
    exact hnodup.of_append_left
  case cut =>
    have hlen : (namedSeries date aggregated ((ranked aggregated).take k)
        ((ranked aggregated).drop k)).length = min k (ranked aggregated).length := by
      rw [namedSeries, List.length_map, List.length_take]
    rw [← length_ranked h, hlen, hk]
    cases topN with
    | nan => trivial
    | negInfinity => trivial
    | finite q =>
        intro hq
        rw [sliceIndex_finite hq, min_assoc, min_self]
    | infinity => exact min_self _
  case process =>
    intro s hs
    obtain ⟨e, he, hes⟩ := hentry s hs
    rw [← hes]
    exact (exists_mem_ranked_iff h).1 (List.mem_map_of_mem (List.mem_of_mem_take he))
  case largest =>
    intro s hs p hp hbucket hnot
    obtain ⟨e, he, hes⟩ := hentry s hs
    have hranked := (exists_mem_ranked_iff h).2 ⟨p, hp, hbucket, rfl⟩
    rw [← List.take_append_drop k (ranked aggregated), List.map_append, List.mem_append,
      ← hpath] at hranked
    obtain ⟨e', he', hep⟩ := List.mem_map.1 (hranked.resolve_left hnot)
    rw [← traffic_process h, ← traffic_process h, ← hes, ← hep,
      ← total_eq (List.mem_of_mem_take he), ← total_eq (List.mem_of_mem_drop he')]
    exact ranked_le he he'
  case namedData =>
    intro s hs i t b ht hb
    rw [data_namedSeries ht hs]
    exact congrArg some (traffic_at h (hmem ht) hb fun path => path == s.path)
  case othersData =>
    intro s hs i t b ht hb
    rw [data_othersSeries ht hs, hpath]
    exact congrArg some (traffic_at h (hmem ht) hb fun path =>
      !(((ranked aggregated).take k).map Prod.fst).contains path)
  case others_le =>
    rw [othersSeries]
    split_ifs
    · exact le_refl 1
    · exact Nat.zero_le 1

end Chart

/-- **The chart shows all traffic once:** its times increase, its series are as long as the time axis,
at each time they add up to the traffic of that bucket, and the named ones are those of the processes
with the largest totals. -/
theorem series_conserveTraffic (date : DateApi) (points : List TimelinePoint)
    (rangeHours topN : JsNumber) :
    ∃ aggregated, aggregateTimeline date points rangeHours = some aggregated ∧
      ConservesTraffic date points rangeHours topN
        (buildStackedTrafficSeries date aggregated topN) := by
  obtain ⟨aggregated, h⟩ := aggregateTimeline_isSome points rangeHours
  obtain ⟨k, hk, hout⟩ := buildStackedTrafficSeries_eq aggregated topN
  refine ⟨aggregated, h, ?_⟩
  rw [hout]
  constructor
  case increasing => exact axis_increasing h
  case nodup => exact nodup_axis date aggregated
  case aligned =>
    intro s hs
    rcases List.mem_append.1 hs with hs | hs
    · obtain ⟨e, -, rfl⟩ := List.mem_map.1 hs
      exact length_makeData _ _ _
    · rw [othersSeries] at hs
      split_ifs at hs
      · obtain rfl := List.mem_singleton.1 hs
        exact length_makeData _ _ _
      · nomatch hs
  case conserved =>
    intro i t b ht hb
    have hat := traffic_at h (List.mem_of_getElem? ht) hb fun _ => true
    rw [sum_series ht]
    exact hat
  case ranks => exact ⟨_, _, rfl, ranks_series h hk⟩

/-- There is a `Date` to draw with: two points of one bucket, and one of another process. -/
theorem series_conserveTraffic_iso :
    ∃ aggregated, aggregateTimeline isoDate
        [⟨js "2026-07-01T10:05:00.000Z".toList, js "a.exe".toList, none, 3, 4⟩,
          ⟨js "2026-07-01T10:50:00.000Z".toList, js "a.exe".toList, none, 1, 0⟩,
          ⟨js "2026-07-01T11:00:00.000Z".toList, js "b.exe".toList, none, 5, 5⟩] (.finite 24) =
        some aggregated ∧
      ConservesTraffic isoDate
        [⟨js "2026-07-01T10:05:00.000Z".toList, js "a.exe".toList, none, 3, 4⟩,
          ⟨js "2026-07-01T10:50:00.000Z".toList, js "a.exe".toList, none, 1, 0⟩,
          ⟨js "2026-07-01T11:00:00.000Z".toList, js "b.exe".toList, none, 5, 5⟩] (.finite 24) (.finite 1)
        (buildStackedTrafficSeries isoDate aggregated (.finite 1)) :=
  series_conserveTraffic isoDate _ _ _

end Gui
end Ceasefire
