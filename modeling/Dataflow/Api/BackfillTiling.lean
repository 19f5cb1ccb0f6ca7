import Dataflow.Api.BackfillPlanning
import Dataflow.Library.Results
import Mathlib

/-!
# The partitions of a plan

A plan cuts its window at whole numbers of days from its start. Its last partition is clipped to the
end of the window.

* `Times.FixedOffset`: a location where every day has 24 hours.
* `evenTiles_partitionsFrom`, `exists_partitionsFrom_iff`: what the loop gives, and when it stays
  within its limit.
* `CutsWindow`, **`planBackfill_cuts`**: the partitions of a plan, and for which windows there is
  one.

Source: `backfills.go` `planBackfill`
-/

namespace Dataflow.Api.BackfillPlanning

open Activities Connectors Library Model

/-! ## Days -/

/-- The nanoseconds of a day. -/
def nanosPerDay : ℤ := 24 * 60 * 60 * 10 ^ 9

/-- **The location is at a fixed offset from UTC**, as UTC itself is and the location of a time that
is parsed with another offset than that of the host. There `AddDate(0, 0, days)` adds 24 hours for a
day; where the clock is changed twice a year a day of the calendar may have 23 or 25. -/
def Times.FixedOffset (times : Times) (location : String) : Prop :=
  ∀ time : GoTime, time.location = location → ∀ days,
    times.addDays time days = { time with instant := time.instant + days * nanosPerDay }

section plan

variable {times : Times} {formatting : Formatting} {input : JsonMap} {plan : BackfillPlan} {start stop : GoTime}
  {rangeEnd days maxConcurrency : ℤ} {left : ℕ} {cursor : GoTime} {partitions : List (ℤ × ℤ)}

/-! ## The loop -/

/-- The loop stops at the end of the window. -/
theorem partitionsFrom_of_le (hle : rangeEnd ≤ cursor.instant) :
    partitionsFrom times rangeEnd days left cursor = .ok [] := by
  cases left with
  | zero | succ left => rw [partitionsFrom, if_neg (not_lt.mpr hle)]

/-- **A step of the loop**: one partition, and what the loop gives from the next cursor. -/
theorem partitionsFrom_succ_iff (hzone : times.FixedOffset cursor.location)
    (hlt : cursor.instant < rangeEnd) :
    partitionsFrom times rangeEnd days (left + 1) cursor = .ok partitions ↔
      ∃ rest, partitionsFrom times rangeEnd days left
          { cursor with instant := cursor.instant + days * nanosPerDay } = .ok rest ∧
        partitions = (cursor.instant, min (cursor.instant + days * nanosPerDay) rangeEnd) :: rest := by
  rw [partitionsFrom, if_pos hlt, hzone cursor rfl days, map_eq_ok]
  simp only [eq_comm]

/-- **The loop cuts** what is left of the window at whole numbers of days. -/
theorem evenTiles_partitionsFrom (hzone : times.FixedOffset cursor.location)
    (h : partitionsFrom times rangeEnd days left cursor = .ok partitions)
    (hlt : cursor.instant < rangeEnd) :
    EvenTiles (days * nanosPerDay) cursor.instant rangeEnd partitions := by
  induction left generalizing cursor partitions with
  | zero =>
    simp [partitionsFrom, if_pos hlt] at h
  | succ left ih =>
    obtain ⟨rest, hrest, rfl⟩ := (partitionsFrom_succ_iff hzone hlt).mp h
    rcases lt_or_ge (cursor.instant + days * nanosPerDay) rangeEnd with hnext | hnext
    · rw [min_eq_left hnext.le]
      exact .cons hnext (ih (by exact hzone) hrest hnext)
    · rw [partitionsFrom_of_le hnext] at hrest
      obtain rfl := Except.ok.inj hrest
      rw [min_eq_right hnext]
      exact .last hlt hnext

/-- **The loop stays within its limit** iff so many partitions reach the end of the window. -/
theorem exists_partitionsFrom_iff (hzone : times.FixedOffset cursor.location) (hdays : 0 < days) :
    (∃ partitions, partitionsFrom times rangeEnd days left cursor = .ok partitions) ↔ rangeEnd ≤ cursor.instant + left • (days * nanosPerDay) := by
  induction left generalizing cursor with
  | zero =>
    rw [partitionsFrom, zero_nsmul, add_zero]
    split_ifs with hlt
    · exact iff_of_false nofun (not_le.mpr hlt)
    · exact iff_of_true ⟨[], rfl⟩ (not_lt.mp hlt)
  | succ left ih =>
    have hwidth : 0 < days * nanosPerDay := mul_pos hdays (by decide)
    rcases lt_or_ge cursor.instant rangeEnd with hlt | hle
    · simp only [partitionsFrom_succ_iff hzone hlt]
      rw [succ_nsmul', ← add_assoc]
      refine Iff.trans ?_ (@ih { cursor with instant := cursor.instant + days * nanosPerDay } hzone)
      simp
    · refine iff_of_true ⟨[], partitionsFrom_of_le hle⟩ (hle.trans ?_)
      exact le_add_of_nonneg_right (nsmul_nonneg hwidth.le _)

/-! ## The plan -/

/-- **A window is cut** into partitions of one width: none is empty, they follow one another without
a gap and have no instant in common, the first one starts and the last one stops with the window,
and all but the last have the width. -/
structure CutsWindow (rangeStart rangeEnd width : ℤ) (partitions : List (ℤ × ℤ)) : Prop where
  nonempty : ∀ partition ∈ partitions, partition.1 < partition.2
  contiguous : partitions.IsChain fun partition next => partition.2 = next.1
  disjoint : partitions.Pairwise fun partition other =>
    Disjoint (Set.Ico partition.1 partition.2) (Set.Ico other.1 other.2)
  first : partitions.head?.map Prod.fst = some rangeStart
  last : partitions.getLast?.map Prod.snd = some rangeEnd
  spans : ∀ partition ∈ partitions.dropLast, partition.2 = partition.1 + width

theorem cutsWindow_of_evenTiles {rangeStart width : ℤ} (hwidth : 0 < width)
    (h : EvenTiles width rangeStart rangeEnd partitions) :
    CutsWindow rangeStart rangeEnd width partitions := by
  have htiles := h.toTiles hwidth
  refine ⟨fun partition hmem => (htiles.subset hmem).2.1, h.isChain, ?_, h.head?, h.getLast?,
    fun partition hmem => h.width hmem⟩
  have hapart : partitions.Pairwise fun partition other => ∀ instant : ℤ,
      within some partition instant = true → within some other instant = false := htiles.disjoint
  apply hapart.imp
  intro partition other hapart
  rw [Set.disjoint_left]
  intro instant hmem hother
  have hnot := hapart instant (within_iff.mpr ⟨instant, rfl, hmem⟩)
  simp [within_iff.mpr ⟨instant, rfl, hother⟩] at hnot

/-- The partitions that a window needs. -/
def partitionsNeeded (rangeStart rangeEnd days : ℤ) : ℤ :=
  ⌈((rangeEnd - rangeStart : ℤ) : ℚ) / ((days * nanosPerDay : ℤ) : ℚ)⌉

theorem partitionsNeeded_le_iff {rangeStart : ℤ} (hdays : 0 < days) (n : ℕ) :
    partitionsNeeded rangeStart rangeEnd days ≤ n ↔
      rangeEnd ≤ rangeStart + n • (days * nanosPerDay) := by
  have hwidth : 0 < days * nanosPerDay := mul_pos hdays (by decide)
  rw [partitionsNeeded, Int.ceil_le, div_le_iff₀ (by exact_mod_cast hwidth)]
  rw [nsmul_eq_mul]
  constructor
  · intro h
    have hcast : rangeEnd - rangeStart ≤ n * (days * nanosPerDay) := by exact_mod_cast h
    linarith
  · intro h
    have hcast : rangeEnd - rangeStart ≤ n * (days * nanosPerDay) := by linarith
    exact_mod_cast hcast

/-- A request for a plan: two timestamps, and the numbers of days and of concurrent runs. -/
structure PlanRequest (times : Times) (formatting : Formatting) (input : JsonMap) where
  start : GoTime
  stop : GoTime
  partitionDays : ℤ
  maxConcurrency : ℤ
  parsesStart : times.parse (stringValue formatting (input.get "from")) = some start
  parsesStop : times.parse (stringValue formatting (input.get "to")) = some stop
  readsDays : truncate (numberValue (input.get "partitionDays") 1) = partitionDays
  readsConcurrency : truncate (numberValue (input.get "maxConcurrency") 1) = maxConcurrency
  days_bounds : 1 ≤ partitionDays ∧ partitionDays ≤ 31
  concurrency_bounds : 1 ≤ maxConcurrency ∧ maxConcurrency ≤ 5

/-- What a request is given. -/
theorem planBackfill_eq (request : PlanRequest times formatting input) :
    planBackfill times formatting input = if ¬ request.start.instant < request.stop.instant then
        .error "from and to must be valid ISO timestamps with from before to"
      else
        (partitionsFrom times request.stop.instant request.partitionDays 366 request.start).map
          fun partitions => ⟨request.start.instant, request.stop.instant, request.partitionDays,
            request.maxConcurrency, partitions⟩ := by
  have hdays := request.days_bounds
  have hconcurrency := request.concurrency_bounds
  rw [planBackfill, request.parsesStart, request.parsesStop]
  dsimp only
  rw [request.readsDays, request.readsConcurrency, if_neg (by omega : ¬ (_ ∨ _)),
    if_neg (by omega : ¬ (_ ∨ _))]

/-- **A plan cuts its window.** For every two timestamps, from one to 31 days and one to five
concurrent runs there is a plan iff the window is not empty and needs at most 366 partitions; its
partitions are as many as that, and they cut the window at whole numbers of days. The first
timestamp is in UTC or at a fixed offset from it. -/
theorem planBackfill_cuts (times : Times) (formatting : Formatting) (input : JsonMap)
    (request : PlanRequest times formatting input)
    (hzone : times.FixedOffset request.start.location) :
    ((∃ plan, planBackfill times formatting input = .ok plan) ↔
      request.start.instant < request.stop.instant ∧
        partitionsNeeded request.start.instant request.stop.instant request.partitionDays ≤ 366) ∧
    ∀ plan, planBackfill times formatting input = .ok plan →
      plan.partitionDays = request.partitionDays ∧ plan.maxConcurrency = request.maxConcurrency ∧
        plan.rangeStart = request.start.instant ∧ plan.rangeEnd = request.stop.instant ∧
        plan.partitions.length =
          partitionsNeeded request.start.instant request.stop.instant request.partitionDays ∧
        CutsWindow request.start.instant request.stop.instant (request.partitionDays * nanosPerDay)
          plan.partitions := by
  have hdays : 0 < request.partitionDays := by
    have := request.days_bounds
    omega
  have hwidth : 0 < request.partitionDays * nanosPerDay := mul_pos hdays (by decide)
  rw [planBackfill_eq request]
  by_cases hlt : request.start.instant < request.stop.instant
  · rw [if_neg (not_not.mpr hlt)]
    have hlimit :
        partitionsNeeded request.start.instant request.stop.instant request.partitionDays ≤
        366 ↔ _ := partitionsNeeded_le_iff hdays 366
    rw [hlimit]
    constructor
    · rw [← exists_partitionsFrom_iff hzone hdays]
      constructor
      · rintro ⟨plan, hplan⟩
        obtain ⟨partitions, hpartitions, -⟩ := map_eq_ok.mp hplan
        exact ⟨hlt, partitions, hpartitions⟩
      · rintro ⟨-, partitions, hpartitions⟩
        rw [hpartitions]
        exact ⟨_, rfl⟩
    · intro plan hplan
      obtain ⟨partitions, hpartitions, rfl⟩ := map_eq_ok.mp hplan
      have htiles := evenTiles_partitionsFrom hzone hpartitions hlt
      refine ⟨rfl, rfl, rfl, rfl, ?_, cutsWindow_of_evenTiles hwidth htiles⟩
      apply le_antisymm
      · have hneeded : 0 ≤ partitionsNeeded request.start.instant request.stop.instant
            request.partitionDays := by
          apply Int.ceil_nonneg
          apply div_nonneg
          · exact_mod_cast (sub_pos.mpr hlt).le
          · exact_mod_cast hwidth.le
        obtain ⟨n, hn⟩ := Int.eq_ofNat_of_zero_le hneeded
        rw [hn]
        exact_mod_cast (htiles.length_le_iff hwidth n).mpr ((partitionsNeeded_le_iff hdays n).mp hn.le)
      · exact (partitionsNeeded_le_iff hdays _).mpr ((htiles.length_le_iff hwidth _).mp le_rfl)
  · rw [if_pos hlt]
    exact ⟨iff_of_false nofun fun h => hlt h.1, nofun⟩

end plan

/-- Two days of January 1970. -/
def twoDaysInput : JsonMap :=
  [("from", .string "1970-01-01T00:00:00Z"), ("to", .string "1970-01-03T00:00:00Z")]

/-- Times that are read from two texts, in UTC. -/
def twoDaysTimes : Times where
  parse text := if text = "1970-01-01T00:00:00Z" then some ⟨0, "UTC"⟩
    else if text = "1970-01-03T00:00:00Z" then some ⟨2 * nanosPerDay, "UTC"⟩ else none
  addDays time days := { time with instant := time.instant + days * nanosPerDay }
  format := toString
  timestamptz := id

/-- The request of a plan of two days. -/
def twoDays : PlanRequest twoDaysTimes ⟨fun _ => "", fun _ => 0⟩ twoDaysInput where
  start := ⟨0, "UTC"⟩
  stop := ⟨2 * nanosPerDay, "UTC"⟩
  partitionDays := 1
  maxConcurrency := 1
  parsesStart := rfl
  parsesStop := rfl
  readsDays := rfl
  readsConcurrency := rfl
  days_bounds := by decide
  concurrency_bounds := by decide

/-- A window of two days is cut at one day. -/
theorem planBackfill_cuts_twoDays :
    ∃ plan, planBackfill twoDaysTimes ⟨fun _ => "", fun _ => 0⟩ twoDaysInput = .ok plan ∧
      CutsWindow 0 (2 * nanosPerDay) (1 * nanosPerDay) plan.partitions := by
  obtain ⟨hplans, hcuts⟩ := planBackfill_cuts _ _ _ twoDays fun _ _ _ => rfl
  obtain ⟨plan, hplan⟩ := hplans.mpr ⟨by decide, (partitionsNeeded_le_iff (by decide) 366).mpr (by decide)⟩
  exact ⟨plan, hplan, (hcuts plan hplan).2.2.2.2.2⟩

end Dataflow.Api.BackfillPlanning
