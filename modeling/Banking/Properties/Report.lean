import Banking.Analytics.Routes
import Banking.Properties.Metrics

/-!
# The report shows the newest hours

Whatever deliveries have come in whatever order, administrators are shown the newest hours in which
processed events occurred, each with the number and the amount of these events; an hour is left out
only for 24 later ones.
-/

namespace Banking.Analytics

open Js (Date)

/-- The newest hours in which processed events are counted. -/
structure Newest (topic : Topic) (db : Database) (hours : List Date) : Prop where
  /-- The newest hour comes first. -/
  descending : hours.Pairwise (· > ·)
  /-- There are at most 24. -/
  length_le : hours.length ≤ 24
  /-- An event is counted in every hour. -/
  counted : ∀ b ∈ hours, ∃ e ∈ processed topic db, ∃ delta, counted e = some (b, delta)
  /-- An hour in which an event is counted is left out only for 24 later ones. -/
  complete : ∀ e ∈ processed topic db, ∀ b delta, Analytics.counted e = some (b, delta) →
    b ∈ hours ∨ hours.length = 24 ∧ ∀ b' ∈ hours, b < b'
  /-- Where fewer than 24 hours are shown, they show all that has been counted. -/
  total : hours.length < 24 → (hours.map (hourTotals topic db)).sum = db.grandTotal

variable {topic : Topic} {now : Date} {m : SystemState} {db : Database}

/-- What comes after the first elements of a descending list is smaller than they are. -/
private theorem mem_take_or_lt {hours : List Date} (h : hours.Pairwise (· > ·)) (n : Nat) {b : Date}
    (hb : b ∈ hours) : b ∈ hours.take n ∨
      (hours.take n).length = n ∧ ∀ b' ∈ hours.take n, b < b' := by
  rw [← List.take_append_drop n hours] at h hb
  rcases List.mem_append.mp hb with hfirst | hlater
  · exact .inl hfirst
  · refine .inr ⟨?_, fun b' hb' ↦ (List.pairwise_append.mp h).2.2 b' hb' b hlater⟩
    have hpos := List.length_pos_of_mem hlater
    rw [List.length_drop] at hpos
    rw [List.length_take]
    omega

/-- All hours that have a metric, the newest first. -/
private def allHours (db : Database) : List Date :=
  (db.analyticsMetrics.rows.insertionSort
    (fun left right ↦ right.bucketStart ≤ left.bucketStart)).map AnalyticsMetric.bucketStart

private theorem allHours_perm (db : Database) :
    (allHours db).Perm (db.analyticsMetrics.rows.map AnalyticsMetric.bucketStart) :=
  (List.perm_insertionSort _ _).map _

/-- No two metrics are of the same hour. -/
private theorem allHours_descending (db : Database) : (allHours db).Pairwise (· > ·) := by
  have : Std.Total fun left right : AnalyticsMetric ↦ right.bucketStart ≤ left.bucketStart :=
    ⟨fun left right ↦ Int.le_total right.bucketStart left.bucketStart⟩
  have : IsTrans AnalyticsMetric fun left right ↦ right.bucketStart ≤ left.bucketStart :=
    ⟨fun _ _ _ hab hbc ↦ Int.le_trans hbc hab⟩
  have hsorted := List.pairwise_insertionSort
    (fun left right : AnalyticsMetric ↦ right.bucketStart ≤ left.bucketStart)
    db.analyticsMetrics.rows
  have hnodup : (allHours db).Nodup :=
    (allHours_perm db).nodup_iff.mpr db.analyticsMetrics.unique
  have hdescending : (allHours db).Pairwise (fun b b' ↦ b' ≤ b) := List.pairwise_map.mpr hsorted
  exact (hdescending.and hnodup).imp fun ⟨hle, hne⟩ ↦ lt_of_le_of_ne hle (Ne.symm hne)

/-- The report has the totals of the newest hours. -/
private theorem Tallied.report_eq (h : Tallied topic db) :
    report db = ((allHours db).take 24).map fun b ↦
      (AnalyticsMetric.ofTotals b (hourTotals topic db b)).reported := by
  rw [allHours, ← List.map_take, List.map_map]
  refine List.map_congr_left fun metric hmetric ↦ ?_
  have hrow := (List.perm_insertionSort _ _).mem_iff.mp (List.mem_of_mem_take hmetric)
  rw [Function.comp_apply, ← h.totals_eq hrow]
  rfl

/-- In every reachable state the report has the totals of the newest hours in which processed events
are counted. -/
theorem report_newest (h : Runs topic (initial now) m) : ∃ hours, Newest topic m.db hours ∧
    report m.db = hours.map fun b ↦
      (AnalyticsMetric.ofTotals b (hourTotals topic m.db b)).reported := by
  have htallied := (sound h).tallied
  have hmem : ∀ b, b ∈ allHours m.db ↔
      ∃ e ∈ processed topic m.db, ∃ delta, counted e = some (b, delta) :=
    fun b ↦ (allHours_perm m.db).mem_iff.trans (htallied.mem_buckets b)
  refine ⟨(allHours m.db).take 24, ⟨?_, ?_, ?_, ?_, ?_⟩, htallied.report_eq⟩
  · exact (allHours_descending m.db).sublist (List.take_sublist 24 _)
  · exact List.length_take_le 24 _
  · exact fun b hb ↦ (hmem b).mp (List.mem_of_mem_take hb)
  · exact fun e he b delta hcounted ↦
      mem_take_or_lt (allHours_descending m.db) 24 ((hmem b).mpr ⟨e, he, delta, hcounted⟩)
  · intro hfew
    have hall : (allHours m.db).take 24 = allHours m.db := by
      refine List.take_of_length_le ?_
      rw [List.length_take] at hfew
      omega
    rw [hall, ((allHours_perm m.db).map _).sum_eq, List.map_map]
    exact congrArg List.sum (List.map_congr_left fun metric hmetric ↦
      (htallied.totals_eq hmetric).symm)

/-- The one hour of a transaction that is completed and finalized within it. -/
theorem report_newest_race : ∃ s,
    Relational.run (begins Sample.recentTopic) (initial 0) Sample.race = some s ∧
      report s.db = [⟨"2025-03-01T09:00:00.000Z", 1, "250", 1, "250"⟩] ∧
      ∃ hours, Newest Sample.recentTopic s.db hours ∧
        report s.db = hours.map fun b ↦
          (AnalyticsMetric.ofTotals b (hourTotals Sample.recentTopic s.db b)).reported := by
  have hrun : (Relational.run (begins Sample.recentTopic) (initial 0) Sample.race).map
      (fun s ↦ report s.db) = some [⟨"2025-03-01T09:00:00.000Z", 1, "250", 1, "250"⟩] := by
    decide +kernel
  obtain ⟨s, hs, hreport⟩ := Option.map_eq_some_iff.mp hrun
  exact ⟨s, hs, hreport, report_newest (Relational.runs_of_run hs)⟩

end Banking.Analytics
