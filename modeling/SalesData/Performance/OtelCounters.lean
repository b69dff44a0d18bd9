import SalesData.Performance.KeyedAggregates

/-!
# Counters at most once

What an export does to its instruments when any call may raise, and what the loop has added to them
in a whole run (`core/performance/exporters/otel_exporter.py:63–95`).
-/

namespace SalesData.Performance

open Base

namespace OTelExporter

variable {raises : List (OtelCall × Bool) → OtelCall → Bool}

/-! ## Loops -/

section Loops

variable {A : Type} {body : OTelExporter → A → OTelExporter × Bool} {as : List A}
  {exporter : OTelExporter}

/-- What each step of a loop keeps the loop keeps, also one that is cut short. -/
theorem each_invariant {P : OTelExporter → Prop}
    (hbody : ∀ exporter, ∀ a ∈ as, P exporter → P (body exporter a).1) (h : P exporter) :
    P (each body exporter as).1 := by
  induction as generalizing exporter with
  | nil => exact h
  | cons a as ih =>
    have hone := hbody exporter a List.mem_cons_self h
    rw [each]
    split
    · next exporter' heq =>
      rw [heq] at hone
      exact ih (fun exporter b hb ↦ hbody exporter b (List.mem_cons_of_mem _ hb)) hone
    · next exporter' heq =>
      rw [heq] at hone
      exact hone

/-- What is true behind a step and kept by the others is true of each step behind a loop that is
not cut short. -/
theorem each_all {R : A → OTelExporter → Prop}
    (hbody : ∀ exporter, ∀ a ∈ as, (body exporter a).2 = true → R a (body exporter a).1)
    (hkeep : ∀ exporter, ∀ a ∈ as, ∀ b ∈ as, R b exporter → R b (body exporter a).1)
    (h : (each body exporter as).2 = true) : ∀ a ∈ as, R a (each body exporter as).1 := by
  induction as generalizing exporter with
  | nil => exact fun a ha ↦ absurd ha List.not_mem_nil
  | cons a as ih =>
    rw [each] at h ⊢
    split at h
    · next exporter' heq =>
      intro b hb
      rcases List.mem_cons.mp hb with rfl | hb
      · have hone := hbody exporter b List.mem_cons_self
        rw [heq] at hone
        exact each_invariant (fun exporter a ha hb' ↦ hkeep exporter a (List.mem_cons_of_mem _ ha) b
          List.mem_cons_self hb') (hone rfl)
      · exact ih (fun exporter a ha ↦ hbody exporter a (List.mem_cons_of_mem _ ha))
          (fun exporter a ha b hb ↦ hkeep exporter a (List.mem_cons_of_mem _ ha) b
            (List.mem_cons_of_mem _ hb)) h b hb
    · cases h

/-- The calls of some work on the exporter, which is cut short exactly if one of them raises. -/
def Works (exporter : OTelExporter) (done : OTelExporter × Bool) : Prop :=
  ∃ more, done.1.calls = exporter.calls ++ more ∧ done.2 = more.all Prod.snd

/-- Work that goes on. -/
theorem Works.trans {middle : OTelExporter} {done : OTelExporter × Bool}
    (h : Works exporter (middle, true)) (h' : Works middle done) : Works exporter done := by
  obtain ⟨more, hcalls, hreturns⟩ := h
  obtain ⟨more', hcalls', hreturns'⟩ := h'
  refine ⟨more ++ more', ?_, ?_⟩
  · rw [hcalls', hcalls, List.append_assoc]
  · rw [List.all_append, ← hreturns, ← hreturns', Bool.true_and]

/-- The calls of a loop. -/
theorem works_each (hbody : ∀ exporter a, Works exporter (body exporter a)) :
    Works exporter (each body exporter as) := by
  induction as generalizing exporter with
  | nil => exact ⟨[], (List.append_nil _).symm, rfl⟩
  | cons a as ih =>
    have hone := hbody exporter a
    rw [each]
    split
    · next exporter' heq =>
      rw [heq] at hone
      exact hone.trans ih
    · next exporter' heq =>
      rw [heq] at hone
      exact hone

/-- Work that no call of raises is not cut short, and none of the calls before raised. -/
theorem Works.allReturn {done : OTelExporter × Bool} (h : Works exporter done)
    (hall : done.1.AllReturn) : done.2 = true ∧ exporter.AllReturn := by
  obtain ⟨more, hcalls, hreturns⟩ := h
  rw [AllReturn, hcalls] at hall
  refine ⟨?_, fun c hc ↦ hall c (List.mem_append_left _ hc)⟩
  rw [hreturns, List.all_eq_true]
  exact fun c hc ↦ hall c (List.mem_append_right _ hc)

end Loops

/-! ## One export -/

variable {exporter : OTelExporter}

/-- The calls for a counter. -/
theorem works_exportCounter (exporter : OTelExporter) (counter : Counter ℚ) :
    Works exporter (exporter.exportCounter raises counter) := by
  obtain ⟨more, hcalls, -, ⟨-, rfl, hreturns⟩ | ⟨-, huses⟩⟩ :=
    exportCounter_spec raises exporter counter
  · exact ⟨[], hcalls, hreturns⟩
  · exact ⟨more, hcalls, huses.returns⟩

/-- The calls for a gauge. -/
theorem works_exportGauge (exporter : OTelExporter) (gauge : Gauge ℚ) :
    Works exporter (exporter.exportGauge raises gauge) := by
  obtain ⟨more, hcalls, -, huses⟩ := exportGauge_spec raises exporter gauge
  exact ⟨more, hcalls, huses.returns⟩

/-- The calls for a counter add something positive. -/
theorem positive_exportCounter (h : exporter.Positive) (counter : Counter ℚ) :
    (exporter.exportCounter raises counter).1.Positive := by
  obtain ⟨more, hcalls, -, ⟨-, rfl, -⟩ | ⟨hlt, huses⟩⟩ :=
    exportCounter_spec raises exporter counter
  · exact h.append hcalls nofun
  · refine h.append hcalls fun name delta attributes returns hmem ↦ ?_
    rcases huses.mem hmem with hcreate | huse
    · cases hcreate
    · cases huse
      exact hlt

/-- The calls for a gauge add nothing. -/
theorem exportGauge_keeps (raises : List (OtelCall × Bool) → OtelCall → Bool)
    (exporter : OTelExporter) (gauge : Gauge ℚ) :
    (∀ k, (exporter.exportGauge raises gauge).1.last k = exporter.last k) ∧
      (∀ k, (exporter.exportGauge raises gauge).1.added k = exporter.added k) ∧
      (exporter.Positive → (exporter.exportGauge raises gauge).1.Positive) := by
  obtain ⟨more, hcalls, hlast, huses⟩ := exportGauge_spec raises exporter gauge
  refine ⟨hlast, fun k ↦ ?_, fun h ↦ h.append hcalls fun name delta attributes returns hmem ↦ ?_⟩
  · have hnothing : ∀ c ∈ more, addedBy k c = 0 := by
      rintro ⟨c, returns⟩ hc
      rcases huses.mem hc with rfl | rfl <;> cases returns <;> rfl
    rw [added_of_calls hcalls, List.map_congr_left hnothing, List.sum_map_zero, add_zero]
  · rcases huses.mem hmem with hcreate | huse
    · cases hcreate
    · cases huse

/-- What is kept by the export of each counter and of each gauge is kept by an export, also by one
that is cut short. -/
theorem export_invariant {P : OTelExporter → Prop} {counters : List (Counter ℚ)}
    (hcounter : ∀ exporter, ∀ counter ∈ counters, P exporter →
      P (exporter.exportCounter raises counter).1)
    (hgauge : ∀ exporter gauge, P exporter → P (exporter.exportGauge raises gauge).1)
    (h : P exporter) (gauges : List (Gauge ℚ)) (histograms : List StreamingHistogram) :
    P (exporter.export raises counters gauges histograms).1 := by
  have hcounters := each_invariant hcounter h
  unfold OTelExporter.export
  split
  · next exporter' heq =>
    rw [heq] at hcounters
    have hgauges := @each_invariant _ (exportGauge raises) gauges exporter' P
      (fun exporter gauge _ ↦ hgauge exporter gauge) hcounters
    split
    · next exporter'' heq' =>
      rw [heq'] at hgauges
      exact each_invariant (fun exporter gauge _ ↦ hgauge exporter gauge) hgauges
    · next exporter'' heq' =>
      rw [heq'] at hgauges
      exact hgauges
  · next exporter' heq =>
    rw [heq] at hcounters
    exact hcounters

end OTelExporter

/-! ## Counters at most once -/

/-- What has been added to the counters and what they have not been told of yet is not more than
what is due, where `current` are the values of the counters. -/
structure Accounts (due current : MetricKey → ℚ) (exporter : OTelExporter) : Prop where
  last_nonneg : ∀ k, 0 ≤ exporter.last k
  added_le : ∀ k, exporter.added k + unseen (exporter.last k) (current k) ≤ due k
  positive : exporter.Positive

/-- What holds in every run: what is due are the points of a series, before a reset and after. -/
structure Balanced (s : Exporting) : Prop where
  keyed : Keyed s.registry.aggregator
  accounts : Accounts (fun k ↦ s.cleared k + counted s.registry.aggregator k)
    (counted s.registry.aggregator) s.exporter

/-- No counter is negative. -/
theorem Keyed.counted_nonneg {agg : MetricsAggregator ℚ} (h : Keyed agg) (k : MetricKey) :
    0 ≤ counted agg k := by
  unfold counted
  cases hget : agg.counters.get? k with
  | none => exact le_rfl
  | some counter => exact (h.counters k counter hget).2

/-- A counter that is exported is that of its series. -/
theorem Keyed.counted_of_mem {agg : MetricsAggregator ℚ} (h : Keyed agg) {counter : Counter ℚ}
    (hmem : counter ∈ agg.counters.values) :
    counted agg (key counter.name counter.tags) = counter.value := by
  obtain ⟨⟨k, c⟩, he, rfl⟩ := List.mem_map.mp hmem
  have hget := Dict.mem_entries_iff.mp he
  dsimp only
  rw [(h.counters k c hget).1, counted, hget]
  rfl

/-- What a feed does to the aggregator. -/
theorem aggregator_feeding {maxRequestHistory : Nat} {registry registry' : PerformanceRegistry ℚ}
    {feed : Feed ℚ}
    (hstep : (feeding .exact maxRequestHistory).step registry feed = some registry') :
    feed = .reset ∧ registry'.aggregator = .empty ∨
      feed ≠ .reset ∧
        registry'.aggregator = (registry.aggregator.ingest .exact feed.points).1 := by
  cases feed with
  | record profile =>
    cases hstep
    exact .inr ⟨nofun, PerformanceRegistry.aggregator_record _ _⟩
  | ingest points =>
    cases hstep
    exact .inr ⟨nofun, rfl⟩
  | reset =>
    cases hstep
    exact .inl ⟨rfl, rfl⟩

section Runs

variable {raises : List (OtelCall × Bool) → OtelCall → Bool} {maxRequestHistory : Nat}
  {exporter : OTelExporter} {due current : MetricKey → ℚ} {s s' : Exporting}

/-- Exporting a counter: what is new of it has been added, if nothing raised. -/
theorem Accounts.exportCounter (h : Accounts due current exporter) {counter : Counter ℚ}
    (hcurrent : current (key counter.name counter.tags) = counter.value)
    (hvalue : 0 ≤ counter.value) :
    Accounts due current (exporter.exportCounter raises counter).1 := by
  obtain ⟨-, -, hlast, -⟩ := OTelExporter.exportCounter_spec raises exporter counter
  refine ⟨fun k ↦ ?_, fun k ↦ ?_, OTelExporter.positive_exportCounter h.positive counter⟩
  · rw [hlast k]
    split
    · exact hvalue
    · exact h.last_nonneg k
  · have hadded := (OTelExporter.exportCounter_added raises exporter hvalue k).1
    have hle := h.added_le k
    rw [hlast k]
    by_cases hk : k = key counter.name counter.tags
    · subst hk
      rw [if_pos rfl] at hadded ⊢
      rw [hcurrent] at hle ⊢
      rw [unseen_self, add_zero]
      exact hadded.trans hle
    · rw [if_neg hk, add_zero] at hadded
      rw [if_neg hk]
      exact (add_le_add_left hadded _).trans hle

/-- Exporting a gauge. -/
theorem Accounts.exportGauge (h : Accounts due current exporter) (gauge : Gauge ℚ) :
    Accounts due current (exporter.exportGauge raises gauge).1 := by
  obtain ⟨hlast, hadded, hpositive⟩ := OTelExporter.exportGauge_keeps raises exporter gauge
  refine ⟨fun k ↦ ?_, fun k ↦ ?_, hpositive h.positive⟩
  · rw [hlast k]
    exact h.last_nonneg k
  · rw [hlast k, hadded k]
    exact h.added_le k

/-- The counters grow by what becomes due. -/
theorem Accounts.grow {due' current' : MetricKey → ℚ} (h : Accounts due current exporter)
    (hcurrent : ∀ k, current k ≤ current' k)
    (hdue : ∀ k, due' k = due k + (current' k - current k)) : Accounts due' current' exporter := by
  refine ⟨h.last_nonneg, fun k ↦ ?_, h.positive⟩
  have hunseen : unseen (exporter.last k) (current k + (current' k - current k)) ≤
      unseen (exporter.last k) (current k) + (current' k - current k) :=
    unseen_add_le (h.last_nonneg k) (sub_nonneg.mpr (hcurrent k))
  rw [add_sub_cancel] at hunseen
  calc
    exporter.added k + unseen (exporter.last k) (current' k) ≤
        exporter.added k + (unseen (exporter.last k) (current k) + (current' k - current k)) :=
      add_le_add le_rfl hunseen
    _ = exporter.added k + unseen (exporter.last k) (current k) + (current' k - current k) :=
      (add_assoc _ _ _).symm
    _ ≤ due k + (current' k - current k) := add_le_add (h.added_le k) le_rfl
    _ = due' k := (hdue k).symm

/-- The counters begin again. -/
theorem Accounts.restart (h : Accounts due current exporter) (hcurrent : ∀ k, 0 ≤ current k) :
    Accounts due (fun _ ↦ 0) exporter := by
  refine ⟨h.last_nonneg, fun k ↦ ?_, h.positive⟩
  rw [unseen_zero (h.last_nonneg k), add_zero]
  exact (le_add_of_nonneg_right (unseen_nonneg (hcurrent k))).trans (h.added_le k)

/-- What one step of a run keeps. -/
theorem Balanced.step {event : ExportEvent} (h : Balanced s)
    (hstep : (exporting raises maxRequestHistory).step s event = some s') : Balanced s' := by
  cases event with
  | feed feed =>
    simp only [exporting, Option.map_eq_some_iff] at hstep
    obtain ⟨registry, hfeed, rfl⟩ := hstep
    rcases aggregator_feeding hfeed with ⟨rfl, hempty⟩ | ⟨hne, hingest⟩
    · have hzero : counted registry.aggregator = fun _ ↦ 0 := by
        rw [hempty]
        rfl
      refine ⟨hempty ▸ keyed_empty, ?_⟩
      dsimp only
      rw [hzero]
      simp only [add_zero]
      exact h.accounts.restart h.keyed.counted_nonneg
    · obtain ⟨hkeyed, hgrows⟩ := MetricsAggregator.keyed_ingest h.keyed feed.points
      rw [← hingest] at hkeyed hgrows
      refine ⟨hkeyed, h.accounts.grow hgrows fun k ↦ ?_⟩
      cases feed with
      | reset => exact absurd rfl hne
      | record | ingest =>
        dsimp only
        rw [add_zero, add_assoc, add_sub_cancel]
  | «export» estimators =>
    cases hstep
    refine ⟨h.keyed, OTelExporter.export_invariant (fun exporter counter hmem haccounts ↦ ?_)
      (fun exporter gauge haccounts ↦ haccounts.exportGauge gauge) h.accounts _ _⟩
    have hcurrent := h.keyed.counted_of_mem hmem
    exact haccounts.exportCounter hcurrent (hcurrent ▸ h.keyed.counted_nonneg _)

/-- In every run, whatever calls of the meter and of its instruments raise and however often the
registry is reset, all that is added to a counter is positive, and together it is not more than what
the points of its name and tags have counted. -/
theorem exporting_added_le (raises : List (OtelCall × Bool) → OtelCall → Bool)
    (maxRequestHistory : Nat) {s : Exporting}
    (h : (exporting raises maxRequestHistory).Reachable s) :
    (∀ name delta attributes returns,
      (.add name delta attributes, returns) ∈ s.exporter.calls → 0 < delta) ∧
      ∀ k, s.exporter.added k ≤ s.cleared k + counted s.registry.aggregator k := by
  have hbalanced : Balanced s := by
    refine h.invariant ⟨keyed_empty, fun k ↦ le_rfl, fun k ↦ ?_, nofun⟩
      fun s event s' hs _ hstep ↦ hs.step hstep
    rw [show OTelExporter.added _ k = 0 from rfl, show OTelExporter.last _ k = 0 from rfl,
      show counted _ k = 0 from rfl, unseen_self]
    exact le_rfl
  refine ⟨hbalanced.accounts.positive, fun k ↦ ?_⟩
  exact (le_add_of_nonneg_right (unseen_nonneg (hbalanced.keyed.counted_nonneg k))).trans
    (hbalanced.accounts.added_le k)

/-- A point of a counter without tags. -/
def countPoint (name : String) (n : Int) : MetricPoint ℚ where
  name := name.toList
  metricType := .counter
  value := .int n
  timestampNs := 0
  unit := .count
  tags := .empty

/-- A counter whose first addition raises is never told of what it was to add. -/
theorem exporting_added_le_raising :
    ∃ s : Exporting, s.exporter.added (key "hits".toList .empty) = 2 ∧
      s.exporter.added (key "hits".toList .empty) ≤
        s.cleared (key "hits".toList .empty) +
          counted s.registry.aggregator (key "hits".toList .empty) := by
  obtain ⟨s, hreach, hend⟩ := System.exists_of_exec
    (exporting (fun calls _ ↦ calls.length == 1) 10) (fun _ _ ↦ True)
    [.feed (.ingest [countPoint "hits" 5]), .export fun _ ↦ [],
      .feed (.ingest [countPoint "hits" 2]), .export fun _ ↦ []]
    (fun s ↦ s.exporter.added (key "hits".toList .empty) == 2) (by decide +kernel)
  exact ⟨s, beq_iff_eq.mp hend, (exporting_added_le _ 10 hreach).2 _⟩

end Runs

end SalesData.Performance
