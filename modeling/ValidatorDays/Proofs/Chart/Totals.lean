import ValidatorDays.Proofs.Chart.Books

namespace ValidatorDays

theorem Indicator.name_inj {a b : Indicator} (same : a.name = b.name) : a = b := by
  cases a <;> cases b <;> first | rfl | simp [name] at same

namespace ChartPoint

theorem address_row (p : ChartPoint) :
    Layout.plain.address target p.row = ChartTable.address p.time p.indicator := by
  have time : Layout.plain.inserted target p.row "time" = some (.time p.time) := rfl
  have indicator : Layout.plain.inserted target p.row "indicator" =
    some (.text p.indicator.name) := rfl
  show Address.mk "chart_series" (List.toFinset
    [("time", Layout.plain.inserted target p.row "time"),
      ("indicator", Layout.plain.inserted target p.row "indicator")]) = _
  rw [time, indicator]
  rfl

end ChartPoint

theorem ChartTable.address_inj {time other : Instant} {indicator another : Indicator}
    (same : address time indicator = address other another) :
    time = other ∧ indicator = another := by
  have keys := congrArg Address.key same
  have moment : ("time", some (SqlValue.time time)) ∈ (address other another).key :=
    keys ▸ Finset.mem_insert_self _ _
  have name : ("indicator", some (SqlValue.text indicator.name)) ∈ (address other another).key :=
    keys ▸ Finset.mem_insert_of_mem (Finset.mem_singleton_self _)
  simp [address] at moment name
  exact ⟨moment, Indicator.name_inj name⟩

namespace ChartTable

theorem total?_assigned {before after : ChartTable} {points : List ChartPoint} {time : Instant}
    {total : Decimal} (times : ∀ p ∈ points, p.time = time)
    (member : ⟨time, .totalEmission, total⟩ ∈ points)
    (stored : Layout.plain.Assigned ChartPoint.target (points.map ChartPoint.row) before after)
    (moment : Instant) :
    after.total? moment = if moment = time then some total else before.total? moment := by
  split
  next same =>
    obtain ⟨row, found, own, -⟩ := stored.own _ (List.mem_map_of_mem member)
    have value : row "value" = some (.numeric total) := own "value" (by decide)
    rw [ChartPoint.address_row] at found
    rw [total?, same, found, Option.bind_some, value]
  next other =>
    have untouched : after (address moment .totalEmission) =
        before (address moment .totalEmission) := by
      refine stored.others _ fun row inside here => ?_
      obtain ⟨p, point, rfl⟩ := List.mem_map.mp inside
      rw [ChartPoint.address_row] at here
      exact other ((address_inj here).1.trans (times p point))
    rw [total?, untouched, total?]

theorem distinct_rows {points : List ChartPoint}
    (indicators : (points.map ChartPoint.indicator).Nodup) :
    ((points.map ChartPoint.row).map (Layout.plain.address ChartPoint.target)).Nodup := by
  rw [List.map_map, List.Nodup, List.pairwise_map]
  refine (List.pairwise_map.mp indicators).imp fun {p q} different same => different ?_
  simp only [Function.comp_apply, ChartPoint.address_row] at same
  exact (address_inj same).2

end ChartTable

namespace ChartBooks

open Program

theorem total?_export {f : ChartFacts} {settings : Settings} {day : Day} {t : ChartTable}
    {trace : List Event} {points : List ChartPoint}
    (run : Runs (ChartSeries.write settings day) trace (.ok points))
    (agrees : (opened t).Agrees f trace) :
    ∃ answer total, t.Latest day.midnight answer ∧
      total.value = (answer.getD 0).value + f.emission day ∧
      ∀ moment, ((opened t).afterAll trace).table.total? moment =
        if moment = day.midnight then some total else t.total? moment := by
  obtain ⟨window, inputs, answer, planned, made, counted, income, latest, carried, found, plan,
    stored⟩ := write_ok run agrees
  obtain ⟨-, time, -⟩ := ChartWindow.ofDay_eq_ok made
  obtain ⟨values, found, same⟩ := bind_eq_ok.mp found
  have lists := ChartInputs.lists_of_ok found
  cases same
  have times : ∀ p ∈ values.map fun value => ChartPoint.mk window.time value.1 value.2,
      p.time = window.time := by
    intro p member
    obtain ⟨value, -, rfl⟩ := List.mem_map.mp member
    rfl
  have indicators : ((values.map fun value => ChartPoint.mk window.time value.1 value.2).map
      ChartPoint.indicator).Nodup := by
    rw [List.map_map]
    exact lists.nodup
  have assigned := Layout.plain.assigned_executeAll ChartPoint.target plan
    (ChartTable.distinct_rows indicators) (fun _ => Iff.rfl) t
  have totals := ChartTable.total?_assigned times (List.mem_map_of_mem lists.totalEmission) assigned
  refine ⟨answer, inputs.totalEmission, time ▸ latest, ?_, fun moment => ?_⟩
  · have brought : inputs.dayEmission.value = f.emission day := by
      simp only [ChartInputs.dayEmission, ChartFacts.emission, counted, income, Amount.toDecimal,
        Decimal.value_add, Decimal.value_sub, Decimal.value_ofInt]
    rw [ChartInputs.totalEmission, Decimal.value_add, carried, brought]
  · rw [stored, ← time]
    exact totals moment

end ChartBooks
end ValidatorDays
