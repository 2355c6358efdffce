import ValidatorDays.Chart.Indicator
import ValidatorDays.Proofs.Decimal.Division

namespace ValidatorDays

namespace Indicator

def all : List Indicator :=
  [burnedFees, nonFailedGas, blockCount, averageBlockTime, totalEmission, totalGasUsed, marketCap,
    transactionCount] ++ [averageGasPrice] ++ [averageGasUsed] ++ [averageGasLimit] ++
    [averageUtilisation]

theorem mem_all (indicator : Indicator) : indicator ∈ all := by cases indicator <;> decide

theorem nodup_all : all.Nodup := by decide

def due (t : BlockTotals) : Indicator → Bool
  | .averageGasPrice => !t.gasPrice.isZero && decide (0 < t.gasPriceTxCount)
  | .averageGasUsed => decide (0 < t.txCount)
  | .averageGasLimit => decide (0 < t.blockCount)
  | .averageUtilisation => !t.gasLimit.isZero
  | _ => true

end Indicator

open Decimal

namespace BlockTotals

def Founded (t : BlockTotals) : Prop := 0 < t.txCount → t.blockCount ≠ 0

theorem averageBlockTime_found (t : BlockTotals) :
    ∃ average, t.averageBlockTime = .ok average := by
  unfold averageBlockTime
  split
  next belowTwo => exact ⟨0, rfl⟩
  next several =>
    have gaps : t.blockCount - 1 ≠ 0 := by omega
    have second : microsPerSecond ≠ 0 := by decide
    rw [div_eq_ok (isZero_ofInt.mpr gaps)]
    exact ⟨_, div_eq_ok (isZero_ofInt.mpr second)⟩

end BlockTotals

namespace ChartInputs

variable {inputs : ChartInputs} {t : BlockTotals} {values : List IndicatorValue}

theorem marketCap_eq (inputs : ChartInputs) : inputs.marketCap =
    .ok ((divided inputs.totalEmission (.ofInt weiPerEth) + inputs.genesisSupplyEth) *
      inputs.ethPriceUsd) := by
  rw [marketCap, div_eq_ok (by decide)]
  rfl

theorem average_eq {p : Prop} [Decidable p] {a b : Decimal} (indicator : Indicator)
    (scaled : Decimal → Decimal) {due : Bool} (same : due = true ↔ p)
    (divisor : p → b.isZero = false) :
    (if p then (do return [(indicator, scaled (← a / b))]) else return [] :
      Checked (List IndicatorValue)) =
    .ok (([indicator].filter fun _ => due).map (·, scaled (divided a b))) := by
  split
  next holds =>
    rw [div_eq_ok (divisor holds), same.mpr holds]
    rfl
  next other =>
    rw [Bool.eq_false_iff.mpr (mt same.mp other)]
    rfl

theorem averageGasPrice_eq (t : BlockTotals) : averageGasPrice t =
    .ok (([.averageGasPrice].filter (Indicator.due t)).map
      (·, divided t.gasPrice (.ofInt t.gasPriceTxCount))) := by
  refine average_eq _ id Iff.rfl fun due => isZero_ofInt.mpr ?_
  have priced := of_decide_eq_true (Bool.and_eq_true_iff.mp due).2
  omega

theorem averageGasUsed_eq (founded : t.Founded) : averageGasUsed t =
    .ok (([.averageGasUsed].filter (Indicator.due t)).map
      (·, divided t.gasUsed (.ofInt t.blockCount))) :=
  average_eq _ id decide_eq_true_iff fun charged => isZero_ofInt.mpr (founded charged)

theorem averageGasLimit_eq (t : BlockTotals) : averageGasLimit t =
    .ok (([.averageGasLimit].filter (Indicator.due t)).map
      (·, divided t.gasLimit (.ofInt t.blockCount))) :=
  average_eq _ id decide_eq_true_iff fun limited => isZero_ofInt.mpr (by omega)

theorem averageUtilisation_eq (t : BlockTotals) : averageUtilisation t =
    .ok (([.averageUtilisation].filter (Indicator.due t)).map
      (·, divided t.gasUsed t.gasLimit * 100)) := by
  refine .trans ?_ (average_eq (p := t.gasLimit.isZero = false) _ (· * 100) ?_ id)
  · unfold averageUtilisation
    cases t.gasLimit.isZero <;> rfl
  · exact iff_of_eq (Bool.not_eq_true' _)

/-- The values are those of the indicators that are due, one each. -/
structure Lists (inputs : ChartInputs) (values : List IndicatorValue) : Prop where
  indicators : values.map Prod.fst = Indicator.all.filter (Indicator.due inputs.totals)
  totalEmission : (.totalEmission, inputs.totalEmission) ∈ values
  marketCap : ∃ cap, inputs.marketCap = .ok cap ∧ (.marketCap, cap) ∈ values

theorem values_found (founded : inputs.totals.Founded) :
    ∃ values, inputs.values = .ok values ∧ inputs.Lists values := by
  obtain ⟨blockTime, time⟩ := inputs.totals.averageBlockTime_found
  unfold ChartInputs.values always
  rw [time, marketCap_eq, averageGasPrice_eq, averageGasUsed_eq founded, averageGasLimit_eq,
    averageUtilisation_eq]
  refine ⟨_, rfl, ?indicators, by simp, _, rfl, by simp⟩
  case indicators =>
    simp only [List.map_append, List.map_map, Function.comp_def, List.map_id', Indicator.all,
      List.filter_append]
    rfl

theorem values_unfounded (charged : 0 < inputs.totals.txCount)
    (noBlocks : inputs.totals.blockCount = 0) :
    inputs.values = .error .divisionByZero := by
  obtain ⟨blockTime, time⟩ := inputs.totals.averageBlockTime_found
  have broken : averageGasUsed inputs.totals = .error .divisionByZero := by
    rw [averageGasUsed, if_pos charged, noBlocks]
    rfl
  unfold ChartInputs.values always
  rw [time, marketCap_eq, averageGasPrice_eq, broken]
  rfl

theorem values_ok_iff : (∃ values, inputs.values = .ok values) ↔ inputs.totals.Founded := by
  constructor
  · rintro ⟨values, found⟩ charged noBlocks
    cases (values_unfounded charged noBlocks).symm.trans found
  · intro founded
    obtain ⟨values, found, -⟩ := values_found founded
    exact ⟨values, found⟩

theorem lists_of_ok (found : inputs.values = .ok values) : inputs.Lists values := by
  obtain ⟨others, same, lists⟩ := values_found (values_ok_iff.mp ⟨values, found⟩)
  cases same.symm.trans found
  exact lists

theorem Lists.nodup (lists : inputs.Lists values) : (values.map Prod.fst).Nodup := by
  rw [lists.indicators]
  exact Indicator.nodup_all.filter _

theorem Lists.mem_iff (lists : inputs.Lists values) (indicator : Indicator) :
    indicator ∈ values.map Prod.fst ↔ indicator.due inputs.totals = true := by
  rw [lists.indicators, List.mem_filter]
  exact and_iff_right indicator.mem_all

theorem Lists.eq_iff (lists : inputs.Lists values) {indicator : Indicator} {value : Decimal}
    (told : (indicator, value) ∈ values) (other : Decimal) :
    (indicator, other) ∈ values ↔ other = value := by
  constructor
  · intro toldToo
    have same := List.inj_on_of_nodup_map lists.nodup toldToo told rfl
    exact (Prod.mk.inj same).2
  · rintro rfl
    exact told

end ChartInputs
end ValidatorDays
