import Mathlib
import ValidatorDays.Proofs.Chart.Accounts
import ValidatorDays.Proofs.Chart.Totals

namespace ValidatorDays

open BlockTotals

variable {blocks : List Block} {t : BlockTotals} {inputs : ChartInputs}

/-- The blocks tell it: where it is an average, there is something to take it of. -/
def Indicator.HasData (blocks : List Block) : Indicator → Prop
  | .averageGasPrice => (∃ c ∈ charges blocks, c.2.hasGasPrice = true) ∧
      (((charges blocks).filter (·.2.hasGasPrice)).map fun c => c.2.gasPrice.count).sum ≠ 0
  | .averageGasUsed => charges blocks ≠ []
  | .averageGasLimit => blocks ≠ []
  | .averageUtilisation => (blocks.map fun block => block.gasLimit).sum ≠ 0
  | _ => True

namespace BlockTotals.Accounts

variable (accounts : Accounts (charges blocks) blocks t)
include accounts

theorem founded : t.Founded := by
  rw [Founded, accounts.txCount, accounts.blockCount]
  intro charged noBlocks
  have empty : blocks = [] := List.length_eq_zero_iff.mp (by exact_mod_cast noBlocks)
  rw [empty] at charged
  exact absurd charged (by decide)

theorem due_iff (indicator : Indicator) : indicator.due t = true ↔ indicator.HasData blocks := by
  cases indicator with
  | averageGasPrice =>
    rw [Indicator.due, Indicator.HasData, accounts.gasPrice, accounts.gasPriceTxCount,
      Bool.and_eq_true_iff, Bool.not_eq_true', Decimal.isZero_ofInt, decide_eq_true_iff,
      Int.natCast_pos, List.countP_pos_iff, and_comm]
  | averageGasUsed =>
    rw [Indicator.due, Indicator.HasData, accounts.txCount, decide_eq_true_iff, Int.natCast_pos,
      List.length_pos_iff]
  | averageGasLimit =>
    rw [Indicator.due, Indicator.HasData, accounts.blockCount, decide_eq_true_iff, Int.natCast_pos,
      List.length_pos_iff]
  | averageUtilisation =>
    rw [Indicator.due, Indicator.HasData, accounts.gasLimit, Bool.not_eq_true',
      Decimal.isZero_ofInt]
  | _ => exact iff_of_true rfl trivial

end BlockTotals.Accounts

namespace ChartSeries

theorem plan_distinct {found : List ChartPoint}
    (indicators : (found.map ChartPoint.indicator).Nodup) (batchSize : Nat) :
    ∃ planned, Batch.plan ChartPoint.target (found.map ChartPoint.row) batchSize = .ok planned ∧
      ∀ batch ∈ planned, (batch.rows.map (Layout.plain.address ChartPoint.target)).Nodup := by
  have wide : ∀ row ∈ found.map ChartPoint.row, row.length = ChartPoint.target.columns.length := by
    intro row member
    obtain ⟨p, -, rfl⟩ := List.mem_map.mp member
    rfl
  obtain ⟨planned, plan⟩ : ∃ planned,
      Batch.plan ChartPoint.target (found.map ChartPoint.row) batchSize = .ok planned :=
    ⟨_, Batch.plan_eq_ok.mpr ⟨wide, rfl⟩⟩
  refine ⟨planned, plan, fun batch member => ?_⟩
  have rows := (Batch.rows_sublist_of_plan plan batch member).map
    (Layout.plain.address ChartPoint.target)
  exact (ChartTable.distinct_rows indicators).sublist rows

/-- A day whose blocks have been counted has its points, whatever else has been read. Each indicator
comes at most once, and just if the blocks tell it. No two points have their key in common, and so
no statement that stores some of them meets a key twice. -/
theorem points_distinct (counted : empty.addBlocks blocks = .ok inputs.totals) :
    ∃ values, inputs.values = .ok values ∧ (values.map Prod.fst).Nodup ∧
      (∀ indicator, indicator ∈ values.map Prod.fst ↔ indicator.HasData blocks) ∧
      ∀ window, ∃ found, points window inputs = .ok found ∧
        (found.map fun p => (p.time, p.indicator)).Nodup ∧
        ∀ batchSize, ∃ planned,
          Batch.plan ChartPoint.target (found.map ChartPoint.row) batchSize = .ok planned ∧
          ∀ batch ∈ planned, (batch.rows.map (Layout.plain.address ChartPoint.target)).Nodup := by
  obtain ⟨-, accounts⟩ := accounts_of_ok counted
  obtain ⟨values, found, lists⟩ := ChartInputs.values_found accounts.founded
  refine ⟨values, found, lists.nodup, fun indicator => ?_, fun window => ?_⟩
  · rw [lists.mem_iff, accounts.due_iff]
  · have indicators : ((values.map fun value => ChartPoint.mk window.time value.1 value.2).map
        ChartPoint.indicator).Nodup := by
      rw [List.map_map]
      exact lists.nodup
    refine ⟨_, bind_eq_ok.mpr ⟨values, found, rfl⟩, ?keys, plan_distinct indicators⟩
    case keys =>
      refine List.Nodup.of_map Prod.snd ?_
      rw [List.map_map]
      exact indicators

/-- A block without a gas limit, and a transaction that names no gas price. -/
def unlimited : List Block :=
  [⟨12, "c", 1024, ⟨8⟩, 0, [⟨"y", 2, 1, 50000, ⟨0⟩, ⟨9⟩, ⟨3⟩⟩]⟩]

def unlimitedInputs : ChartInputs where
  totals := ⟨1, 1, 0, 0, .ofInt 50000, .ofInt 0, .ofInt 0, .ofInt 0, .ofInt 400000, .ofInt 50000, 0,
    some 1024⟩
  consensusRewards := ⟨1000⟩
  previousEmission := 0
  ethPriceUsd := .ofInt 2000
  genesisSupplyEth := 0

theorem points_distinct_unlimited : ∃ values, unlimitedInputs.values = .ok values ∧
    .averageGasUsed ∈ values.map Prod.fst ∧ .averageGasLimit ∈ values.map Prod.fst ∧
    .averageUtilisation ∉ values.map Prod.fst ∧ .averageGasPrice ∉ values.map Prod.fst := by
  have counted : empty.addBlocks unlimited = .ok unlimitedInputs.totals := by rfl
  obtain ⟨values, found, -, hasData, -⟩ := points_distinct counted
  refine ⟨values, found, (hasData _).mpr nofun, (hasData _).mpr nofun, fun member => ?_,
    fun member => ?_⟩
  · exact (hasData _).mp member rfl
  · obtain ⟨-, price⟩ := (hasData _).mp member
    exact price rfl

end ChartSeries
end ValidatorDays
