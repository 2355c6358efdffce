import Mathlib
import ValidatorDays.Proofs.Chart.Indicators

namespace ValidatorDays

open Decimal

theorem Amount.toWei_mem {a : Gwei} (inRange : a.count ∈ Bounds.int64) :
    a.toWei.count ∈ Bounds.int128 := by
  simp only [Bounds.mem_iff, Bounds.int64, Bounds.int128, toWei, weiPerGwei] at inRange ⊢
  omega

namespace ChartInputs

variable {inputs : ChartInputs}

/-- The supply figures as they follow from the inputs. Nothing but the emission in ETH is ever
rounded. -/
structure Supplied (inputs : ChartInputs) (cap : Decimal) : Prop where
  emission : inputs.totalEmission.value = inputs.previousEmission.value +
    inputs.consensusRewards.count * 10 ^ 9 + inputs.totals.tips.value - inputs.totals.burned.value
  exact : Short inputs.totalEmission.value → cap.value =
    (inputs.totalEmission.value / 10 ^ 18 + inputs.genesisSupplyEth.value) *
      inputs.ethPriceUsd.value
  rounded : ∃ eth, Rounds (inputs.totalEmission.value / 10 ^ 18) eth ∧
    cap.value = (eth + inputs.genesisSupplyEth.value) * inputs.ethPriceUsd.value

theorem totalEmission_value (inputs : ChartInputs) : inputs.totalEmission.value =
    inputs.previousEmission.value + inputs.consensusRewards.count * 10 ^ 9 +
      inputs.totals.tips.value - inputs.totals.burned.value := by
  have wei : (inputs.consensusRewards.toWei.toDecimal.value : ℚ) =
      inputs.consensusRewards.count * 10 ^ 9 := by
    rw [Amount.toDecimal, value_ofInt, Amount.toWei, weiPerGwei]
    push_cast
    norm_num
  rw [totalEmission, dayEmission, value_add, value_sub, value_add, wei]
  ring

theorem marketCap_supplied (inputs : ChartInputs) :
    ∃ cap, inputs.marketCap = .ok cap ∧ inputs.Supplied cap := by
  have ether : (ofInt weiPerEth).value = 10 ^ 18 := by
    rw [value_ofInt, weiPerEth]
    norm_num
  have rounds := divided_rounds (a := inputs.totalEmission) (b := ofInt weiPerEth)
    (isZero_ofInt.mpr (by decide))
  rw [ether] at rounds
  refine ⟨_, inputs.marketCap_eq, inputs.totalEmission_value, fun short => ?_, ⟨_, rounds, ?_⟩⟩
  · -- A power of ten only shifts a short number, so that there is nothing to round.
    have shifted : Short (inputs.totalEmission.value / 10 ^ 18) := by
      rw [div_eq_mul_inv, ← zpow_natCast, ← zpow_neg]
      exact short.shift _
    rw [value_mul, value_add, rounds.exact shifted]
  · rw [value_mul, value_add]

/-- The total emission and the market cap of a day are worked out for all inputs, and they are what
is told of the day, if anything is told of it. The emission is exact, and so is the market cap if
the emission has a hundred digits or fewer. -/
theorem supply_exact (inputs : ChartInputs)
    (inRange : inputs.consensusRewards.count ∈ Bounds.int64) :
    inputs.consensusRewards.toWei.count ∈ Bounds.int128 ∧
    ((∃ values, inputs.values = .ok values) ↔ inputs.totals.Founded) ∧
    ∃ cap, inputs.marketCap = .ok cap ∧ inputs.Supplied cap ∧
      ∀ values, inputs.values = .ok values → ∀ amount,
        ((.totalEmission, amount) ∈ values ↔ amount = inputs.totalEmission) ∧
        ((.marketCap, amount) ∈ values ↔ amount = cap) := by
  obtain ⟨cap, found, supplied⟩ := inputs.marketCap_supplied
  refine ⟨Amount.toWei_mem inRange, values_ok_iff, cap, found, supplied, ?_⟩
  intro values told amount
  have lists := lists_of_ok told
  obtain ⟨same, foundToo, member⟩ := lists.marketCap
  cases found.symm.trans foundToo
  exact ⟨lists.eq_iff lists.totalEmission amount, lists.eq_iff member amount⟩

/-- So far more has burned than was brought, by an amount of wei with a fraction. -/
def deflation : ChartInputs where
  totals := { BlockTotals.empty with tips := .ofInt 700, burned := .ofInt 1500 }
  consensusRewards := ⟨2⟩
  previousEmission := ⟨-123456789012345678905, 1⟩
  ethPriceUsd := .ofInt 2000
  genesisSupplyEth := ⟨7200999050, 2⟩

theorem supply_exact_deflation : ∃ cap, deflation.marketCap = .ok cap ∧
    deflation.totalEmission.value = -12345678899234568690.5 ∧
    cap.value = 144019956308.642201530862619 := by
  obtain ⟨-, -, cap, found, supplied, -⟩ := supply_exact deflation (by decide)
  have emission : deflation.totalEmission.value = -12345678899234568690.5 := by
    rw [supplied.emission]
    norm_num [deflation, value, ofInt]
  have short : Short deflation.totalEmission.value :=
    ⟨-123456788992345686905, -1, by norm_num [quotientDigits], by norm_num [emission]⟩
  refine ⟨cap, found, emission, ?_⟩
  rw [supplied.exact short, emission]
  norm_num [deflation, value, ofInt]

end ChartInputs
end ValidatorDays
