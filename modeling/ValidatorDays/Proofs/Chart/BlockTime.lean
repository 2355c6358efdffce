import Mathlib
import ValidatorDays.Proofs.Chart.Accounts
import ValidatorDays.Proofs.Decimal.Division

namespace ValidatorDays.BlockTotals

open Decimal

variable {t : BlockTotals} {blocks : List Block} {first last : Block}

theorem elapsed_eq (begins : blocks.head? = some first) (ends : blocks.getLast? = some last) :
    elapsed blocks = (first.timestamp - last.timestamp) * 1000000 := by
  rw [elapsed, begins, ends]
  rfl

theorem averageBlockTime_zero (belowTwo : t.blockCount < 2) : t.averageBlockTime = .ok 0 := by
  rw [averageBlockTime, if_pos belowTwo]
  rfl

/-- Micros of 64 bits have few digits, so that making seconds of their average does not round. -/
theorem averageBlockTime_rounds (several : 2 ≤ t.blockCount)
    (inRange : t.blockTimeMicros ∈ Bounds.int64) : ∃ a, t.averageBlockTime = .ok a ∧
      Rounds (t.blockTimeMicros / ((t.blockCount - 1 : Int) : ℚ) / (microsPerSecond : ℚ))
        a.value := by
  have gaps : (ofInt (t.blockCount - 1)).isZero = false := by
    simp only [isZero, ofInt, beq_eq_false_iff_ne]
    omega
  have second : (ofInt microsPerSecond).isZero = false := by decide
  have short : (ofInt t.blockTimeMicros).mantissa.natAbs < 10 ^ quotientDigits := by
    have least : (9223372036854775808 : ℕ) < 10 ^ quotientDigits := by norm_num [quotientDigits]
    simp only [Bounds.mem_iff, Bounds.int64] at inRange
    simp only [ofInt]
    omega
  have power : (ofInt microsPerSecond).value = 10 ^ (6 : ℤ) := by
    rw [value_ofInt, microsPerSecond]
    norm_num
  have rounds := divided_twice gaps short second power
  simp only [value_ofInt] at rounds
  refine ⟨_, ?_, rounds⟩
  rw [averageBlockTime, if_neg (by omega), div_eq_ok gaps]
  exact div_eq_ok second

/-- The average over so many gaps that add up to the time from the first block to the last. -/
structure Averages (first last : Block) (n : Nat) (t : BlockTotals) : Prop where
  elapsed : t.blockTimeMicros = (first.timestamp - last.timestamp) * 1000000
  average : ∃ a, t.averageBlockTime = .ok a ∧
    Rounds ((first.timestamp - last.timestamp : Int) / (n - 1 : ℚ)) a.value

theorem Accounts.averages {charged : List Charge} (accounts : Accounts charged blocks t)
    (several : 2 ≤ blocks.length) (begins : blocks.head? = some first)
    (ends : blocks.getLast? = some last) : Averages first last blocks.length t where
  elapsed := by rw [accounts.blockTimeMicros, elapsed_eq begins ends]
  average := by
    have gaps : 2 ≤ t.blockCount := by
      rw [accounts.blockCount]
      exact_mod_cast several
    obtain ⟨a, well, rounds⟩ := averageBlockTime_rounds gaps accounts.inRange
    have seconds : (t.blockTimeMicros : ℚ) / ((t.blockCount - 1 : Int) : ℚ) / microsPerSecond =
        (first.timestamp - last.timestamp : Int) / (blocks.length - 1 : ℚ) := by
      rw [accounts.blockCount, accounts.blockTimeMicros, elapsed_eq begins ends, microsPerSecond]
      push_cast
      ring
    rw [seconds] at rounds
    exact ⟨a, well, rounds⟩

theorem averageBlockTime_congr {u : BlockTotals} (count : u.blockCount = t.blockCount)
    (micros : u.blockTimeMicros = t.blockTimeMicros) :
    u.averageBlockTime = t.averageBlockTime := by
  rw [averageBlockTime, averageBlockTime, count, micros]

/-- The average time between blocks that have been counted. Blocks in between do not change it. -/
theorem average_of_blocks (counted : empty.addBlocks blocks = .ok t) :
    (blocks.length < 2 → t.averageBlockTime = .ok 0) ∧
    ∀ first last, 2 ≤ blocks.length → blocks.head? = some first → blocks.getLast? = some last →
      Averages first last blocks.length t ∧
      ∀ others u, empty.addBlocks others = .ok u → others.length = blocks.length →
        others.head?.map (·.timestamp) = some first.timestamp →
        others.getLast?.map (·.timestamp) = some last.timestamp →
          u.averageBlockTime = t.averageBlockTime := by
  obtain ⟨-, accounts⟩ := accounts_of_ok counted
  refine ⟨fun belowTwo => ?_, fun first last several begins ends =>
    ⟨accounts.averages several begins ends, ?_⟩⟩
  · apply averageBlockTime_zero
    rw [accounts.blockCount]
    exact_mod_cast belowTwo
  · intro others u countedToo length beginsToo endsToo
    obtain ⟨-, accountsToo⟩ := accounts_of_ok countedToo
    obtain ⟨a, head, atFirst⟩ := Option.map_eq_some_iff.mp beginsToo
    obtain ⟨b, tail, atLast⟩ := Option.map_eq_some_iff.mp endsToo
    apply averageBlockTime_congr
    · rw [accounts.blockCount, accountsToo.blockCount, length]
    · rw [accounts.blockTimeMicros, accountsToo.blockTimeMicros, elapsed_eq begins ends,
        elapsed_eq head tail, atFirst, atLast]

def unevenBlocks : List Block :=
  [⟨12, "c", 1031, ⟨7⟩, 30000000, []⟩, ⟨11, "b", 1012, ⟨7⟩, 30000000, []⟩,
    ⟨10, "a", 1000, ⟨7⟩, 30000000, []⟩]

theorem average_of_uneven_blocks : ∃ t a, empty.addBlocks unevenBlocks = .ok t ∧
    t.averageBlockTime = .ok a ∧ a.value = 31 / 2 := by
  have counted : empty.addBlocks unevenBlocks = .ok ⟨3, 0, 0, 0, .ofInt 0, .ofInt 0,
    .ofInt 90000000, .ofInt 0, .ofInt 0, .ofInt 0, 31000000, some 1000⟩ := by rfl
  obtain ⟨averages, -⟩ := (average_of_blocks counted).2 _ _ (by decide) rfl rfl
  obtain ⟨a, well, rounds⟩ := averages.average
  have half : ((1031 - 1000 : Int) / ((3 : Nat) - 1 : ℚ) : ℚ) = 31 / 2 := by norm_num
  have rounds : Rounds ((1031 - 1000 : Int) / ((3 : Nat) - 1 : ℚ)) a.value := rounds
  rw [half] at rounds
  exact ⟨_, a, counted, well, rounds.exact ⟨155, -1, by norm_num [quotientDigits], by norm_num⟩⟩

end ValidatorDays.BlockTotals
