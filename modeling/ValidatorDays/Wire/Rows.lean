import ValidatorDays.Amount.Json
import ValidatorDays.Decimal.Text
import ValidatorDays.Work.Request
/-! The rows that answer a query on the wire: a list of rows, each a list of columns. -/
namespace ValidatorDays.Wire

open Json

def fail {α : Type} (reason : String) : Except DecodeError α := .error (.mismatch (.refused reason))

def flag : Decoder Bool
  | .bool b => .ok b
  | value => refuse "a flag" value

def decimal : Decoder Decimal
  | .text s =>
    match Decimal.read? s with
    | some d => .ok d
    | none => fail "no decimal"
  | value => refuse "a decimal" value

def blockCounts : Decoder BlockCounts
  | .list [proposer, proposed, missed, orphaned] =>
    return ⟨← int32 proposer, ← int32 proposed, ← int32 missed, ← int32 orphaned⟩
  | value => refuse "four columns" value

def slashings : Decoder Slashings
  | .list [proposer, attesters, proposers] =>
    return ⟨← int32 proposer, ← int32 attesters, ← int32 proposers⟩
  | value => refuse "three columns" value

def deposits : Decoder Deposits
  | .list [index, day, count, amount] =>
    return ⟨← int32 index, ⟨← int32 day⟩, ← int32 count, ← int64 amount⟩
  | value => refuse "four columns" value

def withdrawals : Decoder Withdrawals
  | .list [index, count, amount] => return ⟨← int32 index, ← int32 count, ← int64 amount⟩
  | value => refuse "three columns" value

def canonicalBlock : Decoder CanonicalBlock
  | .list [slot, number, proposer] => return ⟨⟨← int64 slot⟩, ← int64 number, ← int32 proposer⟩
  | value => refuse "three columns" value

def dayStatus : Decoder DayStatus
  | .list [finished, failed, sync, transfers, balance, consensus, execution, total, blocks] => do
    let finished ← flag finished
    let failed ← flag failed
    let sync ← flag sync
    let transfers ← flag transfers
    let balance ← flag balance
    let consensus ← flag consensus
    let execution ← flag execution
    let total ← flag total
    let blocks ← flag blocks
    return ⟨finished, fun
      | .failedAttestations => failed
      | .syncDuties => sync
      | .withdrawalsDeposits => transfers
      | .blockStats => blocks
      | .balance => balance
      | .consensusRewards => consensus
      | .executionRewards => execution
      | .totalPerformance => total⟩
  | value => refuse "nine columns" value

def point : Decoder IncomePoint
  | .list [day, rewards, endBalance] =>
    return ⟨⟨← int32 day⟩, ← int64 rewards, ← optional int64 endBalance⟩
  | value => refuse "three columns" value

def bid : Decoder (BlockHash × String)
  | .list [hash, bid] => return (← string hash, ← string bid)
  | value => refuse "two columns" value

def price : Decoder Decimal
  | .list [_, usd] => decimal usd
  | value => refuse "two columns" value

def column {α : Type} (decoder : Decoder α) : Decoder α
  | .list [value] => decoder value
  | value => refuse "one column" value

def oneRow {α : Type} (decoder : Decoder α) : Decoder α
  | .list [row] => decoder row
  | value => refuse "one row" value

def firstRow {α : Type} (decoder : Decoder α) : Decoder (Option α)
  | .list [] => .ok none
  | .list (row :: _) => some <$> decoder row
  | value => refuse "rows" value

def total : Decoder Gwei := oneRow (column fun value => Amount.mk <$> int64 value)

def rowsOf : (q : Query) → Decoder q.Rows
  | .finalizedEpochs _ => oneRow (column int64)
  | .blockCounts _ => listOf blockCounts
  | .slashings _ => listOf slashings
  | .deposits .. => listOf deposits
  | .withdrawals .. => listOf withdrawals
  | .canonicalBlocks _ => listOf canonicalBlock
  | .validatorCount => oneRow (column int32)
  | .lastFinalizedEpoch => firstRow (column fun value => Epoch.mk <$> int64 value)
  | .firstBlockFrom _ => firstRow (column int64)
  | .depositsSum .. | .withdrawalsSum .. | .endBalanceSum .. | .rewardsSum _ => total
  | .status _ | .statusForUpdate _ => firstRow dayStatus
  | .lastExportedDay => firstRow (column fun value => Day.mk <$> int32 value)
  | .history .. => listOf point
  | .lastEmission _ => firstRow (column decimal)
  | .chartDayExported _ => oneRow (column flag)
  | .relayBids _ => listOf bid
  | .latestPrice => firstRow price
  | .cached .. => firstRow (column .ok)

end ValidatorDays.Wire
