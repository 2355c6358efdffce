import ValidatorDays.Failure
import ValidatorDays.Indexer.Record
import ValidatorDays.Decimal.Division
/-! Running totals over execution blocks, highest block first. Sums of wei outgrow every
fixed width, so they are decimals. -/
namespace ValidatorDays

inductive Pricing where
  | gasPrice
  | feeMarket
  deriving DecidableEq, Repr

def Pricing.ofKind? (kind : Int) : Option Pricing :=
  if kind = 0 ∨ kind = 1 then some .gasPrice
  else if kind = 2 ∨ kind = 3 ∨ kind = 4 then some .feeMarket
  else none

structure BlockTotals where
  blockCount : Int
  txCount : Int
  gasPriceTxCount : Int
  failedTxCount : Int
  gasUsed : Decimal
  failedGasUsed : Decimal
  gasLimit : Decimal
  gasPrice : Decimal
  burned : Decimal
  tips : Decimal
  blockTimeMicros : Int
  previousTimestamp : Option Int
  deriving Repr

namespace BlockTotals

def empty : BlockTotals := ⟨0, 0, 0, 0, 0, 0, 0, 0, 0, 0, 0, none⟩

instance : Inhabited BlockTotals := ⟨empty⟩

def microsPerSecond : Int := 1000000

abbrev Progress := BlockTotals × Option StageError

def unexpected (what : String) (value : Int) (block : Block) (tx : Transaction) : StageError :=
  .unexpectedValue what (intText value) ("tx " ++ tx.hash ++ " in block " ++ intText block.number)

/-- What the proposer gets for a unit of gas. -/
def tipPerGas (pricing : Pricing) (baseFee : Decimal) (tx : Transaction) : Decimal :=
  match pricing with
  | .gasPrice => tx.gasPrice.toDecimal - baseFee
  | .feeMarket => tx.maxPriorityFeePerGas.toDecimal.lower (tx.maxFeePerGas.toDecimal - baseFee)

def countPrice (t : BlockTotals) (pricing : Pricing) (tx : Transaction) : Checked BlockTotals :=
  match pricing with
  | .gasPrice => do
    let count ← Bounds.int64.check (t.gasPriceTxCount + 1)
    return { t with gasPriceTxCount := count, gasPrice := t.gasPrice + tx.gasPrice.toDecimal }
  | .feeMarket => return t

def countFailure (t : BlockTotals) (tx : Transaction) : Checked BlockTotals := do
  let count ← Bounds.int64.check (t.failedTxCount + 1)
  return { t with failedTxCount := count, failedGasUsed := t.failedGasUsed + .ofInt tx.gasUsed }

def countFees (t : BlockTotals) (baseFee tip : Decimal) (tx : Transaction) :
    Checked BlockTotals := do
  let count ← Bounds.int64.check (t.txCount + 1)
  let gas := Decimal.ofInt tx.gasUsed
  return { t with
    txCount := count
    burned := t.burned + baseFee * gas
    tips := t.tips + tip * gas
    gasUsed := t.gasUsed + gas }

/-- The price counts before the status is looked at. -/
def addTransaction (t : BlockTotals) (block : Block) (tx : Transaction) : Checked Progress := do
  let baseFee := block.baseFeePerGas.toDecimal
  match Pricing.ofKind? tx.kind with
  | none => return (t, some (unexpected "transaction type" tx.kind block tx))
  | some pricing =>
    let t ← t.countPrice pricing tx
    if tx.status = 0 then
      let t ← t.countFailure tx
      return (← t.countFees baseFee (tipPerGas pricing baseFee tx) tx, none)
    else if tx.status = 1 then
      return (← t.countFees baseFee (tipPerGas pricing baseFee tx) tx, none)
    else return (t, some (unexpected "transaction status" tx.status block tx))

def addTransactions (t : BlockTotals) (block : Block) : List Transaction → Checked Progress
  | [] => return (t, none)
  | tx :: rest => do
    match ← t.addTransaction block tx with
    | (t, none) => t.addTransactions block rest
    | (t, some e) => return (t, some e)

/-- The gap to the block seen before, which is the next higher one. -/
def countGap (t : BlockTotals) (timestamp : Int) : Checked Int :=
  match t.previousTimestamp with
  | none => return t.blockTimeMicros
  | some previous => do
    let gap ← Bounds.int64.check (previous - timestamp)
    let micros ← Bounds.int64.check (gap * microsPerSecond)
    Bounds.int64.check (t.blockTimeMicros + micros)

def addHeader (t : BlockTotals) (block : Block) : Checked BlockTotals := do
  let count ← Bounds.int64.check (t.blockCount + 1)
  let micros ← t.countGap block.timestamp
  return { t with
    blockCount := count
    gasLimit := t.gasLimit + .ofInt block.gasLimit
    blockTimeMicros := micros
    previousTimestamp := some block.timestamp }

def addBlock (t : BlockTotals) (block : Block) : Checked Progress := do
  (← t.addHeader block).addTransactions block block.transactions

def addBlocks (t : BlockTotals) : List Block → Outcome BlockTotals
  | [] => return t
  | block :: rest => do
    match ← t.addBlock block with
    | (t, none) => t.addBlocks rest
    | (_, some e) => throw (.stage e)

def averageBlockTime (t : BlockTotals) : Checked Decimal := do
  if t.blockCount < 2 then return 0
  else (← Decimal.ofInt t.blockTimeMicros / Decimal.ofInt (t.blockCount - 1)) /
    Decimal.ofInt microsPerSecond

def nonFailedGasUsed (t : BlockTotals) : Decimal := t.gasUsed - t.failedGasUsed

end BlockTotals
end ValidatorDays
