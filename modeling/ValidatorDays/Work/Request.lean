import ValidatorDays.Income.Point
import ValidatorDays.Indexer.Record
import ValidatorDays.Ledger.Record
import ValidatorDays.Status.DayStatus
import ValidatorDays.Upsert.Batch
import ValidatorDays.Chain.IndexRange
/-! All that work asks of the world: statements of the database, questions to the indexer,
to the relays, to the price feed and to the cache, and what only time can tell. -/
namespace ValidatorDays

inductive Query where
  | finalizedEpochs (range : EpochRange)
  | blockCounts (range : EpochRange)
  | slashings (range : EpochRange)
  | deposits (range : EpochRange) (day : Day)
  | withdrawals (first stop : Slot)
  | canonicalBlocks (range : EpochRange)
  | validatorCount
  | lastFinalizedEpoch
  | firstBlockFrom (slot : Slot)
  | depositsSum (indices : List ValidatorIndex) (range : EpochRange)
  | withdrawalsSum (indices : List ValidatorIndex) (first stop : Slot)
  | endBalanceSum (indices : List ValidatorIndex) (day : Day)
  | rewardsSum (day : Day)
  | status (day : Day)
  /-- Also keeps others from changing the row before the transaction ends. -/
  | statusForUpdate (day : Day)
  | lastExportedDay
  | history (indices : List ValidatorIndex) (lower upper : Day)
  | lastEmission (before : Instant)
  | chartDayExported (day : Day)
  | relayBids (hashes : List BlockHash)
  | latestPrice
  | cached (key : String) (oldest : Instant)

abbrev Query.Rows : Query → Type
  | .finalizedEpochs _ => Int
  | .blockCounts _ => List BlockCounts
  | .slashings _ => List Slashings
  | .deposits .. => List Deposits
  | .withdrawals .. => List Withdrawals
  | .canonicalBlocks _ => List CanonicalBlock
  | .validatorCount => Int
  | .lastFinalizedEpoch => Option Epoch
  | .firstBlockFrom _ => Option BlockNumber
  | .depositsSum .. | .withdrawalsSum .. | .endBalanceSum .. | .rewardsSum _ => Gwei
  | .status _ | .statusForUpdate _ => Option DayStatus
  | .lastExportedDay => Option Day
  | .history .. => IncomeHistory
  | .lastEmission _ => Option Decimal
  | .chartDayExported _ => Bool
  | .relayBids _ => List (BlockHash × String)
  | .latestPrice => Option Decimal
  | .cached .. => Option Json

inductive Write where
  | merge (batch : Batch)
  | markExported (day : Day) (category : Category)
  | setFinished (day : Day)
  | deriveRewards (day : Day) (range : IndexRange)
  | cumulativeTotals (day : Day) (range : IndexRange)
  | performanceSnapshot (day : Day) (range : IndexRange)
  | rankPerformance
  | markChartDay (day : Day)
  | storeCached (key : String) (value : Json)

def performanceWindows : List Int := [1, 7, 31, 365]

def Day.performanceDays (day : Day) : Checked (List Day) := performanceWindows.mapM day.minus

/-- Works out the parameters of a statement. It cannot be issued before. -/
def Write.bound : Write → Checked Unit
  | .performanceSnapshot day _ => do
    let _ ← day.performanceDays
    return ()
  | _ => return ()

inductive IndexerQuery where
  | balances (range : EpochRange)
  | syncDuties (range : EpochRange)
  | failedAttestations (range : EpochRange)
  | proposerIncome (range : EpochRange)
  | blockRewards (numbers : List BlockNumber)
  | blocks (range : BlockRange)
  | balancesAt (indices : List ValidatorIndex) (epoch : Epoch)

abbrev IndexerQuery.Rows : IndexerQuery → Type
  | .balances _ => List BalanceSummary
  | .syncDuties _ => List SyncDuties
  | .failedAttestations _ => List FailedAttestations
  | .proposerIncome _ => List ProposerIncome
  | .blockRewards _ => List BlockReward
  | .blocks _ => List Block
  | .balancesAt .. => List ValidatorBalance

abbrev Landing (count : Nat) (ε ρ : Type) := Fin count × Except ε ρ

inductive Request where
  | query (q : Query)
  | write (w : Write)
  | begin
  | commit
  | indexer (q : IndexerQuery)
  | relays (hashes : List BlockHash)
  | price (currency : String)
  | cacheRead (key : String) (maxAge : Span)
  | cacheSubmit (key : String) (value : Json)
  | startWrite (w : Write)
  /-- Looks whether one of the statements under way has been answered. -/
  | pollWrites (underWay : List Write)
  /-- Waits until one of the statements under way is answered or the deadline is reached. -/
  | awaitWrites (underWay : List Write)
  | startFetch (range : EpochRange)
  | pollFetches (underWay : List EpochRange)
  | awaitFetches (underWay : List EpochRange)
  /-- Whether the first of two works goes on, where both can. -/
  | firstGoesOn
  | feederFirst
  | patience
  | now
  | connect (url : String)

/-- The answer of a request. Where several things are under way, no landing means that none
has been answered, or that the deadline came first. -/
abbrev Request.Answer : Request → Type
  | .query q => Except DatabaseError q.Rows
  | .write _ | .begin | .commit | .connect _ => Except DatabaseError Unit
  | .indexer q => Except Report q.Rows
  | .relays _ => Except Report (List (BlockHash × Wei))
  | .price _ => Except Report Decimal
  | .cacheRead .. => Except Report (Option Json)
  | .cacheSubmit .. | .startWrite _ | .startFetch _ => Unit
  | .pollWrites underWay | .awaitWrites underWay =>
    Option (Landing underWay.length DatabaseError Unit)
  | .pollFetches underWay | .awaitFetches underWay =>
    Option (Landing underWay.length Report (List FailedAttestations))
  | .firstGoesOn | .feederFirst | .patience => Bool
  | .now => Instant

end ValidatorDays
