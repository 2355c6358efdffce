import ValidatorDays.Json.Writer
import ValidatorDays.Work.Request
/-! Statements on the wire: a name, and the parameters in order. -/
namespace ValidatorDays

namespace SqlValue

def toJson : SqlValue → Json
  | .int4 n | .int8 n => .int n
  | .numeric d => .object [("numeric", .text d.render)]
  | .text s => .text s
  | .time t => .object [("time", .int t.seconds)]

end SqlValue

namespace Wire

def ints (ns : List Int) : Json := .list (ns.map .int)
def day (d : Day) : Json := .int d.number
def slot (s : Slot) : Json := .int s.number
def time (t : Instant) : Json := (SqlValue.time t).toJson
def epochs (r : EpochRange) : List Json := [.int r.first.number, .int r.last.number]
def indexRange (r : IndexRange) : List Json := [.int r.start, .int r.stop]

structure Statement where
  name : String
  parameters : List Json
  sql : Option String

def ofQuery : Query → Statement
  | .finalizedEpochs range => ⟨"finalized_epochs", epochs range, none⟩
  | .blockCounts range => ⟨"block_counts", epochs range, none⟩
  | .slashings range => ⟨"slashings", epochs range, none⟩
  | .deposits range d => ⟨"deposits", epochs range ++ [day d], none⟩
  | .withdrawals first stop => ⟨"withdrawals", [slot first, slot stop], none⟩
  | .canonicalBlocks range => ⟨"canonical_blocks", epochs range, none⟩
  | .validatorCount => ⟨"validator_count", [], none⟩
  | .lastFinalizedEpoch => ⟨"last_finalized_epoch", [], none⟩
  | .firstBlockFrom s => ⟨"first_block_from", [slot s], none⟩
  | .depositsSum indices range => ⟨"deposits_sum", ints indices :: epochs range, none⟩
  | .withdrawalsSum indices first stop =>
    ⟨"withdrawals_sum", [ints indices, slot first, slot stop], none⟩
  | .endBalanceSum indices d => ⟨"end_balance_sum", [ints indices, day d], none⟩
  | .rewardsSum d => ⟨"rewards_sum", [day d], none⟩
  | .status d => ⟨"status", [day d], none⟩
  | .statusForUpdate d => ⟨"status_for_update", [day d], none⟩
  | .lastExportedDay => ⟨"last_exported_day", [], none⟩
  | .history indices lower upper => ⟨"history", [ints indices, day lower, day upper], none⟩
  | .lastEmission before => ⟨"last_emission", [.text "TOTAL_EMISSION", time before], none⟩
  | .chartDayExported d => ⟨"chart_day_exported", [day d], none⟩
  | .relayBids hashes => ⟨"relay_bids", [.list (hashes.map .text)], none⟩
  | .latestPrice => ⟨"latest_price", [], none⟩
  | .cached key oldest => ⟨"cached", [.text key, time oldest], none⟩

/-- The statement that sets the flag of a category, and makes the row of a day that has none. -/
def markSql (category : Category) : String :=
  "INSERT INTO validator_stats_status (day, status, " ++ category.column ++
    ") VALUES ($1, FALSE, TRUE) ON CONFLICT (day) DO UPDATE SET " ++ category.column ++
    " = excluded." ++ category.column

/-- Days that no window reaches are left out; a statement that lacks one is never sent. -/
def performanceDays (d : Day) : List Json :=
  match d.performanceDays with
  | .ok days => days.map day
  | .error _ => []

def ofWrite : Write → Statement
  | .merge batch => ⟨"merge", batch.values.map SqlValue.toJson, some batch.sql⟩
  | .markExported d category => ⟨"mark_exported", [day d], some (markSql category)⟩
  | .setFinished d => ⟨"set_finished", [day d], none⟩
  | .deriveRewards d range =>
    ⟨if d = Day.genesis then "derive_rewards_of_genesis" else "derive_rewards",
      day d :: indexRange range, none⟩
  | .cumulativeTotals d range => ⟨"cumulative_totals", day d :: indexRange range, none⟩
  | .performanceSnapshot d range =>
    ⟨"performance_snapshot", day d :: performanceDays d ++ indexRange range, none⟩
  | .rankPerformance => ⟨"rank_performance", [], none⟩
  | .markChartDay d => ⟨"mark_chart_day", [day d], none⟩
  | .storeCached key value => ⟨"store_cached", [.text key, value], none⟩

def Statement.toJson (s : Statement) : Json :=
  .object (("statement", .text s.name) :: ("parameters", .list s.parameters) ::
    match s.sql with
    | some sql => [("sql", .text sql)]
    | none => [])

end Wire
end ValidatorDays
