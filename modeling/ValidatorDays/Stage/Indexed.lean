import ValidatorDays.Stage.Gate
import ValidatorDays.Tally
/-! What the indexer tells of validators over the day: their balances, the attestations they failed
to make, and their duties in the sync committee. -/
namespace ValidatorDays

namespace BalanceSummary

def target : Target := statsTarget ["min_balance", "max_balance", "min_effective_balance",
  "max_effective_balance", "start_balance", "start_effective_balance", "end_balance",
  "end_effective_balance"]

def row (day : Day) (b : BalanceSummary) : Row :=
  [.int4 b.index, .ofDay day, .ofGwei b.minimum, .ofGwei b.maximum, .ofGwei b.minimumEffective,
    .ofGwei b.maximumEffective, .ofGwei b.start, .ofGwei b.startEffective, .ofGwei b.stop,
    .ofGwei b.stopEffective]

def stage (settings : Settings) (day : Day) : Program Unit := do
  ensureDayFinalized day
  let balances ← askIndexer (.balances day.epochs)
  let _ ← mergeRows (settings.group "balances") target (balances.map (row day))
    settings.upsertBatch
  markExported day .balance

end BalanceSummary

namespace FailedAttestations

def target : Target := statsTarget ["missed_attestations", "orphaned_attestations"]

def row (day : Day) (f : FailedAttestations) : Row :=
  [.int4 f.index, .ofDay day, .int4 f.missed, .int4 f.orphaned]

abbrev Counts := Int × Int

def addTo (f : FailedAttestations) (counts : Option Counts) : Checked Counts := do
  let (missed, orphaned) := counts.getD (0, 0)
  return (← Bounds.int32.check (missed + f.missed),
    ← Bounds.int32.check (orphaned + f.orphaned))

/-- Windows have no epoch in common: who failed in several of them failed that often. -/
def sumUp (windows : List (List FailedAttestations)) : Checked (List FailedAttestations) := do
  let counts ← windows.flatten.foldlM (fun t f => Tally.change f.index f.addTo t) []
  return counts.map fun (index, missed, orphaned) => ⟨index, missed, orphaned⟩

def window (range : EpochRange) : Job EpochRange := ⟨range, []⟩

def stage (settings : Settings) (day : Day) : Program Unit := do
  ensureDayFinalized day
  let group := settings.group "failed_attestations"
  let windows ← day.epochs.split settings.attestationEpochs
  let partials ← group.run .fetches (windows.map window)
  let failures ← sumUp partials
  let _ ← mergeRows group target (failures.map (row day)) settings.upsertBatch
  markExported day .failedAttestations

end FailedAttestations

namespace SyncDuties

def target : Target := statsTarget ["participated_sync", "missed_sync", "orphaned_sync"]

def row (day : Day) (s : SyncDuties) : Row :=
  [.int4 s.index, .ofDay day, .int4 s.participated, .int4 s.missed, .int4 s.orphaned]

/-- Few validators have any duties, so their rows go out together. -/
def stage (settings : Settings) (day : Day) : Program Unit := do
  ensureDayFinalized day
  let duties ← askIndexer (.syncDuties day.epochs)
  let _ ← mergeRowsTogether target (duties.map (row day)) settings.syncDutiesBatch
  markExported day .syncDuties

end SyncDuties
end ValidatorDays
