import ValidatorDays.Stage.Gate

namespace ValidatorDays

namespace BlockCounts

def target : Target := statsTarget ["proposed_blocks", "missed_blocks", "orphaned_blocks"]

def row (day : Day) (b : BlockCounts) : Row :=
  [.int4 b.proposer, .ofDay day, .int4 b.proposed, .int4 b.missed, .int4 b.orphaned]

end BlockCounts

namespace Slashings

def target : Target := statsTarget ["attester_slashings", "proposer_slashings"]

def row (day : Day) (s : Slashings) : Row :=
  [.int4 s.proposer, .ofDay day, .int4 s.ofAttesters, .int4 s.ofProposers]

end Slashings

namespace BlockStats

def stage (settings : Settings) (day : Day) : Program Unit := do
  ensureDayFinalized day
  let (counts, slashings) ←
    (readStage (.blockCounts day.epochs)).both (readStage (.slashings day.epochs))
  let group := settings.group "block_stats"
  let _ ← mergeRows group BlockCounts.target (counts.map (BlockCounts.row day))
    settings.upsertBatch
  let _ ← mergeRows group Slashings.target (slashings.map (Slashings.row day))
    settings.upsertBatch
  markExported day .blockStats

end BlockStats
end ValidatorDays
