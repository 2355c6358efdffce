import ValidatorDays.Amount.Json
import ValidatorDays.Indexer.Record

namespace ValidatorDays

open Json Amount

namespace BalanceSummary

def members : List Member :=
  [.required "index" int32,
    .required "min_balance" gwei,
    .required "max_balance" gwei,
    .required "min_effective_balance" gwei,
    .required "max_effective_balance" gwei,
    .required "start_balance" gwei,
    .required "start_effective_balance" gwei,
    .required "end_balance" gwei,
    .required "end_effective_balance" gwei]

def decode : Decoder BalanceSummary := fun value => do
  match ← membersOf "a balance statistic" members value with
  | [index, low, high, lowEffective, highEffective, start, startEffective, stop, stopEffective] =>
    return ⟨← int32 index, ← gwei low, ← gwei high, ← gwei lowEffective, ← gwei highEffective,
      ← gwei start, ← gwei startEffective, ← gwei stop, ← gwei stopEffective⟩
  | _ => .error (.mismatch (.length 9))

def toJson (b : BalanceSummary) : Json :=
  .object [("index", .int b.index),
    ("min_balance", b.minimum.toJson),
    ("max_balance", b.maximum.toJson),
    ("min_effective_balance", b.minimumEffective.toJson),
    ("max_effective_balance", b.maximumEffective.toJson),
    ("start_balance", b.start.toJson),
    ("start_effective_balance", b.startEffective.toJson),
    ("end_balance", b.stop.toJson),
    ("end_effective_balance", b.stopEffective.toJson)]

end BalanceSummary

namespace SyncDuties

def members : List Member :=
  [.required "index" int32,
    .required "participated_sync" int32,
    .required "missed_sync" int32,
    .required "orphaned_sync" int32]

def decode : Decoder SyncDuties := fun value => do
  match ← membersOf "a sync duty statistic" members value with
  | [index, participated, missed, orphaned] =>
    return ⟨← int32 index, ← int32 participated, ← int32 missed, ← int32 orphaned⟩
  | _ => .error (.mismatch (.length 4))

def toJson (s : SyncDuties) : Json :=
  .object [("index", .int s.index),
    ("participated_sync", .int s.participated),
    ("missed_sync", .int s.missed),
    ("orphaned_sync", .int s.orphaned)]

end SyncDuties

namespace FailedAttestations

def members : List Member :=
  [.required "index" int32,
    .required "missed_attestations" int32,
    .required "orphaned_attestations" int32]

def decode : Decoder FailedAttestations := fun value => do
  match ← membersOf "a failed attestation statistic" members value with
  | [index, missed, orphaned] => return ⟨← int32 index, ← int32 missed, ← int32 orphaned⟩
  | _ => .error (.mismatch (.length 3))

def toJson (f : FailedAttestations) : Json :=
  .object [("index", .int f.index),
    ("missed_attestations", .int f.missed),
    ("orphaned_attestations", .int f.orphaned)]

end FailedAttestations

namespace ProposerIncome

def members : List Member :=
  [.required "index" int32,
    .required "proposer_attestation_inclusion_reward" gwei,
    .required "proposer_slashing_inclusion_reward" gwei,
    .required "proposer_sync_inclusion_reward" gwei]

def decode : Decoder ProposerIncome := fun value => do
  match ← membersOf "a proposer income" members value with
  | [index, attestations, slashings, syncDuties] =>
    return ⟨← int32 index, ← gwei attestations, ← gwei slashings, ← gwei syncDuties⟩
  | _ => .error (.mismatch (.length 4))

def toJson (p : ProposerIncome) : Json :=
  .object [("index", .int p.index),
    ("proposer_attestation_inclusion_reward", p.attestations.toJson),
    ("proposer_slashing_inclusion_reward", p.slashings.toJson),
    ("proposer_sync_inclusion_reward", p.syncDuties.toJson)]

end ProposerIncome

namespace BlockReward

def members : List Member :=
  [.required "number" int64, .required "hash" string, .required "tx_reward" wei]

def decode : Decoder BlockReward := fun value => do
  match ← membersOf "an indexed block" members value with
  | [number, hash, fees] => return ⟨← int64 number, ← string hash, ← wei fees⟩
  | _ => .error (.mismatch (.length 3))

def toJson (b : BlockReward) : Json :=
  .object [("number", .int b.number), ("hash", .text b.hash), ("tx_reward", b.fees.toJson)]

end BlockReward

namespace Transaction

def members : List Member :=
  [.required "hash" string,
    .required "type" byte,
    .required "status" byte,
    .required "gas_used" int64,
    .required "gas_price" wei,
    .required "max_fee_per_gas" wei,
    .required "max_priority_fee_per_gas" wei]

def decode : Decoder Transaction := fun value => do
  match ← membersOf "a transaction" members value with
  | [hash, kind, status, gasUsed, gasPrice, maxFee, maxPriorityFee] =>
    return ⟨← string hash, ← byte kind, ← byte status, ← int64 gasUsed, ← wei gasPrice,
      ← wei maxFee, ← wei maxPriorityFee⟩
  | _ => .error (.mismatch (.length 7))

def toJson (t : Transaction) : Json :=
  .object [("hash", .text t.hash),
    ("type", .int t.kind),
    ("status", .int t.status),
    ("gas_used", .int t.gasUsed),
    ("gas_price", t.gasPrice.toJson),
    ("max_fee_per_gas", t.maxFeePerGas.toJson),
    ("max_priority_fee_per_gas", t.maxPriorityFeePerGas.toJson)]

end Transaction

namespace Block

def members : List Member :=
  [.required "number" int64,
    .required "hash" string,
    .required "timestamp" int64,
    .required "base_fee_per_gas" wei,
    .required "gas_limit" int64,
    .required "transactions" (listOf Transaction.decode)]

def decode : Decoder Block := fun value => do
  match ← membersOf "a block" members value with
  | [number, hash, timestamp, baseFee, gasLimit, transactions] =>
    return ⟨← int64 number, ← string hash, ← int64 timestamp, ← wei baseFee, ← int64 gasLimit,
      ← listOf Transaction.decode transactions⟩
  | _ => .error (.mismatch (.length 6))

def toJson (b : Block) : Json :=
  .object [("number", .int b.number),
    ("hash", .text b.hash),
    ("timestamp", .int b.timestamp),
    ("base_fee_per_gas", b.baseFeePerGas.toJson),
    ("gas_limit", .int b.gasLimit),
    ("transactions", .list (b.transactions.map Transaction.toJson))]

end Block

namespace ValidatorBalance

def members : List Member := [.required "index" int32, .required "balance" gwei]

def decode : Decoder ValidatorBalance := fun value => do
  match ← membersOf "a validator balance" members value with
  | [index, balance] => return ⟨← int32 index, ← gwei balance⟩
  | _ => .error (.mismatch (.length 2))

def toJson (b : ValidatorBalance) : Json :=
  .object [("index", .int b.index), ("balance", b.balance.toJson)]

end ValidatorBalance
end ValidatorDays
