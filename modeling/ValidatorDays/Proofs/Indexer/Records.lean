import ValidatorDays.Indexer.Codec
import ValidatorDays.Proofs.Amount.Json

namespace ValidatorDays

open Json

namespace BalanceSummary

structure Fits (b : BalanceSummary) : Prop where
  index : b.index ∈ Bounds.int32
  minimum : b.minimum.Fits
  maximum : b.maximum.Fits
  minimumEffective : b.minimumEffective.Fits
  maximumEffective : b.maximumEffective.Fits
  start : b.start.Fits
  startEffective : b.startEffective.Fits
  stop : b.stop.Fits
  stopEffective : b.stopEffective.Fits

theorem Fits.carries {b : BalanceSummary} (fits : b.Fits) : Carries decode b.toJson b := by
  have index := Carries.int32 fits.index
  have minimum := fits.minimum.gwei
  have maximum := fits.maximum.gwei
  have minimumEffective := fits.minimumEffective.gwei
  have maximumEffective := fits.maximumEffective.gwei
  have start := fits.start.gwei
  have startEffective := fits.startEffective.gwei
  have stop := fits.stop.gwei
  have stopEffective := fits.stopEffective.gwei
  have filled : Fills members _ := .cons (index.required _) <| .cons (minimum.required _) <|
    .cons (maximum.required _) <| .cons (minimumEffective.required _) <|
    .cons (maximumEffective.required _) <| .cons (start.required _) <|
    .cons (startEffective.required _) <| .cons (stop.required _) <|
    .cons (stopEffective.required _) .nil
  refine (filled.object (by decide) _).made ?_
  simp only [index.decoded, minimum.decoded, maximum.decoded, minimumEffective.decoded,
    maximumEffective.decoded, start.decoded, startEffective.decoded, stop.decoded,
    stopEffective.decoded]
  rfl

end BalanceSummary

namespace SyncDuties

structure Fits (s : SyncDuties) : Prop where
  index : s.index ∈ Bounds.int32
  participated : s.participated ∈ Bounds.int32
  missed : s.missed ∈ Bounds.int32
  orphaned : s.orphaned ∈ Bounds.int32

theorem Fits.carries {s : SyncDuties} (fits : s.Fits) : Carries decode s.toJson s := by
  have index := Carries.int32 fits.index
  have participated := Carries.int32 fits.participated
  have missed := Carries.int32 fits.missed
  have orphaned := Carries.int32 fits.orphaned
  have filled : Fills members _ := .cons (index.required _) <| .cons (participated.required _) <|
    .cons (missed.required _) <| .cons (orphaned.required _) .nil
  refine (filled.object (by decide) _).made ?_
  simp only [index.decoded, participated.decoded, missed.decoded, orphaned.decoded]
  rfl

end SyncDuties

namespace FailedAttestations

structure Fits (f : FailedAttestations) : Prop where
  index : f.index ∈ Bounds.int32
  missed : f.missed ∈ Bounds.int32
  orphaned : f.orphaned ∈ Bounds.int32

theorem Fits.carries {f : FailedAttestations} (fits : f.Fits) : Carries decode f.toJson f := by
  have index := Carries.int32 fits.index
  have missed := Carries.int32 fits.missed
  have orphaned := Carries.int32 fits.orphaned
  have filled : Fills members _ := .cons (index.required _) <| .cons (missed.required _) <|
    .cons (orphaned.required _) .nil
  refine (filled.object (by decide) _).made ?_
  simp only [index.decoded, missed.decoded, orphaned.decoded]
  rfl

end FailedAttestations

namespace ProposerIncome

structure Fits (p : ProposerIncome) : Prop where
  index : p.index ∈ Bounds.int32
  attestations : p.attestations.Fits
  slashings : p.slashings.Fits
  syncDuties : p.syncDuties.Fits

theorem Fits.carries {p : ProposerIncome} (fits : p.Fits) : Carries decode p.toJson p := by
  have index := Carries.int32 fits.index
  have attestations := fits.attestations.gwei
  have slashings := fits.slashings.gwei
  have syncDuties := fits.syncDuties.gwei
  have filled : Fills members _ := .cons (index.required _) <| .cons (attestations.required _) <|
    .cons (slashings.required _) <| .cons (syncDuties.required _) .nil
  refine (filled.object (by decide) _).made ?_
  simp only [index.decoded, attestations.decoded, slashings.decoded, syncDuties.decoded]
  rfl

end ProposerIncome

namespace BlockReward

structure Fits (b : BlockReward) : Prop where
  number : b.number ∈ Bounds.int64
  fees : b.fees.Fits

theorem Fits.carries {b : BlockReward} (fits : b.Fits) : Carries decode b.toJson b := by
  have number := Carries.int64 fits.number
  have hash := Carries.string b.hash
  have fees := fits.fees.wei
  have filled : Fills members _ := .cons (number.required _) <| .cons (hash.required _) <|
    .cons (fees.required _) .nil
  refine (filled.object (by decide) _).made ?_
  simp only [number.decoded, hash.decoded, fees.decoded]
  rfl

end BlockReward

namespace Transaction

structure Fits (t : Transaction) : Prop where
  kind : t.kind ∈ Bounds.byte
  status : t.status ∈ Bounds.byte
  gasUsed : t.gasUsed ∈ Bounds.int64
  gasPrice : t.gasPrice.Fits
  maxFeePerGas : t.maxFeePerGas.Fits
  maxPriorityFeePerGas : t.maxPriorityFeePerGas.Fits

theorem Fits.carries {t : Transaction} (fits : t.Fits) : Carries decode t.toJson t := by
  have hash := Carries.string t.hash
  have kind := Carries.byte fits.kind
  have status := Carries.byte fits.status
  have gasUsed := Carries.int64 fits.gasUsed
  have gasPrice := fits.gasPrice.wei
  have maxFeePerGas := fits.maxFeePerGas.wei
  have maxPriorityFeePerGas := fits.maxPriorityFeePerGas.wei
  have filled : Fills members _ := .cons (hash.required _) <| .cons (kind.required _) <|
    .cons (status.required _) <| .cons (gasUsed.required _) <| .cons (gasPrice.required _) <|
    .cons (maxFeePerGas.required _) <| .cons (maxPriorityFeePerGas.required _) .nil
  refine (filled.object (by decide) _).made ?_
  simp only [hash.decoded, kind.decoded, status.decoded, gasUsed.decoded, gasPrice.decoded,
    maxFeePerGas.decoded, maxPriorityFeePerGas.decoded]
  rfl

end Transaction

namespace Block

structure Fits (b : Block) : Prop where
  number : b.number ∈ Bounds.int64
  timestamp : b.timestamp ∈ Bounds.int64
  baseFeePerGas : b.baseFeePerGas.Fits
  gasLimit : b.gasLimit ∈ Bounds.int64
  transactions : ∀ t ∈ b.transactions, t.Fits

theorem Fits.carries {b : Block} (fits : b.Fits) : Carries decode b.toJson b := by
  have number := Carries.int64 fits.number
  have hash := Carries.string b.hash
  have timestamp := Carries.int64 fits.timestamp
  have baseFeePerGas := fits.baseFeePerGas.wei
  have gasLimit := Carries.int64 fits.gasLimit
  have transactions := Carries.list fun t member => (fits.transactions t member).carries
  have filled : Fills members _ := .cons (number.required _) <| .cons (hash.required _) <|
    .cons (timestamp.required _) <| .cons (baseFeePerGas.required _) <|
    .cons (gasLimit.required _) <| .cons (transactions.required _) .nil
  refine (filled.object (by decide) _).made ?_
  simp only [number.decoded, hash.decoded, timestamp.decoded, baseFeePerGas.decoded,
    gasLimit.decoded, transactions.decoded]
  rfl

end Block

namespace ValidatorBalance

structure Fits (b : ValidatorBalance) : Prop where
  index : b.index ∈ Bounds.int32
  balance : b.balance.Fits

theorem Fits.carries {b : ValidatorBalance} (fits : b.Fits) : Carries decode b.toJson b := by
  have index := Carries.int32 fits.index
  have balance := fits.balance.gwei
  have filled : Fills members _ := .cons (index.required _) <| .cons (balance.required _) .nil
  refine (filled.object (by decide) _).made ?_
  simp only [index.decoded, balance.decoded]
  rfl

end ValidatorBalance

end ValidatorDays
