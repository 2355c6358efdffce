import ValidatorDays.Proofs.Income.Cached
import ValidatorDays.Proofs.Indexer.Records

namespace ValidatorDays

open Json

namespace IncomePoint

variable {p : IncomePoint}

theorem Fits.balance_carries (fits : p.Fits) :
    Carries (optional int64) p.balanceJson p.endBalance := by
  refine ⟨?_, fits.decode_balance⟩
  unfold balanceJson
  cases balance : p.endBalance with
  | none => exact .null
  | some n => exact (Carries.int64 (fits.endBalance n balance)).plain

theorem Fits.carries (fits : p.Fits) : Carries decode p.toJson p := by
  have day := Carries.int32 fits.day
  have rewards := Carries.int64 fits.rewards
  have endBalance := fits.balance_carries
  have filled : Fills members _ := .cons (day.required _) <| .cons (rewards.required _) <|
    .cons (endBalance.voluntary _) .nil
  exact ⟨(filled.object (by decide) "").plain, fits.decode_toJson⟩

end IncomePoint

theorem IncomeHistory.carries {points : IncomeHistory} (fit : ∀ p ∈ points, p.Fits) :
    Carries decode points.toJson points :=
  .list fun p member => (fit p member).carries

/-- Gwei are read from a number or its text and wei from the text, over all their ranges. Of texts
just the numerals of the range are taken, for what they say. -/
theorem json_lossless :
    (∀ n ∈ Bounds.int64, Kept Amount.gwei (.int n) ⟨n⟩ ∧ Kept Amount.gwei (.text (intText n)) ⟨n⟩) ∧
    (∀ n ∈ Bounds.int128, Kept Amount.wei (.text (intText n)) ⟨n⟩) ∧
    (∀ (d : Denomination) (a : Amount d) (s : String),
      (d.decoder (.text s) = .ok a ↔ Numeral s.toList a.count ∧ a.Fits) ∧
      ∀ text, read text = (.text s, true) → decodeText d.decoder text = d.decoder (.text s)) ∧
    (∀ a : Gwei, a.Fits → Kept Amount.gwei a.toJson a) ∧
    (∀ a : Wei, a.Fits → Kept Amount.wei a.toJson a) ∧
    (∀ b : BalanceSummary, b.Fits → Kept BalanceSummary.decode b.toJson b) ∧
    (∀ s : SyncDuties, s.Fits → Kept SyncDuties.decode s.toJson s) ∧
    (∀ f : FailedAttestations, f.Fits → Kept FailedAttestations.decode f.toJson f) ∧
    (∀ p : ProposerIncome, p.Fits → Kept ProposerIncome.decode p.toJson p) ∧
    (∀ b : BlockReward, b.Fits → Kept BlockReward.decode b.toJson b) ∧
    (∀ t : Transaction, t.Fits → Kept Transaction.decode t.toJson t) ∧
    (∀ b : Block, b.Fits → Kept Block.decode b.toJson b) ∧
    (∀ b : ValidatorBalance, b.Fits → Kept ValidatorBalance.decode b.toJson b) ∧
    ∀ points : IncomeHistory, (∀ p ∈ points, p.Fits) →
      Kept IncomeHistory.decode points.toJson points := by
  refine ⟨?numbers, ?weis, ?texts, ?gweis, fun a fits => fits.wei.kept, ?records⟩
  case numbers =>
    intro n inside
    have fits : Amount.Fits (⟨n⟩ : Gwei) := inside
    exact ⟨(Amount.gwei_carries_int inside).kept, fits.gwei.kept⟩
  case weis =>
    intro n inside
    have fits : Amount.Fits (⟨n⟩ : Wei) := inside
    exact fits.wei.kept
  case texts =>
    intro d a s
    refine ⟨Amount.decoder_text, fun text spelled => ?_⟩
    simp only [decodeText, spelled]
    cases d.decoder (.text s) <;> rfl
  case gweis => exact fun a fits => fits.gwei.kept
  case records =>
    exact ⟨fun b fits => fits.carries.kept, fun s fits => fits.carries.kept,
      fun f fits => fits.carries.kept, fun p fits => fits.carries.kept,
      fun b fits => fits.carries.kept, fun t fits => fits.carries.kept,
      fun b fits => fits.carries.kept, fun b fits => fits.carries.kept,
      fun points fit => (IncomeHistory.carries fit).kept⟩

def twoTransactions : Block := ⟨17, "0xab", 1600000000, ⟨7⟩, 30000000,
  [⟨"0x01", 2, 1, 21000, ⟨9⟩, ⟨12⟩, ⟨2⟩⟩, ⟨"0x02", 0, 0, 50000, ⟨8⟩, ⟨8⟩, ⟨1⟩⟩]⟩

/-- The least gwei, the most wei, a seven that is spelled `+07`, and a block of two transactions. -/
theorem json_lossless_limits :
    Kept Amount.gwei (.int (-9223372036854775808)) ⟨-9223372036854775808⟩ ∧
    Kept Amount.wei (.text (intText 170141183460469231731687303715884105727))
      ⟨170141183460469231731687303715884105727⟩ ∧
    decodeText Amount.gwei "\"\\u002b07\"" = .ok ⟨7⟩ ∧
    Kept Block.decode (Block.toJson twoTransactions) twoTransactions := by
  obtain ⟨numbers, weis, texts, -, -, -, -, -, -, -, -, blocks, -, -⟩ := json_lossless
  refine ⟨(numbers _ (by decide)).1, weis _ (by decide), ?seven, blocks _ ?fits⟩
  case seven =>
    have spelled := (texts .gwei ⟨7⟩ "+07").2 "\"\\u002b07\"" rfl
    refine spelled.trans ((texts .gwei ⟨7⟩ "+07").1.mpr ⟨?_, by decide⟩)
    have digits : ∀ c ∈ ['0', '7'], c.isDigit = true :=
      List.forall_mem_cons.mpr ⟨rfl, List.forall_mem_singleton.mpr rfl⟩
    exact .plus (List.cons_ne_nil '0' ['7']) digits
  case fits =>
    refine ⟨by decide, by decide, by decide, by decide, ?_⟩
    simp only [twoTransactions, List.forall_mem_cons]
    exact ⟨by constructor <;> decide, by constructor <;> decide, nofun⟩

end ValidatorDays
