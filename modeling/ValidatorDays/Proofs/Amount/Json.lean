import ValidatorDays.Amount.Json
import ValidatorDays.Proofs.Json.Carried

namespace ValidatorDays

open Json

namespace Denomination

variable {d : Denomination}

def decoder : (d : Denomination) → Decoder (Amount d)
  | .gwei => Amount.gwei
  | .wei => Amount.wei

theorem zero_mem_bounds : 0 ∈ d.bounds := by
  cases d <;> decide

theorem bounds_signed : d.bounds.least < 0 := by
  cases d <;> decide

theorem decoder_text_iff {s : String} {a : Amount d} :
    d.decoder (.text s) = .ok a ↔ d.bounds.read s = .ok a.count := by
  obtain ⟨n⟩ := a
  cases d with
  | gwei =>
    simp only [decoder, Amount.gwei, bounds]
    cases Bounds.int64.read s <;> simp
  | wei =>
    simp only [decoder, Amount.wei, bounds]
    cases Bounds.int128.read s <;> simp

end Denomination

namespace Amount

variable {d : Denomination} {a : Amount d} {s : String} {n : Int}

def Fits (a : Amount d) : Prop := a.count ∈ d.bounds

instance : Decidable a.Fits := inferInstanceAs (Decidable (a.count ∈ d.bounds))

theorem decoder_text : d.decoder (.text s) = .ok a ↔ Numeral s.toList a.count ∧ a.Fits := by
  rw [Denomination.decoder_text_iff, Bounds.read,
    Bounds.readChars_eq_ok_iff Denomination.zero_mem_bounds Denomination.bounds_signed]
  rfl

theorem decoder_intText (inside : n ∈ d.bounds) : d.decoder (.text (intText n)) = .ok ⟨n⟩ :=
  Denomination.decoder_text_iff.mpr (Bounds.read_intText inside Denomination.zero_mem_bounds)

theorem gwei_carries_int (inside : n ∈ Bounds.int64) : Carries gwei (.int n) ⟨n⟩ := by
  refine ⟨(Carries.int64 inside).plain, ?_⟩
  simp only [gwei, integer_int inside]
  rfl

theorem Fits.carries (fits : a.Fits) : Carries d.decoder a.toJson a :=
  ⟨.text _, decoder_intText fits⟩

theorem Fits.gwei {a : Gwei} (fits : a.Fits) : Carries Amount.gwei a.toJson a := fits.carries

theorem Fits.wei {a : Wei} (fits : a.Fits) : Carries Amount.wei a.toJson a := fits.carries

end Amount
end ValidatorDays
