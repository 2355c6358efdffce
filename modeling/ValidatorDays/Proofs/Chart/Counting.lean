import Mathlib
import ValidatorDays.Proofs.Chart.Streaming
import ValidatorDays.Proofs.Status.Books

namespace ValidatorDays.BlockStream

open Program

/-- Over the blocks of a chain, a stream comes to what counting the blocks of the range from the
highest to the lowest comes to, be it totals or an error. It fails if a chunk is refused, or is
never told. -/
theorem totals_streamed {chain : List Block} (descending : Descending chain) {range : BlockRange}
    {chunkSize : Int} (fits : chunkSize < 2 ^ 61) {chunks : List BlockRange}
    (cut : range.descending chunkSize = .ok chunks) {trace : List Event}
    {result : Outcome BlockTotals} (run : Runs (totals range chunkSize) trace result)
    (tells : ∀ event ∈ trace, Tells chain event) :
    ((∀ chunk cause, ⟨.indexer (.blocks chunk), .error cause⟩ ∉ trace) →
      result = BlockTotals.empty.addBlocks (range.of chain)) ∧
    ((∃ chunk cause, ⟨.indexer (.blocks chunk), .error cause⟩ ∈ trace) →
      ∃ failure, result = .error failure) ∧
    ((∃ chunk ∈ chunks, ∀ blocks, ⟨.indexer (.blocks chunk), .ok blocks⟩ ∉ trace) →
      ∃ failure, result = .error failure) := by
  have room : (max chunkSize 1).toNat ≤ roomLimit := by
    unfold roomLimit
    omega
  have course := totals_course room cut run
  refine ⟨course.counts descending cut tells, ?refused, ?untold⟩
  case refused =>
    rintro ⟨chunk, cause, refused⟩
    exact course.error_of_refused (mem_fetches.mpr refused)
  case untold =>
    rintro ⟨chunk, inside, untold⟩
    exact course.error_of_untold inside fun blocks member => untold blocks (mem_fetches.mp member)

/-- A world in which the indexer tells the blocks of a chain. -/
def telling (chain : List Block) : (r : Request) → r.Answer
  | .indexer (.blocks range) => .ok (range.of chain)
  | r => Books.calmAnswer 0 .empty r

theorem tells_telling (chain : List Block) (r : Request) : Tells chain ⟨r, telling chain r⟩ := by
  cases r with
  | indexer q =>
    cases q with
    | blocks range => exact rfl
    | _ => trivial
  | _ => trivial

/-- Five blocks, twelve seconds apart. The middle one holds a transaction with a gas price and one
for the fee market, which failed. -/
def fiveBlocks : List Block :=
  [⟨14, "e", 1048, ⟨7⟩, 30000000, []⟩, ⟨13, "d", 1036, ⟨7⟩, 30000000, []⟩,
    ⟨12, "c", 1024, ⟨8⟩, 30000000,
      [⟨"x", 0, 1, 21000, ⟨10⟩, ⟨0⟩, ⟨0⟩⟩, ⟨"y", 2, 0, 50000, ⟨0⟩, ⟨20⟩, ⟨1⟩⟩]⟩,
    ⟨11, "b", 1012, ⟨8⟩, 30000000, []⟩, ⟨10, "a", 1000, ⟨9⟩, 30000000, []⟩]

/-- Two chunks, of which the second is cut short by the start of the range. -/
theorem totals_streamed_two_chunks :
    (2 : Int) < 2 ^ 61 ∧ Descending fiveBlocks ∧
      BlockRange.descending ⟨11, 13⟩ 2 = .ok [⟨12, 13⟩, ⟨11, 11⟩] ∧
      ∃ trace result, Runs (totals ⟨11, 13⟩ 2) trace result ∧
        result = BlockTotals.empty.addBlocks (fiveBlocks.drop 1 |>.take 3) := by
  have descending : Descending fiveBlocks := by decide
  have cut : BlockRange.descending ⟨11, 13⟩ 2 = .ok [⟨12, 13⟩, ⟨11, 11⟩] := by cbv
  have run := runs_observe (steady (telling fiveBlocks)) (totals ⟨11, 13⟩ 2) ()
  have told := steady_answers (telling fiveBlocks) (totals ⟨11, 13⟩ 2)
  have counts := (totals_streamed descending (by norm_num) cut run ?tells).1 ?unrefused
  case tells =>
    rintro ⟨r, answer⟩ member
    have same : answer = telling fiveBlocks r := told _ member
    rw [same]
    exact tells_telling fiveBlocks r
  case unrefused =>
    intro chunk cause member
    cases told _ member
  exact ⟨by norm_num, descending, cut, _, _, run, counts⟩

end ValidatorDays.BlockStream
