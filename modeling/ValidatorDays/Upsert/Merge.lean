import ValidatorDays.Work.Group
/-! Writing rows: batch by batch, each for itself, or all batches or none. -/
namespace ValidatorDays

def Batch.job (b : Batch) : Job Write := ⟨.merge b, []⟩

/-- Every batch is a statement of its own: one that fails leaves the others in place. Gives
the number of rows written. -/
def mergeRows (g : Group) (t : Target) (rows : List Row) (batchSize : Nat) : Program Nat := do
  let batches ← Batch.plan t rows batchSize
  let _ ← g.run .writes (batches.map Batch.job)
  return (batches.map Batch.rowCount).foldr (· + ·) 0

/-- All statements in one transaction. Work that ends before the commit leaves no trace. -/
def writeTogether (writes : List Write) : Program Unit :=
  Program.mapFailure .asStage do
    Program.begin
    writes.forM Program.write
    Program.commit

/-- Without rows there is no transaction either. Gives the number of rows written. -/
def mergeRowsTogether (t : Target) (rows : List Row) (batchSize : Nat) : Program Nat := do
  match ← (Batch.plan t rows batchSize : Except StageError (List Batch)) with
  | [] => return 0
  | batches =>
    writeTogether (batches.map .merge)
    return rows.length

end ValidatorDays
