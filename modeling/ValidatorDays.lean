import ValidatorDays.Main
import ValidatorDays.Proofs.Chain.Rounding
import ValidatorDays.Proofs.Chart.Alignment
import ValidatorDays.Proofs.Chart.BlockTime
import ValidatorDays.Proofs.Chart.Coverage
import ValidatorDays.Proofs.Chart.Points
import ValidatorDays.Proofs.Chart.Supply
import ValidatorDays.Proofs.Command.Course
import ValidatorDays.Proofs.Command.Days
import ValidatorDays.Proofs.Environment.Secrets
import ValidatorDays.Proofs.Income.Base
import ValidatorDays.Proofs.Income.Cached
import ValidatorDays.Proofs.Income.Days
import ValidatorDays.Proofs.Income.Key
import ValidatorDays.Proofs.Income.Windows
import ValidatorDays.Proofs.Json.Lossless
import ValidatorDays.Proofs.Stage.Attestations
import ValidatorDays.Proofs.Stage.Earnings
import ValidatorDays.Proofs.Stage.Finality
import ValidatorDays.Proofs.Stage.Inclusion
import ValidatorDays.Proofs.Stage.Interleaving
import ValidatorDays.Proofs.Stage.Marks
import ValidatorDays.Proofs.Stage.Proposers
import ValidatorDays.Proofs.Stage.Ranking
import ValidatorDays.Proofs.Stage.Targets
import ValidatorDays.Proofs.Stage.Totals
import ValidatorDays.Proofs.Stage.Validators
import ValidatorDays.Proofs.Upsert.Handed
import ValidatorDays.Proofs.Upsert.Parameters
import ValidatorDays.Proofs.Worker.Deadline
import ValidatorDays.Worker.Schedule
