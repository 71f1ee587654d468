import Cadence.Json.Compact
import Cadence.Json.Reader
import Cadence.Rule.Loose
import Cadence.Schedule.Loose
import Cadence.Schedule.Merge
import Cadence.Service.Respond
import Cadence.Proofs.Rule.Stored
import Cadence.Proofs.Schedule.Warning
import Cadence.Proofs.Json.Real
import Cadence.Proofs.Rule.Documented
import Cadence.Proofs.Service.Answer
import Cadence.Proofs.Service.History
import Cadence.Proofs.Service.Create
import Cadence.Proofs.Service.Readable
import Cadence.Proofs.Calendar.Written
import Cadence.Proofs.Service.Dates
import Cadence.Proofs.Service.Agreement
import Cadence.Proofs.Schedule.Merge
import Cadence.Proofs.Service.Construction
import Cadence.Proofs.Service.Outcome
import Cadence.Proofs.Schedule.Loose
import Cadence.Proofs.Rule.Breach
import Cadence.Proofs.Schedule.Stride
import Cadence.Proofs.Schedule.Extension
import Cadence.Proofs.Schedule.Resumption
import Cadence.Proofs.Schedule.Selection
import Cadence.Proofs.Service.Reading
import Cadence.Proofs.Schedule.Due
import Cadence.Proofs.Schedule.Weekdays
import Cadence.Proofs.Schedule.Thinning
import Cadence.Proofs.Schedule.Summary
import Cadence.Proofs.Calendar.Chain
import Cadence.Proofs.Rule.Canonical
import Cadence.Proofs.Calendar.Drift
import Cadence.Proofs.Calendar.Cycle
import Cadence.Proofs.Calendar.Partition
import Cadence.Proofs.Calendar.Scan
import Cadence.Proofs.Schedule.Translation
import Cadence.Proofs.Settings.Environment
