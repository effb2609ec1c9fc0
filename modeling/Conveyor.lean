import Conveyor.Proofs.Guarded
import Conveyor.Proofs.Phases
import Conveyor.Pipeline.Bench
import Conveyor.Server.Respond
import Conveyor.Proofs.Pipeline.Moves
import Conveyor.Proofs.Pipeline.Delivery
import Conveyor.Proofs.Pipeline.Drain
import Conveyor.Proofs.Pool.Changes
import Conveyor.Proofs.Pool.Coupling
import Conveyor.Proofs.Pool.Conservation
import Conveyor.Proofs.Pool.Calls
import Conveyor.Proofs.Service.Changes
import Conveyor.Proofs.Service.Shutdown
import Conveyor.Proofs.Pool.Barrier
import Conveyor.Proofs.Server.Admission
import Conveyor.Proofs.Pipeline.Rest
import Conveyor.Proofs.Pool.Rest
import Conveyor.Proofs.Service.Rest
import Conveyor.Proofs.Server.Changes
import Conveyor.Proofs.Server.Parts
import Conveyor.Proofs.Server.Orders
import Conveyor.Proofs.Server.Rest
import Conveyor.Proofs.Pipeline.Occupancy
import Conveyor.Proofs.Pool.Sequential
import Conveyor.Proofs.Dict
import Conveyor.Proofs.Metrics.Identity
import Conveyor.Proofs.Policy.Matching
import Conveyor.Proofs.Time.Written
import Conveyor.Proofs.Json.Written
import Conveyor.Proofs.Json.Items
import Conveyor.Proofs.Json.Submissions
import Conveyor.Proofs.Server.Resubmission
import Conveyor.Proofs.Server.Histories
import Conveyor.Proofs.Server.Fetching
import Conveyor.Proofs.Server.Draining
import Conveyor.Proofs.Server.Recent
import Conveyor.Proofs.Pipeline.Phases
import Conveyor.Proofs.Pool.Phases
import Conveyor.Proofs.Pipeline.Death
import Conveyor.Proofs.EarlyStop
import Conveyor.Proofs.Pool.Deaths
import Conveyor.Proofs.Pool.Saturation
import Conveyor.Proofs.Server.Phases
import Conveyor.Proofs.Server.Health
import Conveyor.Proofs.Metrics.Reading
import Conveyor.Proofs.Metrics.PerKey
import Conveyor.Proofs.Text.LowerTwice
import Conveyor.Proofs.Policy.Laws
import Conveyor.Proofs.Sink.Ring
import Conveyor.Proofs.Settings.Server
import Conveyor.Proofs.Service.Order
import Conveyor.Proofs.Double.Rounding
import Conveyor.Proofs.Double.Packing
import Conveyor.Proofs.Double.Arithmetic
import Conveyor.Proofs.Decimal.Shortest
import Conveyor.Proofs.Double.Nearness
import Conveyor.Proofs.Json.Scaling
import Conveyor.Proofs.Json.Numerals
import Conveyor.Proofs.Json.Doubles
import Conveyor.Proofs.Json.Finite
import Conveyor.Proofs.Metrics.ReadBack
import Conveyor.Proofs.Server.Summaries
import Conveyor.Proofs.Text.Parts
import Conveyor.Proofs.Sink.Stdout
import Conveyor.Proofs.Handover
