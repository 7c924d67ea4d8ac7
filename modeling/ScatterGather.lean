import ScatterGather.Cli.Directory
import ScatterGather.Main
import ScatterGather.Merger.Text
import ScatterGather.Proofs.Coordinator
import ScatterGather.Query.Codec
import ScatterGather.Scenario.Handles
import ScatterGather.Scenario.Mergers
import ScatterGather.Scenario.Play
import ScatterGather.Scenario.Sweeps
import ScatterGather.Proofs.Execution.Acceptance
import ScatterGather.Proofs.Execution.Lifecycle
import ScatterGather.Proofs.Fleet.Aftermath
import ScatterGather.Proofs.Fleet.Sweep
import ScatterGather.Proofs.Fleet.Isolation
import ScatterGather.Proofs.Query.Codec
import ScatterGather.Proofs.Execution.Answering
import ScatterGather.Proofs.Simulation
import ScatterGather.Proofs.Simulation.Outcome
import ScatterGather.Proofs.Cli.Run
import ScatterGather.Proofs.Merger.Groups
import ScatterGather.Proofs.Handle
import ScatterGather.Proofs.SpawnedWork
import ScatterGather.Proofs.Outstanding
import ScatterGather.Proofs.Coordinator.Admission
import ScatterGather.Proofs.Samples
import ScatterGather.Proofs.Fleet.Abandonment
import ScatterGather.Proofs.Decoding
import ScatterGather.Proofs.Config.Order
import ScatterGather.Proofs.Coordinator.Resolution
import ScatterGather.Proofs.Cli.Session
