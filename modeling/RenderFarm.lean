import RenderFarm.Json.Printer
import RenderFarm.Log.Buffer
import RenderFarm.Main
import RenderFarm.Proofs.Compile.Standard
import RenderFarm.Proofs.Directive.Refusal
import RenderFarm.Proofs.Execution.Success
import RenderFarm.Proofs.Output.Lasting
import RenderFarm.Proofs.Schedule.Conservation
import RenderFarm.Proofs.Schedule.Gating
import RenderFarm.Proofs.Schedule.Idleness
import RenderFarm.Proofs.Schedule.Rounds
import RenderFarm.Proofs.Schedule.Stranding
import RenderFarm.Proofs.Wildcard.LockStep
import RenderFarm.Proofs.Directive.WellFormed
import RenderFarm.Proofs.Compile.Checkpoints
import RenderFarm.Proofs.Directive.Selectors
import RenderFarm.Proofs.Wildcard.Agreement
import RenderFarm.Proofs.Wildcard.Pool
import RenderFarm.Proofs.Digits
import RenderFarm.Proofs.Trimming
import RenderFarm.Proofs.Lines
import RenderFarm.Proofs.Template
import RenderFarm.Proofs.Time.Instant
import RenderFarm.Proofs.Json.Tokens
import RenderFarm.Proofs.Json.RoundTrip
import RenderFarm.Proofs.Record
import RenderFarm.Proofs.Compile.Mode
import RenderFarm.Proofs.Checked.Draws
import RenderFarm.Proofs.Checked.Pass
import RenderFarm.Proofs.Execution.Degradation
import RenderFarm.Proofs.Execution.Checkpoint
import RenderFarm.Proofs.Execution.Cleanup
import RenderFarm.Proofs.Device.Images
import RenderFarm.Proofs.Device.Requests
import RenderFarm.Proofs.Device.Resources
import RenderFarm.Proofs.Config
import RenderFarm.Proofs.Compile.Sampling
import RenderFarm.Proofs.Compile.Process
import RenderFarm.Proofs.Launch.Script
import RenderFarm.Proofs.Files.Additions
import RenderFarm.Proofs.Files.Confinement
import RenderFarm.Proofs.Launch.Write
import RenderFarm.Proofs.Trigger.Placement
import RenderFarm.Proofs.Trigger.Registry
import RenderFarm.Proofs.Trigger.Lookup
import RenderFarm.Proofs.Naming.Slug
import RenderFarm.Proofs.Trigger.Reload
import RenderFarm.Proofs.Output.Folder
import RenderFarm.Proofs.Prompt.Tangles
import RenderFarm.Proofs.Prompt.Clean
import RenderFarm.Proofs.Infotext
import RenderFarm.Proofs.Device.Readiness
import RenderFarm.Proofs.Directive.Adoption
import RenderFarm.Proofs.Naming.Taking
import RenderFarm.Proofs.Directive.Grammar
import RenderFarm.Proofs.Prompt.Joining
