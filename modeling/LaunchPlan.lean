import LaunchPlan.Error
import LaunchPlan.Event
import LaunchPlan.FileSystem.Basic
import LaunchPlan.FileSystem.Copy
import LaunchPlan.FileSystem.Edit
import LaunchPlan.FileSystem.Fault
import LaunchPlan.FileSystem.Program
import LaunchPlan.FileSystem.Query
import LaunchPlan.FileSystem.Walk
import LaunchPlan.Host
import LaunchPlan.Launch
import LaunchPlan.Machine
import LaunchPlan.Network.Dice
import LaunchPlan.Network.Mac
import LaunchPlan.Network.Port
import LaunchPlan.Options.Basic
import LaunchPlan.Options.Document
import LaunchPlan.Options.Field
import LaunchPlan.Options.Load
import LaunchPlan.Options.Record
import LaunchPlan.Path
import LaunchPlan.Preparation.Basic
import LaunchPlan.Preparation.Decide
import LaunchPlan.Preparation.Journal
import LaunchPlan.Preparation.Sidecar
import LaunchPlan.Probe
import LaunchPlan.Proofs.FileSystem.Absolute
import LaunchPlan.Proofs.FileSystem.Canonical
import LaunchPlan.Proofs.FileSystem.Entry
import LaunchPlan.Proofs.FileSystem.Growth
import LaunchPlan.Proofs.FileSystem.Respelled
import LaunchPlan.Proofs.FileSystem.SameWay
import LaunchPlan.Proofs.FileSystem.Settled
import LaunchPlan.Proofs.Launch.Command
import LaunchPlan.Proofs.Launch.Layout
import LaunchPlan.Proofs.Network.Search
import LaunchPlan.Proofs.Network.Spelling
import LaunchPlan.Proofs.Options.Load
import LaunchPlan.Proofs.Options.Record
import LaunchPlan.Proofs.Options.Respelled
import LaunchPlan.Proofs.Overlay.Calls
import LaunchPlan.Proofs.Overlay.Copies
import LaunchPlan.Proofs.Overlay.Detection
import LaunchPlan.Proofs.Overlay.DryRun
import LaunchPlan.Proofs.Overlay.FirstUse
import LaunchPlan.Proofs.Overlay.MissingArtifact
import LaunchPlan.Proofs.Overlay.Plan
import LaunchPlan.Proofs.Overlay.Repeat
import LaunchPlan.Proofs.Path.Parent
import LaunchPlan.Proofs.Path.Respelled
import LaunchPlan.Proofs.Path.Segments
import LaunchPlan.Proofs.Path.Text
import LaunchPlan.Proofs.Preparation.Acceleration
import LaunchPlan.Proofs.Preparation.Failure
import LaunchPlan.Proofs.Preparation.HostProbe
import LaunchPlan.Proofs.Preparation.OptionsFile
import LaunchPlan.Proofs.Preparation.Outcome
import LaunchPlan.Proofs.Preparation.Pinned
import LaunchPlan.Proofs.Preparation.Presence
import LaunchPlan.Proofs.Preparation.Requirements
import LaunchPlan.Proofs.Preparation.Stage
import LaunchPlan.Proofs.Preparation.Step
import LaunchPlan.Proofs.Preparation.Tolerance
import LaunchPlan.Proofs.Preparation.Twins
import LaunchPlan.Proofs.Preparation.Verdict
import LaunchPlan.Proofs.Preparation.WorkingDirectory
import LaunchPlan.Text.Hidden
import LaunchPlan.Text.Quoted
import LaunchPlan.Text.Utf8
import LaunchPlan.Yaml.Character
import LaunchPlan.Yaml.Event
import LaunchPlan.Yaml.Scalar
import LaunchPlan.Yaml.Token
import LaunchPlan.Proofs.Network.LeastFree
import LaunchPlan.Proofs.Network.Exhausted
import LaunchPlan.Proofs.Network.Drawn
import LaunchPlan.Proofs.Launch.OptionList
import LaunchPlan.Proofs.Launch.Written
import LaunchPlan.Proofs.Overlay.Record
import LaunchPlan.Proofs.Preparation.ImageName
