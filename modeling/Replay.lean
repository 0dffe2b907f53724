import Replay.Main
import Replay.Watch.Simulation
import Replay.Proofs.Playback.Adequacy
import Replay.Proofs.Playback.Suspension
import Replay.Proofs.Playback.RenderQueue
import Replay.Proofs.Host.Keeps
import Replay.Proofs.Host.Layouts
import Replay.Proofs.Playback.Block
import Replay.Proofs.Playback.Performance
import Replay.Proofs.Playback.Refinement
import Replay.Proofs.Playback.Progress
import Replay.Proofs.Playback.Structured
import Replay.Proofs.Playback.Timers
import Replay.Proofs.Playback.Blame
import Replay.Proofs.Library.Alerts
import Replay.Proofs.Playback.History
import Replay.Proofs.Playback.Inheritance
import Replay.Proofs.Playback.LoopBodies
import Replay.Proofs.Playback.Relay
import Replay.Proofs.Playback.Straight
import Replay.Proofs.Playback.RenderedLoop
import Replay.Proofs.Playback.Interleaving
import Replay.Proofs.Playback.Prolonging
import Replay.Proofs.Playback.Renders
import Replay.Proofs.Playback.Chronicle
import Replay.Proofs.Playback.Onward
import Replay.Proofs.Playback.Soundness
import Replay.Proofs.Playback.Borrowing
import Replay.Proofs.Json.Scanning
import Replay.Proofs.Json.RoundTrip
import Replay.Proofs.Number.Finite
import Replay.Proofs.Json.Denoting
import Replay.Proofs.Directive.RoundTrip
import Replay.Proofs.Playback.Independence
import Replay.Proofs.Playback.Surfaces
import Replay.Proofs.Command.Contexts
import Replay.Proofs.Scene.Comparisons
import Replay.Proofs.Host.Targets
import Replay.Proofs.Playback.Coherence
import Replay.Proofs.Host.Atomicity
import Replay.Proofs.Host.Selections
import Replay.Proofs.Watch.Endings
import Replay.Proofs.Files.Writing
import Replay.Proofs.Library.RoundTrip
import Replay.Proofs.Scene.Counting
import Replay.Proofs.Scene.Assignments
import Replay.Proofs.Playback.Scripts
import Replay.Proofs.Watch.Renders
import Replay.Proofs.Playback.Termination
import Replay.Proofs.Playback.Release
import Replay.Proofs.Playback.Ledger
import Replay.Proofs.Library.Labels
import Replay.Proofs.Playback.Brackets
import Replay.Proofs.Files.Entries
import Replay.Proofs.Files.Pruning
import Replay.Proofs.Text.Bytes
import Replay.Proofs.Command.Slices
import Replay.Proofs.Command.Defaults
import Replay.Proofs.Playback.SelfPlay
