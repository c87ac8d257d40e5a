import Intcode.Ascii
import Intcode.Batch
import Intcode.CommandLine
import Intcode.CommandLine.Command
import Intcode.CommandLine.Display
import Intcode.CommandLine.Ending
import Intcode.CommandLine.Options
import Intcode.CommandLine.Usage
import Intcode.Fault
import Intcode.Instruction
import Intcode.Instruction.Decode
import Intcode.Log
import Intcode.Machine
import Intcode.Machine.Execute
import Intcode.Machine.Run
import Intcode.Machine.Step
import Intcode.Main
import Intcode.Memory
import Intcode.Network
import Intcode.Network.Amplifier
import Intcode.Network.Bench
import Intcode.Network.Channel
import Intcode.Network.Effect
import Intcode.Network.Listener
import Intcode.Network.Relay
import Intcode.Network.Settle
import Intcode.Pipeline.Concurrent
import Intcode.Pipeline.Ring
import Intcode.Pipeline.Search
import Intcode.Pipeline.Sequence
import Intcode.Pipeline.Stage
import Intcode.Program
import Intcode.Proofs.Ascii
import Intcode.Proofs.Batch
import Intcode.Proofs.Fault
import Intcode.Proofs.Instruction.Encoding
import Intcode.Proofs.Machine.Accesses
import Intcode.Proofs.Machine.Atomicity
import Intcode.Proofs.Machine.Blocking
import Intcode.Proofs.Machine.Budget
import Intcode.Proofs.Machine.Core
import Intcode.Proofs.Machine.Ideal
import Intcode.Proofs.Machine.InPlace
import Intcode.Proofs.Machine.Padding
import Intcode.Proofs.Machine.Requests
import Intcode.Proofs.Machine.Resumption
import Intcode.Proofs.Machine.Runs
import Intcode.Proofs.Machine.Script
import Intcode.Proofs.Machine.Simulation
import Intcode.Proofs.Machine.Step
import Intcode.Proofs.Machine.Tracing
import Intcode.Proofs.Memory
import Intcode.Proofs.Network.Agents
import Intcode.Proofs.Network.Amplifier
import Intcode.Proofs.Network.Conservation
import Intcode.Proofs.Network.Schedule
import Intcode.Proofs.Network.Settling
import Intcode.Proofs.Network.Shutdown
import Intcode.Proofs.Network.Waking
import Intcode.Proofs.Pipeline.Chain
import Intcode.Proofs.Pipeline.Deadlock
import Intcode.Proofs.Pipeline.Failure
import Intcode.Proofs.Pipeline.Feedback
import Intcode.Proofs.Pipeline.Invariant
import Intcode.Proofs.Pipeline.PassBound
import Intcode.Proofs.Pipeline.Passes
import Intcode.Proofs.Pipeline.Progress
import Intcode.Proofs.Pipeline.Rest
import Intcode.Proofs.Pipeline.Ring
import Intcode.Proofs.Pipeline.Routing
import Intcode.Proofs.Pipeline.Search
import Intcode.Proofs.Pipeline.Sequence
import Intcode.Proofs.Pipeline.Solution
import Intcode.Proofs.Pipeline.Stopping
import Intcode.Proofs.Pipeline.Termination
import Intcode.Proofs.Pipeline.Turns
import Intcode.Proofs.Program
import Intcode.Proofs.Program.Grammar
import Intcode.Proofs.Solo.Delivery
import Intcode.Proofs.Solo.Session
import Intcode.Proofs.Text
import Intcode.Report
import Intcode.Settings
import Intcode.Settings.Session
import Intcode.Text.Blank
import Intcode.Text.DecimalDigit
import Intcode.Text.Fields
import Intcode.Text.Numeral
import Intcode.Text.Printable
import Intcode.Text.Quoted
import Intcode.Text.Similarity
import Intcode.Text.Uppercase
import Intcode.Text.Utf8
import Intcode.Word
