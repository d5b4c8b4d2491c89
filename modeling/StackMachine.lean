import StackMachine.Main
import StackMachine.Service.Post
import StackMachine.Proofs.Assembly.Concatenation
import StackMachine.Proofs.Builtin.Effects
import StackMachine.Proofs.Config.Search
import StackMachine.Proofs.Editor.Diagnostics
import StackMachine.Proofs.Editor.Documents
import StackMachine.Proofs.Editor.Hover
import StackMachine.Proofs.Editor.Jumps
import StackMachine.Proofs.Editor.LineEndings
import StackMachine.Proofs.Editor.Words
import StackMachine.Proofs.Fault.Classes
import StackMachine.Proofs.Listing
import StackMachine.Proofs.Machine.Endings
import StackMachine.Proofs.Machine.ForwardJumps
import StackMachine.Proofs.Machine.Output
import StackMachine.Proofs.Machine.Resumption
import StackMachine.Proofs.Machine.Tracing
import StackMachine.Proofs.Registry.Extension
import StackMachine.Proofs.Registry.StackEffects
import StackMachine.Proofs.Registry.Views
import StackMachine.Proofs.Service.Caps
import StackMachine.Proofs.Service.Histories
import StackMachine.Proofs.Service.Isolation
import StackMachine.Proofs.Service.Lifecycle
import StackMachine.Proofs.Service.Programs
import StackMachine.Proofs.Service.Rejections
import StackMachine.Proofs.Service.Reset
import StackMachine.Proofs.Service.Responses
import StackMachine.Proofs.Service.Texts
import StackMachine.Proofs.Shell.Agreement
import StackMachine.Proofs.Text.Cutting
import StackMachine.Proofs.Wire.RoundTrip
