import MiniMips.Assembly.Program
import MiniMips.Listing
import MiniMips.Machine.Run
import MiniMips.Proofs.Machine.Performs
import MiniMips.Proofs.Machine.Reassembly
import MiniMips.Proofs.Memory.Flat
import MiniMips.Proofs.Machine.InPlace
import MiniMips.Proofs.Machine.Outcome
import MiniMips.Proofs.Machine.Frame
import MiniMips.Proofs.Machine.Run
import MiniMips.Proofs.Machine.Pause
import MiniMips.Proofs.Machine.Unbounded
import MiniMips.Proofs.Machine.Records
import MiniMips.Proofs.Machine.Inspection
import MiniMips.Proofs.Machine.Accounting
import MiniMips.Proofs.Assembly.Spelling
import MiniMips.Proofs.Memory.Load
import MiniMips.Proofs.Machine.Forward
import MiniMips.Proofs.Memory.View
import MiniMips.Proofs.Assembly.Program
import MiniMips.Proofs.Listing
import MiniMips.Proofs.Assembly.Concatenation
import MiniMips.Proofs.Machine.Alignment
import MiniMips.Proofs.Machine.Inputs
import MiniMips.Proofs.Assembly.Rejection
import MiniMips.Proofs.Memory.Prefix
import MiniMips.Proofs.Range
import MiniMips.Proofs.Machine.Runaway
import MiniMips.Proofs.Assembly.FixedWidth
import MiniMips.Proofs.Machine.Reach
import MiniMips.Proofs.Machine.Comparison
import MiniMips.Proofs.Machine.Reset
import MiniMips.Proofs.Memory.Slice
import MiniMips.Proofs.Assembly.Normalize
import MiniMips.Proofs.Instruction.Fields
