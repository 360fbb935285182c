import SyscallPolicy.Main
import SyscallPolicy.Trial
import SyscallPolicy.Proofs.CommandLine.StrayBytes
import SyscallPolicy.Proofs.Filter.History
import SyscallPolicy.Proofs.Filter.Lowering
import SyscallPolicy.Proofs.Filter.Reordering
import SyscallPolicy.Proofs.Kernel.Detection
import SyscallPolicy.Proofs.Kernel.Refusal
import SyscallPolicy.Proofs.Kernel.Threads
import SyscallPolicy.Proofs.Policy.Acceptance
import SyscallPolicy.Proofs.Policy.Atomicity
import SyscallPolicy.Proofs.Policy.Comparisons
import SyscallPolicy.Proofs.Policy.Interruption
import SyscallPolicy.Proofs.Policy.Locality
import SyscallPolicy.Proofs.Policy.Logging
import SyscallPolicy.Proofs.Policy.Meaning
import SyscallPolicy.Proofs.Policy.Reordering
import SyscallPolicy.Proofs.Policy.Replay
import SyscallPolicy.Proofs.Policy.RoundTrip
import SyscallPolicy.Proofs.Policy.Spelling
import SyscallPolicy.Proofs.Policy.Strictness
import SyscallPolicy.Proofs.Policy.UnknownEntries
