import RegisterMachine.CommandLine.Directory
import RegisterMachine.Instruction.Writer
import RegisterMachine.Main
import RegisterMachine.Proofs.Heap.Collection
import RegisterMachine.Proofs.Heap.Consistent
import RegisterMachine.Proofs.Limits.Monotone
import RegisterMachine.Proofs.Program.Verified
import RegisterMachine.Proofs.Bignum.Numeral
import RegisterMachine.Proofs.Program.RoundTrip
import RegisterMachine.Proofs.Heap.Grounded
import RegisterMachine.Proofs.Heap.History
import RegisterMachine.Proofs.Native.Grounded
import RegisterMachine.Proofs.Native.Output
import RegisterMachine.Proofs.Frame.Held
import RegisterMachine.Proofs.Machine.Grounded
import RegisterMachine.Proofs.Machine.Hosted
import RegisterMachine.Proofs.Machine.Halting
import RegisterMachine.Proofs.Machine.Budget
import RegisterMachine.Proofs.Machine.Depth
import RegisterMachine.Proofs.Machine.Catching
import RegisterMachine.Proofs.InPlace.Native
import RegisterMachine.Proofs.InPlace.Instruction
import RegisterMachine.Proofs.InPlace.Dispatch
import RegisterMachine.Proofs.InPlace.Step
import RegisterMachine.Proofs.Bytes.Checksum
import RegisterMachine.Proofs.Program.Header
import RegisterMachine.Proofs.Program.Corruption
import RegisterMachine.Proofs.Heap.Representation
import RegisterMachine.Proofs.Bignum.Canonical
import RegisterMachine.Proofs.Bignum.Sum
import RegisterMachine.Proofs.Bignum.Product
import RegisterMachine.Proofs.Bignum.Quotient
import RegisterMachine.Proofs.Bignum.Twos
import RegisterMachine.Proofs.Bignum.Printed
import RegisterMachine.Proofs.Machine.Wrapping
import RegisterMachine.Proofs.Program.Canonical
import RegisterMachine.Proofs.Program.Length
import RegisterMachine.Proofs.Assembly.Printed
import RegisterMachine.Proofs.Assembly.LoadInt
import RegisterMachine.Proofs.Lock.Sharing
import RegisterMachine.Proofs.Lock.Exclusion
import RegisterMachine.Proofs.Bignum.Built
import RegisterMachine.Proofs.Machine.Changes
import RegisterMachine.Proofs.Limits.ArrayLength
import RegisterMachine.Proofs.Bignum.Exact
import RegisterMachine.Proofs.Bignum.Schoolbook
import RegisterMachine.Proofs.Bignum.Bits
import RegisterMachine.Proofs.Bignum.Literal
import RegisterMachine.Proofs.Bignum.ShiftBuffer
import RegisterMachine.Proofs.Bignum.Written
import RegisterMachine.Proofs.Bignum.Parsed
import RegisterMachine.Proofs.Heap.Ancestor
import RegisterMachine.Proofs.Heap.Lookup
import RegisterMachine.Proofs.Heap.DeadEnd
import RegisterMachine.Proofs.Bignum.Conversion
import RegisterMachine.Proofs.Machine.Boxing
import RegisterMachine.Proofs.Instruction.Layout
import RegisterMachine.Proofs.Program.Rejected
import RegisterMachine.Proofs.Instruction.Label
import RegisterMachine.Proofs.Program.Reuse
import RegisterMachine.Proofs.Assembly.Literal
import RegisterMachine.Proofs.Machine.Delivery
import RegisterMachine.Proofs.Machine.Sequence
