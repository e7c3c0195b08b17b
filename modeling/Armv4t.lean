import Armv4t.Alu
import Armv4t.Arm.Assembly
import Armv4t.Arm.Decode
import Armv4t.Arm.Execute
import Armv4t.Arm.Instruction
import Armv4t.Bank
import Armv4t.BitField
import Armv4t.BlockTransfer
import Armv4t.Bus
import Armv4t.CommandLine
import Armv4t.Condition
import Armv4t.Config
import Armv4t.ConfigFile
import Armv4t.Core
import Armv4t.Event
import Armv4t.Exception
import Armv4t.Execution
import Armv4t.Json
import Armv4t.Machine
import Armv4t.Main
import Armv4t.Memory.Flat
import Armv4t.Memory.Map
import Armv4t.Memory.Mapped
import Armv4t.Memory.Storage
import Armv4t.Memory.WaitControl
import Armv4t.Mode
import Armv4t.Numeral
import Armv4t.Numeral.Read
import Armv4t.Registers
import Armv4t.Run
import Armv4t.Runner
import Armv4t.Shifter
import Armv4t.Status
import Armv4t.Thumb.Assembly
import Armv4t.Thumb.Decode
import Armv4t.Thumb.Execute
import Armv4t.Thumb.Instruction
import Armv4t.Transfer
import Armv4t.Word
import Armv4t.Proofs.Mask
import Armv4t.Proofs.Status
import Armv4t.Proofs.Banking
import Armv4t.Proofs.Simulation
import Armv4t.Proofs.Simulation.Arm
import Armv4t.Proofs.Simulation.Thumb
import Armv4t.Proofs.Step
import Armv4t.Proofs.Dispatch
import Armv4t.Proofs.ExceptionEntry
import Armv4t.Proofs.Confinement
import Armv4t.Proofs.Internal
import Armv4t.Proofs.Charge
import Armv4t.Proofs.Loop
import Armv4t.Proofs.Footprint
import Armv4t.Proofs.Writes
import Armv4t.Proofs.WaitStates
import Armv4t.Proofs.Timing
import Armv4t.Proofs.Lockstep
import Armv4t.Proofs.Snapshot
import Armv4t.Proofs.Alignment
import Armv4t.Proofs.Interrupt
import Armv4t.Proofs.Counterpart
import Armv4t.Proofs.Reencoding
import Armv4t.Proofs.Turns
import Armv4t.Proofs.StepBound
import Armv4t.Proofs.Ledger
import Armv4t.Proofs.Slicing
import Armv4t.Proofs.RunnerSlices
import Armv4t.Proofs.Fields
import Armv4t.Proofs.Encoding.Arm
import Armv4t.Proofs.Encoding.Thumb
import Armv4t.Proofs.Reserved
import Armv4t.Proofs.Parts
import Armv4t.Proofs.Recoding
import Armv4t.Proofs.PipelineView
import Armv4t.Proofs.BlockLoad
import Armv4t.Proofs.Halting
import Armv4t.Proofs.StatusInstall
import Armv4t.Proofs.StatusReplacement
import Armv4t.Proofs.Secrecy
import Armv4t.Proofs.ByteStore
import Armv4t.Proofs.Boundary
import Armv4t.Proofs.Guarded.Word
import Armv4t.Proofs.Guarded.Decode
import Armv4t.Proofs.Guarded.Operand
import Armv4t.Proofs.Guarded.Core
import Armv4t.Proofs.Guarded.Running
import Armv4t.Proofs.Guarded.Block
import Armv4t.Proofs.Guarded.Arm
import Armv4t.Proofs.Guarded.Thumb
import Armv4t.Proofs.Guarded.Text
import Armv4t.Proofs.Guarded.Step
import Armv4t.Proofs.HandlerEntry
import Armv4t.Proofs.UserBank
import Armv4t.Proofs.Questions
import Armv4t.Proofs.Breakpoints
import Armv4t.Proofs.FetchAddress
import Armv4t.Proofs.FlatWords
import Armv4t.Proofs.StoredBase
import Armv4t.Proofs.BlockInverse
import Armv4t.Proofs.DataProcessing
import Armv4t.Proofs.Loading
import Armv4t.Proofs.Executing
import Armv4t.Proofs.Multiplication
import Armv4t.Proofs.Calling
import Armv4t.Proofs.SingleTransfer
import Armv4t.Proofs.Comparison
import Armv4t.Proofs.LongArithmetic
import Armv4t.Proofs.AddressText
import Armv4t.Proofs.ShiftText
import Armv4t.Proofs.WaitRegister
