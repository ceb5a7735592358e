import EightBit.Alu
import EightBit.Assembly.Effect
import EightBit.Assembly.Listing
import EightBit.Assembly.Problem
import EightBit.Assembly.Program
import EightBit.Bits
import EightBit.CommandLine.Files
import EightBit.CommandLine.Invocation
import EightBit.CommandLine.Outcome
import EightBit.CommandLine.Word
import EightBit.Device
import EightBit.Disassembly
import EightBit.Fault
import EightBit.Instr
import EightBit.Journal
import EightBit.Machine.Action
import EightBit.Machine.Execute
import EightBit.Machine.Probe
import EightBit.Machine.Run
import EightBit.Machine.State
import EightBit.Main
import EightBit.Memory
import EightBit.Numeral
import EightBit.Numeral.Literal
import EightBit.Operand.Basic
import EightBit.Operand.Expression
import EightBit.Parameters
import EightBit.Proofs.Assembly.Append
import EightBit.Proofs.Assembly.Bytes
import EightBit.Proofs.Assembly.Comments
import EightBit.Proofs.Assembly.Contiguous
import EightBit.Proofs.Assembly.Data
import EightBit.Proofs.Assembly.FirstError
import EightBit.Proofs.Assembly.Layout
import EightBit.Proofs.Assembly.LineMap
import EightBit.Proofs.Assembly.Listing
import EightBit.Proofs.Assembly.Meaning
import EightBit.Proofs.Assembly.Record
import EightBit.Proofs.Assembly.Renaming
import EightBit.Proofs.Assembly.Report
import EightBit.Proofs.Assembly.Resolve
import EightBit.Proofs.Assembly.Sections
import EightBit.Proofs.Assembly.Statement
import EightBit.Proofs.Assembly.Sums
import EightBit.Proofs.Assembly.Terms
import EightBit.Proofs.Assembly.Undefined
import EightBit.Proofs.Assembly.WellFormed
import EightBit.Proofs.Disassembly.Coverage
import EightBit.Proofs.Disassembly.Operands
import EightBit.Proofs.Disassembly.Reassembly
import EightBit.Proofs.Disassembly.RoundTrip
import EightBit.Proofs.Disassembly.Sweep
import EightBit.Proofs.Instr.Lookup
import EightBit.Proofs.Machine.Atomicity
import EightBit.Proofs.Machine.Bare
import EightBit.Proofs.Machine.Boundaries
import EightBit.Proofs.Machine.Breakpoints
import EightBit.Proofs.Machine.Comparison
import EightBit.Proofs.Machine.Coupling
import EightBit.Proofs.Machine.Display
import EightBit.Proofs.Machine.Dump
import EightBit.Proofs.Machine.Effect
import EightBit.Proofs.Machine.Execution
import EightBit.Proofs.Machine.FaultLine
import EightBit.Proofs.Machine.Frame
import EightBit.Proofs.Machine.Heater
import EightBit.Proofs.Machine.History
import EightBit.Proofs.Machine.Invariant
import EightBit.Proofs.Machine.Keeping
import EightBit.Proofs.Machine.Latch
import EightBit.Proofs.Machine.Lifo
import EightBit.Proofs.Machine.Lights
import EightBit.Proofs.Machine.Loading
import EightBit.Proofs.Machine.Onlookers
import EightBit.Proofs.Machine.Outdated
import EightBit.Proofs.Machine.Portions
import EightBit.Proofs.Machine.Progress
import EightBit.Proofs.Machine.Reassembled
import EightBit.Proofs.Machine.Reload
import EightBit.Proofs.Machine.Requests
import EightBit.Proofs.Machine.Reset
import EightBit.Proofs.Machine.Run
import EightBit.Proofs.Machine.Shifts
import EightBit.Proofs.Machine.Snapshot
import EightBit.Proofs.Machine.SourceFile
import EightBit.Proofs.Machine.Split
import EightBit.Proofs.Machine.Stack
import EightBit.Proofs.Machine.Step
import EightBit.Proofs.Machine.StopCall
import EightBit.Proofs.Machine.Stopping
import EightBit.Proofs.Machine.Tokens
import EightBit.Proofs.Machine.Trace
import EightBit.Proofs.Machine.Triple
import EightBit.Proofs.Machine.Twins
import EightBit.Proofs.Numeral.Exactness
import EightBit.Proofs.Numeral.ReadBack
import EightBit.Proofs.Operand.Addresses
import EightBit.Proofs.Operand.Forms
import EightBit.Proofs.Operand.Labels
import EightBit.Proofs.Operand.Literals
import EightBit.Proofs.Operand.Notation
import EightBit.Proofs.Operand.Reading
import EightBit.Proofs.Source.Edit
import EightBit.Proofs.Source.Inert
import EightBit.Proofs.Source.Line
import EightBit.Proofs.Source.Marks
import EightBit.Proofs.Source.Operands
import EightBit.Proofs.Text.Blank
import EightBit.Proofs.Text.Lines
import EightBit.Registers
import EightBit.Source
import EightBit.Text.Basic
import EightBit.Text.Quoted
import EightBit.Text.Upper
import EightBit.Text.Utf8
import EightBit.Text.Word
