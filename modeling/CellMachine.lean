import CellMachine.Command
import CellMachine.Double.Basic
import CellMachine.Double.Bits
import CellMachine.Double.Digits
import CellMachine.Double.Notation
import CellMachine.Double.Reading
import CellMachine.Double.Shortest
import CellMachine.Launch.Entry
import CellMachine.Launch.Program
import CellMachine.Launch.Registry
import CellMachine.Launch.Timed
import CellMachine.LineBuffer
import CellMachine.Machine.Basic
import CellMachine.Machine.Call
import CellMachine.Machine.Fault
import CellMachine.Machine.Library
import CellMachine.Machine.Symbol
import CellMachine.Machine.Vararg
import CellMachine.Main
import CellMachine.Memory.Basic
import CellMachine.Memory.Pointer
import CellMachine.Memory.Terminated
import CellMachine.Proofs.Allocation
import CellMachine.Proofs.Characters
import CellMachine.Proofs.CommandLine
import CellMachine.Proofs.Concatenation
import CellMachine.Proofs.Conditions
import CellMachine.Proofs.CopiedText
import CellMachine.Proofs.Copy
import CellMachine.Proofs.Counts
import CellMachine.Proofs.DecimalCounts
import CellMachine.Proofs.DecimalRounding
import CellMachine.Proofs.DecimalTexts
import CellMachine.Proofs.Dependence
import CellMachine.Proofs.Echo
import CellMachine.Proofs.Entry
import CellMachine.Proofs.ExactDigits
import CellMachine.Proofs.Explicit
import CellMachine.Proofs.FilledCells
import CellMachine.Proofs.Frame
import CellMachine.Proofs.GeneralNotation
import CellMachine.Proofs.Grammar
import CellMachine.Proofs.Launch
import CellMachine.Proofs.LeadingInt
import CellMachine.Proofs.Lines
import CellMachine.Proofs.MovedCells
import CellMachine.Proofs.Operands
import CellMachine.Proofs.Output
import CellMachine.Proofs.Overflow
import CellMachine.Proofs.Padding
import CellMachine.Proofs.PointerTables
import CellMachine.Proofs.Print
import CellMachine.Proofs.Radix
import CellMachine.Proofs.ReadBack
import CellMachine.Proofs.References
import CellMachine.Proofs.Registry
import CellMachine.Proofs.Rejection
import CellMachine.Proofs.Request
import CellMachine.Proofs.Returning
import CellMachine.Proofs.Run
import CellMachine.Proofs.Scan
import CellMachine.Proofs.Sprintf
import CellMachine.Proofs.StoredTexts
import CellMachine.Proofs.Texts
import CellMachine.Proofs.TotalMap
import CellMachine.Proofs.Varargs
import CellMachine.Proofs.Whole
import CellMachine.Proofs.WholeValues
import CellMachine.Proofs.Written
import CellMachine.Proofs.WrittenNumbers
import CellMachine.Rounding
import CellMachine.Sample.Catalogue
import CellMachine.Sample.Echo
import CellMachine.Sample.PartialSums
import CellMachine.Template.Arguments
import CellMachine.Template.Directive
import CellMachine.Template.Expand
import CellMachine.Template.Field
import CellMachine.Template.Parser
import CellMachine.Text.Basic
import CellMachine.Text.Blank
import CellMachine.Text.Code
import CellMachine.Text.Numeral
import CellMachine.Value
