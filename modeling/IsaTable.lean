import IsaTable.Guarded
import IsaTable.Main
import IsaTable.Match.Accumulator
import IsaTable.Pattern.Printer
import IsaTable.Proofs.FirstFailure
import IsaTable.Proofs.Agreement
import IsaTable.Proofs.Match.Meaning
import IsaTable.Proofs.Match.Diagnostics
import IsaTable.Proofs.Match.Narrowing
import IsaTable.Proofs.Match.Splitting
import IsaTable.Proofs.Match.Comparison
import IsaTable.Proofs.Match.Guards
import IsaTable.Proofs.Pattern.InstructionLines
import IsaTable.Proofs.Pattern.PrintedText
import IsaTable.Proofs.Pattern.LineGrammar
import IsaTable.Proofs.Pattern.LineNumbers
import IsaTable.Proofs.Pattern.Relayout
import IsaTable.Proofs.Pattern.TokenErrors
import IsaTable.Proofs.Table.Loading
import IsaTable.Proofs.Table.Decoding
import IsaTable.Proofs.Table.Lookup
import IsaTable.Proofs.Table.Shadowing
import IsaTable.Proofs.Table.EntryOrder
import IsaTable.Proofs.Table.SourceLines
import IsaTable.Proofs.Table.ReportedLines
import IsaTable.Proofs.Table.Concatenation
import IsaTable.Proofs.Table.Relayout
import IsaTable.Proofs.Table.Agreement
import IsaTable.Proofs.Table.Rendering
import IsaTable.Proofs.Table.Block
import IsaTable.Proofs.Json.Number
import IsaTable.Proofs.Json.Text
import IsaTable.Proofs.Json.Value
import IsaTable.Proofs.Json.Reader
import IsaTable.Proofs.Json.Structure
import IsaTable.Proofs.Json.Table
import IsaTable.Proofs.Json.EndOfText
import IsaTable.Proofs.Json.RoundTrip
import IsaTable.Proofs.Json.Truncation
import IsaTable.Proofs.Table.Inputs
import IsaTable.Proofs.CommandLine.LawfulDisk
import IsaTable.Proofs.CommandLine.AllOrNothing
import IsaTable.Proofs.CommandLine.Extension
import IsaTable.Proofs.Json.WellFormed
import IsaTable.Proofs.CommandLine.InputFormat
