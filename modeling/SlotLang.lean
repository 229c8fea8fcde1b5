import SlotLang.BuildError
import SlotLang.Decimal.Shortest
import SlotLang.Diagnostic
import SlotLang.Draft
import SlotLang.Event
import SlotLang.Handle
import SlotLang.Instr
import SlotLang.Json.Numeral
import SlotLang.Json.Reading
import SlotLang.Json.Skip
import SlotLang.Json.Text
import SlotLang.Lowering
import SlotLang.Lowering.Error
import SlotLang.Machine
import SlotLang.Machine.Print
import SlotLang.Machine.Value
import SlotLang.Module
import SlotLang.Module.Printer
import SlotLang.Node
import SlotLang.Position
import SlotLang.Program
import SlotLang.Scopes
import SlotLang.Settings
import SlotLang.Settings.Error
import SlotLang.Settings.Json
import SlotLang.Settings.Load
import SlotLang.Text.Blank
import SlotLang.Text.Escaped
import SlotLang.Text.Quoted
import SlotLang.Workbench
import SlotLang.Proofs.Check
import SlotLang.Proofs.Evaluate
import SlotLang.Proofs.Code
import SlotLang.Proofs.Index
import SlotLang.Proofs.Growth
import SlotLang.Proofs.Steps
import SlotLang.Proofs.Agreement
import SlotLang.Proofs.Lowered
import SlotLang.Proofs.Functions
import SlotLang.Proofs.Translation
import SlotLang.Proofs.Frames
import SlotLang.Proofs.Simulation
import SlotLang.Proofs.Execution
import SlotLang.Proofs.Meaning
import SlotLang.Proofs.Shape
import SlotLang.Proofs.Edits
import SlotLang.Proofs.Ideal
import SlotLang.Proofs.Tidy
import SlotLang.Proofs.Typing
import SlotLang.Proofs.History
import SlotLang.Proofs.Safety
import SlotLang.Proofs.Slots
import SlotLang.Proofs.Tables
import SlotLang.Proofs.Closed
import SlotLang.Proofs.Unique
import SlotLang.Proofs.Inert
import SlotLang.Proofs.Renaming
import SlotLang.Proofs.RenamedRuns
import SlotLang.Proofs.Walks
import SlotLang.Proofs.Drafts
import SlotLang.Proofs.Scoping
import SlotLang.Proofs.Bodies
import SlotLang.Proofs.Reads
import SlotLang.Proofs.Formats
import SlotLang.Proofs.Formulas
import SlotLang.Proofs.Independence
import SlotLang.Proofs.Positions
import SlotLang.Proofs.Division
import SlotLang.Proofs.Log
import SlotLang.Proofs.Traces
import SlotLang.Proofs.Printing
import SlotLang.Proofs.Unambiguous
import SlotLang.Proofs.Grammar
import SlotLang.Proofs.Layout
import SlotLang.Proofs.RoundTrip
