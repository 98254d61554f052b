import SceneScript.Bytecode.Duration
import SceneScript.Bytecode.Instruction
import SceneScript.Bytecode.Listing
import SceneScript.Bytecode.Opcode
import SceneScript.Bytecode.Operand
import SceneScript.CommandLine.FileCompilation
import SceneScript.CommandLine.Help
import SceneScript.CommandLine.Options
import SceneScript.CommandLine.Run
import SceneScript.CommandLine.SwitchArgument
import SceneScript.Disk.Basic
import SceneScript.Disk.Path
import SceneScript.Fault
import SceneScript.Generation.Emission
import SceneScript.Generation.Generator
import SceneScript.Generation.Layout
import SceneScript.Generation.Warning
import SceneScript.Json
import SceneScript.Main
import SceneScript.Number.Binary64
import SceneScript.Number.Rendering
import SceneScript.Number.Shortest
import SceneScript.Output
import SceneScript.Proofs.Acceptance
import SceneScript.Proofs.ActiveActor
import SceneScript.Proofs.Attachment
import SceneScript.Proofs.Blame
import SceneScript.Proofs.Breakage
import SceneScript.Proofs.Denotation
import SceneScript.Proofs.Disassembly
import SceneScript.Proofs.Disk
import SceneScript.Proofs.Duration
import SceneScript.Proofs.Emission
import SceneScript.Proofs.Extension
import SceneScript.Proofs.Failure
import SceneScript.Proofs.Fallback
import SceneScript.Proofs.FileOutput
import SceneScript.Proofs.Format
import SceneScript.Proofs.Frame
import SceneScript.Proofs.Generation
import SceneScript.Proofs.Grammar
import SceneScript.Proofs.Idle
import SceneScript.Proofs.Inspection
import SceneScript.Proofs.Isolation
import SceneScript.Proofs.Journal
import SceneScript.Proofs.LeadingInteger
import SceneScript.Proofs.Listing
import SceneScript.Proofs.Nesting
import SceneScript.Proofs.Output
import SceneScript.Proofs.OutputHistory
import SceneScript.Proofs.Placement
import SceneScript.Proofs.Plan
import SceneScript.Proofs.Positive
import SceneScript.Proofs.Reading
import SceneScript.Proofs.Relocation
import SceneScript.Proofs.Reporting
import SceneScript.Proofs.Rounding
import SceneScript.Proofs.Runtime
import SceneScript.Proofs.Simulation
import SceneScript.Proofs.Wording
import SceneScript.Script.Event
import SceneScript.Script.Kind
import SceneScript.Script.Reading
import SceneScript.Session
import SceneScript.Symbols
import SceneScript.Text.Hexadecimal
import SceneScript.Text.Numeral
import SceneScript.Text.Quoted
import SceneScript.Text.Utf8
import SceneScript.Value.Basic
import SceneScript.Value.Coercion
import SceneScript.Value.Display
import SceneScript.Value.Equality
