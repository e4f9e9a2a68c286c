import Interop.CType.Basic
import Interop.CType.Fault
import Interop.CType.Schema
import Interop.CType.Spelling
import Interop.Call.Code
import Interop.Call.Downcall
import Interop.Call.Upcall
import Interop.CommandLine.Arguments
import Interop.CommandLine.Directory
import Interop.CommandLine.Run
import Interop.Declaration.Basic
import Interop.Declaration.Parser
import Interop.Failure
import Interop.Library.CRoutines
import Interop.Library.Linking
import Interop.Library.Routine
import Interop.Library.Samples
import Interop.Main
import Interop.Marshal.Conversion
import Interop.Marshal.Execution
import Interop.Marshal.Signature
import Interop.Marshal.Value
import Interop.Memory.Address
import Interop.Memory.Allocation
import Interop.Memory.ByteOrder
import Interop.Memory.Cursor
import Interop.Memory.Decoder
import Interop.Memory.Elements
import Interop.Memory.Encoder
import Interop.Memory.Fault
import Interop.Memory.Reservation
import Interop.Memory.Scalar
import Interop.Memory.Scratch
import Interop.Memory.Store
import Interop.Memory.View
import Interop.Number.Alignment
import Interop.Number.Binary
import Interop.Number.Reading
import Interop.Number.Shortest
import Interop.Number.Words
import Interop.Platform
import Interop.Proofs.CType.CLayout
import Interop.Proofs.CType.DeclarationOrder
import Interop.Proofs.CType.Emptiness
import Interop.Proofs.CType.ExactLayout
import Interop.Proofs.CType.Fields
import Interop.Proofs.CType.Leaves
import Interop.Proofs.CType.Packing
import Interop.Proofs.CType.Placement
import Interop.Proofs.CType.PlatformIndependence
import Interop.Proofs.CType.Regularity
import Interop.Proofs.CType.Refusals
import Interop.Proofs.CType.Retarget
import Interop.Proofs.CType.SlotOrder
import Interop.Proofs.CType.Structure
import Interop.Proofs.Call.AllOrNothing
import Interop.Proofs.Call.Arguments
import Interop.Proofs.Call.Objections
import Interop.Proofs.Call.Preparation
import Interop.Proofs.Call.Result
import Interop.Proofs.Call.ReturnBuffer
import Interop.Proofs.Call.ReturnRegister
import Interop.Proofs.Call.StackChoice
import Interop.Proofs.Call.Transparency
import Interop.Proofs.Call.Upcalls
import Interop.Proofs.CommandLine.Calls
import Interop.Proofs.Declaration.Ahead
import Interop.Proofs.Declaration.Codes
import Interop.Proofs.Declaration.Coherence
import Interop.Proofs.Declaration.Edits
import Interop.Proofs.Declaration.FunctionLine
import Interop.Proofs.Declaration.LineOutcomes
import Interop.Proofs.Declaration.Prefixes
import Interop.Proofs.Declaration.ReadBack
import Interop.Proofs.Declaration.Respaced
import Interop.Proofs.Declaration.Signatures
import Interop.Proofs.Declaration.Source
import Interop.Proofs.Declaration.Spelling
import Interop.Proofs.Declaration.StructLine
import Interop.Proofs.Library.Linking
import Interop.Proofs.Marshal.Execution
import Interop.Proofs.Marshal.Host
import Interop.Proofs.Marshal.Lowering
import Interop.Proofs.Marshal.Narrowing
import Interop.Proofs.Marshal.NativeBytes
import Interop.Proofs.Marshal.Reduction
import Interop.Proofs.Marshal.Registers
import Interop.Proofs.Marshal.Resolution
import Interop.Proofs.Memory.Access
import Interop.Proofs.Memory.Appending
import Interop.Proofs.Memory.Confinement
import Interop.Proofs.Memory.Copying
import Interop.Proofs.Memory.Elements
import Interop.Proofs.Memory.Lockstep
import Interop.Proofs.Memory.Refusal
import Interop.Proofs.Memory.RoundTrips
import Interop.Proofs.Memory.Steps
import Interop.Proofs.Memory.Writing
import Interop.Proofs.Number.Masks
import Interop.Proofs.Number.Rounding
import Interop.Proofs.Outcome
import Interop.Proofs.Record.Accessors
import Interop.Proofs.Record.Bound
import Interop.Proofs.Record.Lenses
import Interop.Proofs.Record.Nesting
import Interop.Proofs.Record.Sized
import Interop.Proofs.Record.Tiling
import Interop.Proofs.Scratch.Children
import Interop.Proofs.Scratch.Exhaustion
import Interop.Proofs.Scratch.Requests
import Interop.Proofs.Scratch.Safety
import Interop.Proofs.Scratch.Session
import Interop.Proofs.Text.Cutting
import Interop.Proofs.Text.LeadingLines
import Interop.Proofs.Text.Squeezed
import Interop.Record.Accessor
import Interop.Record.Instance
import Interop.Record.StructType
import Interop.Settings.Basic
import Interop.Settings.Reader
import Interop.Text.Blank
import Interop.Text.Hex
import Interop.Text.Split
import Interop.Text.Utf8
import Interop.Toml.Basic
import Interop.Toml.Document
import Interop.Toml.Quoted
import Interop.Toml.Scalar
