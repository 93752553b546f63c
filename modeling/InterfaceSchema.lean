import InterfaceSchema.Disk.Change
import InterfaceSchema.FileSet.Load
import InterfaceSchema.Proofs.Phrase.Basic
import InterfaceSchema.Proofs.Reading.Cursor
import InterfaceSchema.Proofs.Reading.FieldType
import InterfaceSchema.Proofs.Reading.Annotation
import InterfaceSchema.Proofs.Reading.Block
import InterfaceSchema.Proofs.Reading.Message
import InterfaceSchema.Proofs.Reading.Service
import InterfaceSchema.Proofs.Reading.Declaration
import InterfaceSchema.Proofs.Reading.Schema
import InterfaceSchema.Proofs.Reading.Repeated
import InterfaceSchema.Proofs.Reading.Text
import InterfaceSchema.Proofs.FileSet.Consistent
import InterfaceSchema.Proofs.Disk.Walk
import InterfaceSchema.Proofs.Disk.Target
import InterfaceSchema.Proofs.Disk.Denoted
import InterfaceSchema.Proofs.Path.Clean
import InterfaceSchema.Proofs.FileSet.Place
import InterfaceSchema.Proofs.FileSet.Closure
import InterfaceSchema.Proofs.FileSet.Success
import InterfaceSchema.Proofs.Token.Spelled
import InterfaceSchema.Proofs.Notes.Position
import InterfaceSchema.Proofs.Notes.Margin
import InterfaceSchema.Proofs.Notes.Placed
import InterfaceSchema.Proofs.Notes.Attached
import InterfaceSchema.Proofs.FileSet.Failure
import InterfaceSchema.Proofs.FileSet.Call
import InterfaceSchema.Proofs.FileSet.Roots
import InterfaceSchema.Proofs.FileSet.Names
import InterfaceSchema.Proofs.Token.Tiling
import InterfaceSchema.Proofs.Token.Lines
import InterfaceSchema.Proofs.Kinds.Earliest
import InterfaceSchema.Proofs.Schema.Lookup
import InterfaceSchema.Proofs.FileSet.Resolution
import InterfaceSchema.Proofs.FileSet.Openings
import InterfaceSchema.Proofs.Locations.Nested
import InterfaceSchema.Proofs.Unplaced.Phrase
import InterfaceSchema.Proofs.Unplaced.Alone
import InterfaceSchema.Proofs.Unplaced.Joined
import InterfaceSchema.Proofs.Types.Reference
import InterfaceSchema.Proofs.Agreement.Returns
import InterfaceSchema.Proofs.Failures.WellFormed
import InterfaceSchema.Proofs.FileSet.Reported
import InterfaceSchema.Proofs.FileSet.Missing
import InterfaceSchema.Proofs.Failures.Imports
import InterfaceSchema.Proofs.Disk.Clean
import InterfaceSchema.Proofs.FileSet.Printed
import InterfaceSchema.Proofs.Token.Stops
import InterfaceSchema.Proofs.Token.Literal
import InterfaceSchema.Proofs.Text.Recount
import InterfaceSchema.Proofs.Reading.CommaList
import InterfaceSchema.Proofs.Progress.Schema
