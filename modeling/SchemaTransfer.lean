import SchemaTransfer.Command.Run
import SchemaTransfer.Main
import SchemaTransfer.Proofs.Names.Emission
import SchemaTransfer.Proofs.Command.Path
import SchemaTransfer.Proofs.Command.Targets
import SchemaTransfer.Proofs.Command.Outputs
import SchemaTransfer.Proofs.Load.Place
import SchemaTransfer.Proofs.Load.Refusal
import SchemaTransfer.Proofs.Load.Leftover
import SchemaTransfer.Proofs.Blank
import SchemaTransfer.Proofs.Catalog.WellKept
import SchemaTransfer.Proofs.Load.WellKept
import SchemaTransfer.Proofs.Conversion.Order
import SchemaTransfer.Proofs.Conversion.Index
import SchemaTransfer.Proofs.Conversion.Comment
import SchemaTransfer.Proofs.Load.Declaration
import SchemaTransfer.Proofs.Dump.Lossless
import SchemaTransfer.Proofs.Load.Append
import SchemaTransfer.Proofs.Conversion.TableNames
import SchemaTransfer.Proofs.Conversion.Definition
import SchemaTransfer.Proofs.Load.Footprint
import SchemaTransfer.Proofs.Dump.FunctionBody
import SchemaTransfer.Proofs.Conversion.Failure
import SchemaTransfer.Proofs.Load.Constraint
import SchemaTransfer.Proofs.Target.ForeignKey
import SchemaTransfer.Proofs.Target.Storage
import SchemaTransfer.Proofs.Target.Tally
import SchemaTransfer.Proofs.Conversion.Tablespace
import SchemaTransfer.Proofs.Encoding.Guess
import SchemaTransfer.Proofs.Manifest
import SchemaTransfer.Proofs.Conversion.View
import SchemaTransfer.Proofs.Target.Constraint
import SchemaTransfer.Proofs.Load.Closing
import SchemaTransfer.Proofs.Target.Expression
import SchemaTransfer.Proofs.Load.Sequence
import SchemaTransfer.Proofs.Load.ColumnBlanks
import SchemaTransfer.Proofs.Target.Rules
import SchemaTransfer.Proofs.Target.Check
import SchemaTransfer.Proofs.Conversion.SearchPath
import SchemaTransfer.Proofs.Conversion.Restart
import SchemaTransfer.Proofs.Conversion.Function
import SchemaTransfer.Proofs.Conversion.DefaultValue
import SchemaTransfer.Proofs.Dump.FirstLineText
import SchemaTransfer.Proofs.Dump.CommentScan
import SchemaTransfer.Proofs.Target.SearchPathOrder
import SchemaTransfer.Proofs.Target.Token
import SchemaTransfer.Proofs.Target.Piece
import SchemaTransfer.Proofs.Conversion.Identifier
import SchemaTransfer.Proofs.Catalog.Names
import SchemaTransfer.Proofs.Load.Names
import SchemaTransfer.Proofs.Load.Hyphens
import SchemaTransfer.Proofs.Load.Reported
import SchemaTransfer.Proofs.Load.ContainerList
