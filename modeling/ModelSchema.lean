import ModelSchema.Executable
import ModelSchema.Json
import ModelSchema.Proofs.Hidden.Leak
import ModelSchema.Proofs.Names.Unique
import ModelSchema.Proofs.References.Closure
import ModelSchema.Relational.Declared
import ModelSchema.Relational.Models
import ModelSchema.Sdl.Reading
import ModelSchema.Proofs.Merge.Ordered
import ModelSchema.Proofs.Merge.Sections
import ModelSchema.Proofs.Merge.Reference
import ModelSchema.Proofs.Merge.Associative
import ModelSchema.Proofs.Reading.Lexing
import ModelSchema.Proofs.Reading.Strings
import ModelSchema.Proofs.Reading.Layout
import ModelSchema.Proofs.Reading.Declarations
import ModelSchema.Proofs.Reading.Parsing
import ModelSchema.Proofs.Reading.Documents
import ModelSchema.Proofs.Reading.Names
import ModelSchema.Proofs.Reading.Types
import ModelSchema.Proofs.Reading.Exposure
import ModelSchema.Proofs.Reading.Entries
import ModelSchema.Proofs.Reading.ObjectTypes
import ModelSchema.Proofs.Merge.Precedence
import ModelSchema.Proofs.Registry.Log
import ModelSchema.Proofs.Registry.GlobalIds
import ModelSchema.Proofs.Enums.Uses
import ModelSchema.Proofs.Enums.Written
import ModelSchema.Proofs.Enums.Session
import ModelSchema.Proofs.Relational.Classes
import ModelSchema.Proofs.Merge.Resolvers
import ModelSchema.Proofs.Growth.Build
import ModelSchema.Proofs.Joining.Documents
import ModelSchema.Proofs.Joining.Follows
import ModelSchema.Proofs.Joining.Fragments
import ModelSchema.Proofs.Joining.Lexing
import ModelSchema.Proofs.Joining.Parts
import ModelSchema.Proofs.Joining.Texts
import ModelSchema.Proofs.Reading.Tokens
import ModelSchema.Proofs.Reading.Descriptions
import ModelSchema.Proofs.Types.Modes
import ModelSchema.Proofs.Operations.Suppression
import ModelSchema.Proofs.Reading.Indentation
import ModelSchema.Proofs.Reading.Rows
import ModelSchema.Proofs.Reading.FieldMaps
import ModelSchema.Proofs.Relational.Columns
import ModelSchema.Proofs.Executable.Binding
import ModelSchema.Proofs.Executable.Faults
import ModelSchema.Proofs.Executable.Emptiness
import ModelSchema.Proofs.Enums.Complete
import ModelSchema.Proofs.Zones.Rows
import ModelSchema.Proofs.Zones.Rules
import ModelSchema.Proofs.Relational.Extension
import ModelSchema.Proofs.Names.CamelCase
import ModelSchema.Proofs.Scalar.Long
