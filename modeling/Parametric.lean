import Parametric.CommandLine.Arguments
import Parametric.CommandLine.Help
import Parametric.CommandLine.Listing
import Parametric.CommandLine.Run
import Parametric.Dimension
import Parametric.Document
import Parametric.Feature.Op
import Parametric.Feature.Plan
import Parametric.Feature.Rebuild
import Parametric.Feature.Studio
import Parametric.Formula.Evaluation
import Parametric.Formula.Expr
import Parametric.Formula.Parser
import Parametric.Formula.Rename
import Parametric.Formula.Token
import Parametric.History
import Parametric.Identifier
import Parametric.Json
import Parametric.Main
import Parametric.Number.Reading
import Parametric.Number.Shortest
import Parametric.Number.Text
import Parametric.Parameters.Basic
import Parametric.Parameters.Dependents
import Parametric.Parameters.Edit
import Parametric.Parameters.Graph
import Parametric.Parameters.Search
import Parametric.Plane
import Parametric.Proofs.Dimension
import Parametric.Proofs.Dimension.Entry
import Parametric.Proofs.Document.Edit
import Parametric.Proofs.Document.Equality
import Parametric.Proofs.Document.Renaming
import Parametric.Proofs.Document.Saved
import Parametric.Proofs.Feature.Deletion
import Parametric.Proofs.Feature.Plan
import Parametric.Proofs.Feature.Rebuild
import Parametric.Proofs.Feature.Tree
import Parametric.Proofs.Formula.Evaluation
import Parametric.Proofs.Formula.Fault
import Parametric.Proofs.Formula.Grammar
import Parametric.Proofs.Formula.Lexeme
import Parametric.Proofs.Formula.Literal
import Parametric.Proofs.Formula.Parsing
import Parametric.Proofs.Formula.Partition
import Parametric.Proofs.Formula.Printing
import Parametric.Proofs.Formula.References
import Parametric.Proofs.Formula.Renaming
import Parametric.Proofs.Formula.Restoration
import Parametric.Proofs.Formula.Scanning
import Parametric.Proofs.Formula.Trimming
import Parametric.Proofs.Formula.Words
import Parametric.Proofs.History
import Parametric.Proofs.History.Limit
import Parametric.Proofs.Identifier
import Parametric.Proofs.Number.Arithmetic
import Parametric.Proofs.Number.Binary
import Parametric.Proofs.Number.Equality
import Parametric.Proofs.Number.Range
import Parametric.Proofs.Number.Reading
import Parametric.Proofs.Number.Rounding
import Parametric.Proofs.Number.Saved
import Parametric.Proofs.Number.Shortest
import Parametric.Proofs.Number.Text
import Parametric.Proofs.Outcome
import Parametric.Proofs.Parameters.Addition
import Parametric.Proofs.Parameters.Cycle
import Parametric.Proofs.Parameters.Cyclic
import Parametric.Proofs.Parameters.Dependents
import Parametric.Proofs.Parameters.Edit
import Parametric.Proofs.Parameters.Evaluation
import Parametric.Proofs.Parameters.Fixpoint
import Parametric.Proofs.Parameters.Inverse
import Parametric.Proofs.Parameters.Permutation
import Parametric.Proofs.Parameters.Reach
import Parametric.Proofs.Parameters.Renaming
import Parametric.Proofs.Parameters.Run
import Parametric.Proofs.Parameters.Schedule
import Parametric.Proofs.Ron.Alongside
import Parametric.Proofs.Ron.Extent
import Parametric.Proofs.Ron.InStep
import Parametric.Proofs.Ron.Lexeme
import Parametric.Proofs.Ron.Numbers
import Parametric.Proofs.Ron.Reading
import Parametric.Proofs.Ron.Regular
import Parametric.Proofs.Ron.Schema
import Parametric.Proofs.Ron.Selection
import Parametric.Proofs.Ron.Skipping
import Parametric.Proofs.Saved.Encoding
import Parametric.Proofs.Saved.Loading
import Parametric.Proofs.Saved.Restore
import Parametric.Proofs.Saved.Version
import Parametric.Proofs.Session.Commit
import Parametric.Proofs.Session.Entry
import Parametric.Proofs.Session.Links
import Parametric.Proofs.Session.Numbers
import Parametric.Proofs.Session.Parameters
import Parametric.Proofs.Session.Rebuild
import Parametric.Proofs.Session.Run
import Parametric.Proofs.Session.Selection
import Parametric.Proofs.Session.Sketches
import Parametric.Proofs.Sketch.Edit
import Parametric.Proofs.Sketch.Integrity
import Parametric.Proofs.Sketch.Positions
import Parametric.Proofs.Sketch.Removal
import Parametric.Proofs.SortedMap
import Parametric.Proofs.Text.Digits
import Parametric.Proofs.Text.Runs
import Parametric.Ron.Form
import Parametric.Ron.Lexeme
import Parametric.Ron.Reading
import Parametric.Ron.Schema
import Parametric.Ron.Value
import Parametric.Saved.Encoding
import Parametric.Saved.File
import Parametric.Saved.Form
import Parametric.Saved.Schema
import Parametric.Selection
import Parametric.Session
import Parametric.Settings
import Parametric.Sketch
import Parametric.SortedMap
import Parametric.Text.Blank
import Parametric.Text.Hexadecimal
import Parametric.Text.Lines
import Parametric.Text.Ranges
import Parametric.Text.Unprintable
import Parametric.Text.WordCharacter
import Parametric.Timestamp
