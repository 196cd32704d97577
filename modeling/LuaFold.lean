import LuaFold.Main
import LuaFold.Reparse.Session
import LuaFold.Tree.Builder
import LuaFold.Tree.Listing
import LuaFold.Proofs.Text.Layout
import LuaFold.Proofs.Tree.Measure
import LuaFold.Proofs.Tree.Shape
import LuaFold.Proofs.Grammar.Form
import LuaFold.Proofs.Grammar.Growth
import LuaFold.Proofs.Grammar.Rule
import LuaFold.Proofs.Grammar.Expression
import LuaFold.Proofs.Grammar.Statement
import LuaFold.Proofs.Grammar.Chunk
import LuaFold.Grammar.EventLog
import LuaFold.Proofs.Grammar.Replay
import LuaFold.Proofs.Token.Coverage
import LuaFold.Proofs.Tree.Rebuild
import LuaFold.Proofs.Parse.Lossless
import LuaFold.Proofs.Tree.Child
import LuaFold.Proofs.Tree.Place
import LuaFold.Proofs.Fold.Definition
import LuaFold.Proofs.Fold.Validity
import LuaFold.Proofs.Fold.Laminar
import LuaFold.Proofs.Reparse.Batch
import LuaFold.Proofs.Reparse.Run
import LuaFold.Proofs.Reparse.Invariant
import LuaFold.Proofs.Reparse.Tracking
import LuaFold.Proofs.Reparse.LastText
import LuaFold.Proofs.Grammar.Round
import LuaFold.Proofs.Grammar.Derivation
import LuaFold.Proofs.Grammar.Lookahead
import LuaFold.Proofs.Grammar.Resolution
import LuaFold.Proofs.Grammar.Reading
import LuaFold.Proofs.Grammar.Reading.Expression
import LuaFold.Proofs.Grammar.Reading.Statement
import LuaFold.Proofs.Grammar.Reading.Chunk
import LuaFold.Proofs.Grammar.Acceptance
import LuaFold.Proofs.Grammar.Acceptance.Expression
import LuaFold.Proofs.Grammar.Acceptance.Statement
import LuaFold.Proofs.Parse.Nesting
import LuaFold.Proofs.Parse.Acceptance
import LuaFold.Proofs.Reparse.Delivery
import LuaFold.Proofs.Reparse.Mark
import LuaFold.Proofs.Tree.Plain
import LuaFold.Proofs.Fold.Landmark
import LuaFold.Proofs.Fold.Formatting
import LuaFold.Token.Scanner
import LuaFold.Proofs.Token.Scanner
import LuaFold.Proofs.Token.Partition
import LuaFold.Tree.Arena
import LuaFold.Proofs.Tree.Retrace
import LuaFold.Proofs.Tree.Arena
import LuaFold.Proofs.Tree.ArenaTokens
import LuaFold.Proofs.Tree.ArenaNodes
import LuaFold.Proofs.Tree.ArenaBuilder
import LuaFold.Proofs.Tree.Remembered
import LuaFold.Proofs.Parse.Schema
import LuaFold.Proofs.Tree.Lineage
import LuaFold.Proofs.Fold.Forest
import LuaFold.Proofs.Reparse.Numbering
import LuaFold.Proofs.Reparse.Pool
import LuaFold.Proofs.Reparse.Isolation
import LuaFold.Proofs.Reparse.Mirror
import LuaFold.Proofs.Token.Continuation
import LuaFold.Proofs.Token.Junction
import LuaFold.Proofs.Grammar.Abreast
import LuaFold.Proofs.Grammar.Abreast.Expression
import LuaFold.Proofs.Grammar.Abreast.Statement
import LuaFold.Proofs.Grammar.Abreast.Chunk
import LuaFold.Proofs.Fold.Junction
import LuaFold.Proofs.Parse.Unknown
import LuaFold.Server.Dispatcher
import LuaFold.Proofs.Server.Host
import LuaFold.Proofs.Server.Dispatcher
import LuaFold.Proofs.Server.Discipline
import LuaFold.Proofs.Server.Indexed
import LuaFold.Proofs.Server.History
import LuaFold.Proofs.Server.Traffic
import LuaFold.Proofs.Server.Reference
import LuaFold.Proofs.Server.Trail
import LuaFold.Proofs.Server.Run
import LuaFold.Proofs.Server.Refinement
import LuaFold.Proofs.Server.Coherence
import LuaFold.Proofs.Grammar.Machine.Code
import LuaFold.Proofs.Grammar.Machine.Meaning
import LuaFold.Proofs.Grammar.Machine.Height
import LuaFold.Proofs.Grammar.Machine.Configuration
import LuaFold.Proofs.Grammar.Machine.Run
import LuaFold.Proofs.Grammar.Machine.Termination
import LuaFold.Proofs.Parse.Recursion
import LuaFold.Proofs.Grammar.Account
import LuaFold.Proofs.Grammar.Account.Expression
import LuaFold.Proofs.Grammar.Account.Statement
import LuaFold.Proofs.Parse.Account
import LuaFold.Proofs.Fold.Loss
import LuaFold.Tree.ArenaReading
import LuaFold.Proofs.Tree.Layout
import LuaFold.Proofs.Tree.Survey
import LuaFold.Proofs.Tree.Representation
import LuaFold.Grammar.Marker
import LuaFold.Proofs.Grammar.Marker
import LuaFold.Proofs.Parse.Marker
import LuaFold.Proofs.Parse.Precedence
import LuaFold.Proofs.Reparse.OneByOne
import LuaFold.Proofs.Token.Occurrence
import LuaFold.Token.Grammar
import LuaFold.Proofs.Token.Grammar
import LuaFold.Token.Literal
import LuaFold.Proofs.Token.ShortString
import LuaFold.Proofs.Token.Numeral
import LuaFold.Proofs.Token.Stretch
import LuaFold.Proofs.Token.Trivia
import LuaFold.Proofs.Token.Fault
import LuaFold.Proofs.Token.Spacing
import LuaFold.Proofs.Parse.Diagnostics
import LuaFold.Proofs.Grammar.Balance
import LuaFold.Proofs.Text.Position
import LuaFold.Proofs.Server.Geometry
import LuaFold.Tree.Preorder
import LuaFold.Proofs.Tree.Preorder
import LuaFold.Proofs.Fold.Traversal
import LuaFold.Proofs.Tree.Demand
import LuaFold.Fold.Listing
import LuaFold.Proofs.Fold.Name
import LuaFold.Proofs.Json.Reader
import LuaFold.Proofs.Fold.Listing
import LuaFold.Proofs.Grammar.Ledger
import LuaFold.Proofs.Grammar.Ledger.Expression
import LuaFold.Proofs.Grammar.Ledger.Statement
import LuaFold.Tree.Narrowing
import LuaFold.Proofs.Grammar.EventLog
import LuaFold.Proofs.Tree.Narrowing
import LuaFold.Proofs.Parse.Narrowing
