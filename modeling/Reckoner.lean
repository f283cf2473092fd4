import Reckoner.Binary
import Reckoner.Bindings
import Reckoner.Block
import Reckoner.Block.Signature
import Reckoner.Block.Statement
import Reckoner.Calculator
import Reckoner.Converter
import Reckoner.Decimal
import Reckoner.Decimal.Numeral
import Reckoner.Digits
import Reckoner.Evaluation
import Reckoner.Fault
import Reckoner.Function.Builtin
import Reckoner.Function.Declaration
import Reckoner.Function.Parameters
import Reckoner.Grammar
import Reckoner.Operator
import Reckoner.Precision
import Reckoner.Proofs.Aggregates
import Reckoner.Proofs.Blame
import Reckoner.Proofs.Brackets
import Reckoner.Proofs.CallLines
import Reckoner.Proofs.Callability
import Reckoner.Proofs.Chains
import Reckoner.Proofs.Characters
import Reckoner.Proofs.Clauses
import Reckoner.Proofs.Completeness
import Reckoner.Proofs.Correspondence
import Reckoner.Proofs.Cursors
import Reckoner.Proofs.Declarations
import Reckoner.Proofs.Denotation
import Reckoner.Proofs.Doubles
import Reckoner.Proofs.Environment
import Reckoner.Proofs.Exactness
import Reckoner.Proofs.Execution
import Reckoner.Proofs.Faults
import Reckoner.Proofs.Folds
import Reckoner.Proofs.Grouping
import Reckoner.Proofs.Hoisting
import Reckoner.Proofs.Invocations
import Reckoner.Proofs.Lexical
import Reckoner.Proofs.Likeness
import Reckoner.Proofs.Limits
import Reckoner.Proofs.Locality
import Reckoner.Proofs.Margins
import Reckoner.Proofs.Mentions
import Reckoner.Proofs.Numerals
import Reckoner.Proofs.Origins
import Reckoner.Proofs.Parsing
import Reckoner.Proofs.Parts
import Reckoner.Proofs.Passes
import Reckoner.Proofs.Phrase
import Reckoner.Proofs.Positions
import Reckoner.Proofs.Powers
import Reckoner.Proofs.Progress
import Reckoner.Proofs.Rationals
import Reckoner.Proofs.Reading
import Reckoner.Proofs.Recency
import Reckoner.Proofs.Recording
import Reckoner.Proofs.Recursion
import Reckoner.Proofs.Referents
import Reckoner.Proofs.Refinement
import Reckoner.Proofs.Relevance
import Reckoner.Proofs.Replacement
import Reckoner.Proofs.Replays
import Reckoner.Proofs.Reports
import Reckoner.Proofs.Representation
import Reckoner.Proofs.Representatives
import Reckoner.Proofs.Rescaling
import Reckoner.Proofs.Rows
import Reckoner.Proofs.Scales
import Reckoner.Proofs.Scanning
import Reckoner.Proofs.Sessions
import Reckoner.Proofs.Shortcuts
import Reckoner.Proofs.Signatures
import Reckoner.Proofs.Simulation
import Reckoner.Proofs.Soundness
import Reckoner.Proofs.Spacing
import Reckoner.Proofs.Statements
import Reckoner.Proofs.Substitution
import Reckoner.Proofs.Sums
import Reckoner.Proofs.Totals
import Reckoner.Proofs.Twins
import Reckoner.Proofs.Words
import Reckoner.Proofs.Writing
import Reckoner.Registry
import Reckoner.Resolution
import Reckoner.Rounding
import Reckoner.Run
import Reckoner.Settings
import Reckoner.Shortcut
import Reckoner.Text.Characters
import Reckoner.Text.Quoted
import Reckoner.Token
