import Reckoner.Main
import Reckoner.Definitions.Writing
import Reckoner.Proofs.Resolution.Blame
import Reckoner.Proofs.Resolution.Locality
import Reckoner.Proofs.Expression.Listing
import Reckoner.Proofs.Formula.Inlining
import Reckoner.Proofs.Formula.AsVariable
import Reckoner.Proofs.Definitions.RoundTrip
import Reckoner.Proofs.Command.Check
import Reckoner.Proofs.Book.Maps
import Reckoner.Proofs.Formula.Context
import Reckoner.Proofs.Definitions.Loading
import Reckoner.Proofs.Malformations
import Reckoner.Proofs.Decimal.Shortest
import Reckoner.Proofs.Lexeme.Display
import Reckoner.Proofs.Lexeme.Occurrences
import Reckoner.Proofs.Lexeme.Reference
import Reckoner.Proofs.Lexeme.Location
import Reckoner.Proofs.Dialects
import Reckoner.Proofs.Resolution.Course
import Reckoner.Proofs.Book.Insertion
import Reckoner.Proofs.Decimal.Whole
import Reckoner.Proofs.Book.Reentry
import Reckoner.Proofs.Lexeme.Constant
import Reckoner.Proofs.Resolution.Stack
import Reckoner.Proofs.Lexeme.Cursor
