import DateRules.Data.Expression
import DateRules.Engine.Command
import DateRules.Expr.Render
import DateRules.Rule.Document
import DateRules.Proofs.Engine.Population
import DateRules.Proofs.Engine.Reports
import DateRules.Proofs.Engine.Snapshot
import DateRules.Proofs.Engine.Validated
import DateRules.Proofs.Expr.Meaning
import DateRules.Proofs.Expr.RoundTrip
import DateRules.Proofs.Calendar.Julian
import DateRules.Proofs.Calendar.Easter
import DateRules.Proofs.Calendar.Occurrences
import DateRules.Proofs.Token.Munch
import DateRules.Proofs.Token.Spacing
import DateRules.Proofs.Grammar.Neighbours
import DateRules.Proofs.Grammar.Viable
import DateRules.Proofs.Parser.Acceptance
import DateRules.Proofs.Parser.Spacing
import DateRules.Proofs.Search
import DateRules.Proofs.Token.Scan
import DateRules.Proofs.Parser.Stopping
import DateRules.Proofs.Parser.Faults
import DateRules.Proofs.Parser.Diagnostics
import DateRules.Proofs.Expr.Signs
import DateRules.Proofs.Rule.Ids
import DateRules.Proofs.Parser.Relations
import DateRules.Proofs.Expr.Outermost
import DateRules.Proofs.Schedules
import DateRules.Proofs.Expr.Levels
import DateRules.Proofs.Parser.Choice
import DateRules.Proofs.Parser.Climbing
