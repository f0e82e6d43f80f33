import SalesExplorer.Proofs.Filter.WireDomain
import SalesExplorer.Proofs.Json.Members
import SalesExplorer.Proofs.Query.Columns
import SalesExplorer.Proofs.Reading
import SalesExplorer.Proofs.Result.Cache
import SalesExplorer.Proofs.Retrieval.Forgetting
import SalesExplorer.Proofs.Retrieval.History
import SalesExplorer.Proofs.Retrieval.LatestRun
import SalesExplorer.Proofs.Retrieval.Refusal
import SalesExplorer.Proofs.Retrieval.Renewal
import SalesExplorer.Proofs.Retrieval.Replay
import SalesExplorer.Proofs.Retrieval.Submissions
import SalesExplorer.Proofs.Retrieval.Successes
import SalesExplorer.Proofs.Selection.Composition
import SalesExplorer.Proofs.Text.Trim
import SalesExplorer.Rehearsal.Headline
import SalesExplorer.Rehearsal.Options
import SalesExplorer.Rehearsal.Retrieval
import SalesExplorer.Result.Table
import SalesExplorer.Result.View
import SalesExplorer.Selection
import SalesExplorer.Settings.Load
import SalesExplorer.Wire.Query
import SalesExplorer.Proofs.Options.History
import SalesExplorer.Proofs.Options.SharedFetch
import SalesExplorer.Proofs.Selection.OrderKeys
import SalesExplorer.Proofs.Calendar.Date
import SalesExplorer.Proofs.Calendar.LocalTime
import SalesExplorer.Proofs.Calendar.DayBounds
import SalesExplorer.Proofs.Calendar.Rfc3339
import SalesExplorer.Proofs.Wire.Layout
import SalesExplorer.Proofs.Wire.RoundTrip
import SalesExplorer.Proofs.Json.Text
import SalesExplorer.Proofs.Calendar.WithinDay
import SalesExplorer.Proofs.Selection.Faults
import SalesExplorer.Proofs.Result.Shapes
import SalesExplorer.Proofs.Retrieval.View
import SalesExplorer.Proofs.Filter.Normalization
import SalesExplorer.Proofs.Binary64.Rounding
import SalesExplorer.Proofs.Figure.Decimal
import SalesExplorer.Proofs.Binary64.Integers
import SalesExplorer.Proofs.Result.IntegerCells
import SalesExplorer.Proofs.Calendar.RangeOrder
import SalesExplorer.Proofs.Result.Recency
import SalesExplorer.Proofs.Wire.Records
import SalesExplorer.Proofs.Wire.QueryForms
import SalesExplorer.Proofs.Binary64.Overflow
import SalesExplorer.Proofs.Binary64.Numeral
import SalesExplorer.Proofs.Result.FiniteFigures
import SalesExplorer.Proofs.Json.Whole
import SalesExplorer.Proofs.Wire.OptionLists
import SalesExplorer.Proofs.Filter.FixedDomains
import SalesExplorer.Proofs.Selection.History
import SalesExplorer.Proofs.Selection.Picks
import SalesExplorer.Proofs.Selection.FilterRows
import SalesExplorer.Proofs.Options.Editors
import SalesExplorer.Proofs.Options.Sessions
import SalesExplorer.Proofs.Calendar.Presets
import SalesExplorer.Proofs.Figure.CardText
import SalesExplorer.Proofs.Headline.Calls
import SalesExplorer.Proofs.Result.FileNames
