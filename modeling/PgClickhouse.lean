import PgClickhouse.Keyed
import PgClickhouse.Basic
import PgClickhouse.Options
import PgClickhouse.OptionsFormat
import PgClickhouse.Settings
import PgClickhouse.Connection
import PgClickhouse.Leases
import PgClickhouse.BinaryQuery
import PgClickhouse.HttpRequest
import PgClickhouse.SettingsDelivery
import PgClickhouse.HttpCursor
import PgClickhouse.BinaryReuse
import PgClickhouse.FromClause
import PgClickhouse.JoinText
import PgClickhouse.Joins
import PgClickhouse.Kleene
import PgClickhouse.JoinPlan
import PgClickhouse.JoinQuals
import PgClickhouse.UpperExpr
import PgClickhouse.UpperPlan
import PgClickhouse.UpperRows
import PgClickhouse.UpperAssembly
import PgClickhouse.BlockSource
import PgClickhouse.EscapedText
import PgClickhouse.HttpStream
import PgClickhouse.ParamDelivery
import PgClickhouse.Nullability
import PgClickhouse.ScalarArrayOp
import PgClickhouse.SubPlanQuery
import PgClickhouse.NotInSubPlan
import PgClickhouse.ExprText
import PgClickhouse.StatementText
import PgClickhouse.Placeholders
import PgClickhouse.Capture
import PgClickhouse.Placement
import PgClickhouse.AliasScope
import PgClickhouse.AggregateText
import PgClickhouse.AggregateValues
import PgClickhouse.Collapsing
import PgClickhouse.PartialStates
import PgClickhouse.SquaredDeviations
import PgClickhouse.SemiJoins
import PgClickhouse.SubqueryColumns
import PgClickhouse.Raising
import PgClickhouse.CustomObjects
import PgClickhouse.ObjectsCache
import PgClickhouse.KeptRows
import PgClickhouse.FinalPlan
import PgClickhouse.ToCharFormat
import PgClickhouse.QuotedToken
import PgClickhouse.Literals
import PgClickhouse.Identifiers
import PgClickhouse.NestedText
import PgClickhouse.ArrayText
import PgClickhouse.SelfDelimiting
import PgClickhouse.DeparseContext
import PgClickhouse.ContextText
import PgClickhouse.GroupedText
import PgClickhouse.EngineOption
import PgClickhouse.LeafPattern
import PgClickhouse.RegexFlags
import PgClickhouse.RegexMatch
import PgClickhouse.SubPlanText
import PgClickhouse.TruthContext
import PgClickhouse.TruthSoundness
import PgClickhouse.EscapeTemplate
import PgClickhouse.ReplaceTemplate
import PgClickhouse.Intervals
import PgClickhouse.Windows
import PgClickhouse.Calls
import PgClickhouse.Subscripts
import PgClickhouse.StringFunctions
import PgClickhouse.ArrayPosition
import PgClickhouse.PatternReplace
import PgClickhouse.Encode
import PgClickhouse.JsonEquality
import PgClickhouse.JsonPath
import PgClickhouse.InsertHandles
import PgClickhouse.CursorResponse
import PgClickhouse.Perform
import PgClickhouse.InsertRows
import PgClickhouse.Searching
import PgClickhouse.ErrorText
import PgClickhouse.HttpException
import PgClickhouse.Sorting
import PgClickhouse.SortOrder
import PgClickhouse.Agreement
import PgClickhouse.MergedSettings
import PgClickhouse.KvList
import PgClickhouse.Numbering
import PgClickhouse.WindowPlaceholders
import PgClickhouse.Frames
import PgClickhouse.OverClause
import PgClickhouse.Calendar
import PgClickhouse.DateTimes
import PgClickhouse.TimeZones
import PgClickhouse.DatePart
import PgClickhouse.Slots
import PgClickhouse.Expiring
import PgClickhouse.VectorMetadata
import PgClickhouse.ForeignScan
import PgClickhouse.SqlScanner
import PgClickhouse.ColumnsCache
import PgClickhouse.ForeignTables
import PgClickhouse.ImportSchema
