import QueryKit.Adapters
import QueryKit.Calendar.Date
import QueryKit.Calendar.Instant
import QueryKit.Calendar.Reading
import QueryKit.Coercion
import QueryKit.Columns
import QueryKit.Comparator.Basic
import QueryKit.Comparator.Factories
import QueryKit.Conditions
import QueryKit.Config.Address
import QueryKit.Config.Basic
import QueryKit.Config.Document
import QueryKit.Decimal.Binary
import QueryKit.Decimal.Layout
import QueryKit.Decimal.Reading
import QueryKit.Decimal.Shortest
import QueryKit.Driver.Basic
import QueryKit.Driver.Find
import QueryKit.Driver.Operation
import QueryKit.Fault
import QueryKit.Filter
import QueryKit.Insert
import QueryKit.Json.Basic
import QueryKit.Json.Printer
import QueryKit.Json.Reader
import QueryKit.Json.Token
import QueryKit.Json.Tree
import QueryKit.Pools
import QueryKit.Proofs.AdapterOverrides
import QueryKit.Proofs.AdapterRuns
import QueryKit.Proofs.AddressCredentials
import QueryKit.Proofs.AddressQueries
import QueryKit.Proofs.AliasRenaming
import QueryKit.Proofs.AliasWalks
import QueryKit.Proofs.ArrayGrammar
import QueryKit.Proofs.ArrayReading
import QueryKit.Proofs.ArrayStorage
import QueryKit.Proofs.ArrayWriters
import QueryKit.Proofs.Assignments
import QueryKit.Proofs.AssociatedRows
import QueryKit.Proofs.BooleanReading
import QueryKit.Proofs.BuildOutcomes
import QueryKit.Proofs.CallOutcomes
import QueryKit.Proofs.CivilDays
import QueryKit.Proofs.ClauseSplit
import QueryKit.Proofs.ClientRuns
import QueryKit.Proofs.CoercionRange
import QueryKit.Proofs.CountScope
import QueryKit.Proofs.DateStorage
import QueryKit.Proofs.DecodedRows
import QueryKit.Proofs.Disjuncts
import QueryKit.Proofs.DistinctAliases
import QueryKit.Proofs.DriverRuns
import QueryKit.Proofs.FilledClauses
import QueryKit.Proofs.FilledRecords
import QueryKit.Proofs.FilterMeaning
import QueryKit.Proofs.FilteredChanges
import QueryKit.Proofs.FiniteNumbers
import QueryKit.Proofs.Fragments
import QueryKit.Proofs.InsertedKeys
import QueryKit.Proofs.IntegerTexts
import QueryKit.Proofs.JoinConditions
import QueryKit.Proofs.JoinTargets
import QueryKit.Proofs.JoinTrees
import QueryKit.Proofs.JsonNumbers
import QueryKit.Proofs.JsonReading
import QueryKit.Proofs.JsonTexts
import QueryKit.Proofs.KeptJoins
import QueryKit.Proofs.Lexer
import QueryKit.Proofs.LinkKeys
import QueryKit.Proofs.LinkReferences
import QueryKit.Proofs.ListedItems
import QueryKit.Proofs.LiteralTokens
import QueryKit.Proofs.LostConnections
import QueryKit.Proofs.Nesting
import QueryKit.Proofs.NullTests
import QueryKit.Proofs.Numerals
import QueryKit.Proofs.OrderReferences
import QueryKit.Proofs.OrderedStatements
import QueryKit.Proofs.PageTiling
import QueryKit.Proofs.ParameterOrder
import QueryKit.Proofs.PendingFunctions
import QueryKit.Proofs.PercentEncoding
import QueryKit.Proofs.PoolSharing
import QueryKit.Proofs.Predicates
import QueryKit.Proofs.QualifiedColumns
import QueryKit.Proofs.Qualifiers
import QueryKit.Proofs.QueryParts
import QueryKit.Proofs.QueryPlaces
import QueryKit.Proofs.QuerySettings
import QueryKit.Proofs.RawFreeRuns
import QueryKit.Proofs.SearchAliases
import QueryKit.Proofs.SearchTables
import QueryKit.Proofs.SelectClauses
import QueryKit.Proofs.SelectList
import QueryKit.Proofs.SelectRuns
import QueryKit.Proofs.SelectStatements
import QueryKit.Proofs.SelectTokens
import QueryKit.Proofs.Selections
import QueryKit.Proofs.ServerArrays
import QueryKit.Proofs.SpellableFilters
import QueryKit.Proofs.SpellableQueries
import QueryKit.Proofs.SpellableSearches
import QueryKit.Proofs.SplicedText
import QueryKit.Proofs.StatementOutlines
import QueryKit.Proofs.StoredAliases
import QueryKit.Proofs.TableReading
import QueryKit.Proofs.TemplateFilling
import QueryKit.Proofs.Tokens
import QueryKit.Proofs.WallClock
import QueryKit.Proofs.ZoneSettings
import QueryKit.Property.ArrayText
import QueryKit.Property.Basic
import QueryKit.Property.NumberText
import QueryKit.Row
import QueryKit.Select.Basic
import QueryKit.Select.Call
import QueryKit.Select.JoinKeys
import QueryKit.Select.Statement
import QueryKit.Server.Basic
import QueryKit.Server.Cell
import QueryKit.Sorted
import QueryKit.Sql.ArrayLiteral
import QueryKit.Sql.Basic
import QueryKit.Sql.Comparison
import QueryKit.Sql.Literal
import QueryKit.Sql.Template
import QueryKit.SqlFunction
import QueryKit.Text.Character
import QueryKit.Text.Escaped
import QueryKit.Text.Hex
import QueryKit.Text.Numeral
import QueryKit.Text.Ranges
import QueryKit.Text.Split
import QueryKit.Text.Utf8
import QueryKit.Timezone
import QueryKit.Transport.Basic
import QueryKit.Transport.Borrowed
import QueryKit.Transport.Client
import QueryKit.Update
import QueryKit.Url.Basic
import QueryKit.Url.Ipv6
import QueryKit.Url.Reading
import QueryKit.Value.Basic
import QueryKit.Value.Description
import QueryKit.Value.Json
