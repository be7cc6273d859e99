import MiniSqlite.Transaction.DeadlockDetector
import MiniSqlite.Transaction.WalRestart
import MiniSqlite.Transaction.Serializability
import MiniSqlite.Transaction.TxnRuns
import MiniSqlite.Transaction.RecoveryManager
import MiniSqlite.Storage.DiskRuns
import MiniSqlite.Storage.SlottedPageRuns
import MiniSqlite.Buffer.PoolContents
import MiniSqlite.Executor.HeapsRuns
import MiniSqlite.Executor.StatementErrors
import MiniSqlite.Executor.ChangeResults
import MiniSqlite.Index.PinBalance
import MiniSqlite.Std.Records
import MiniSqlite.Std.Search
import MiniSqlite.Std.SerialOrder
import MiniSqlite.Std.SortedMap
import MiniSqlite.Index.NodeSplits
import MiniSqlite.Index.TreePages
import MiniSqlite.Index.TreeChanges
import MiniSqlite.Index.TreeInserts
import MiniSqlite.Index.TreeRuns
import MiniSqlite.Index.TreeScans
import MiniSqlite.Executor.StoredValues
import MiniSqlite.Executor.ColumnNames
import MiniSqlite.Executor.AggregateRows
import MiniSqlite.Executor.OuterJoins
import MiniSqlite.Executor.SelectTrees
import MiniSqlite.Executor.FromRows
import MiniSqlite.Executor.JoinQueries
import MiniSqlite.Executor.IndexTransparency
import MiniSqlite.Std.Arrangements
import MiniSqlite.Executor.QualifiedColumns
import MiniSqlite.Executor.SortedQueries
import MiniSqlite.Executor.AggregateQueries
import MiniSqlite.Catalog.CatalogRuns
import MiniSqlite.Executor.DdlStatements
import MiniSqlite.Executor.InsertColumns
import MiniSqlite.Executor.Constraints
import MiniSqlite.Transaction.TornLog
import MiniSqlite.Transaction.FailingLog
import MiniSqlite.Storage.DiskCrashes
import MiniSqlite.Storage.DiskFailures
import MiniSqlite.Storage.RowBounds
import MiniSqlite.Parser.SourceTiling
import MiniSqlite.Parser.PrintedExpressions
import MiniSqlite.Buffer.FailedAllocations
import MiniSqlite.Buffer.AccessHistory
import MiniSqlite.Parser.Grammar
import MiniSqlite.Executor.LikePatterns
import MiniSqlite.Storage.Casts
import MiniSqlite.Storage.IntegerArithmetic
import MiniSqlite.Executor.Literals
import MiniSqlite.Executor.RowLimits
import MiniSqlite.Common.HashmapRuns
import MiniSqlite.Buffer.LruQueues
import MiniSqlite.Transaction.RecoveryTables
import MiniSqlite.Transaction.RecoveryRedo
import MiniSqlite.Index.NodeLayout
import MiniSqlite.Executor.IndexRoots
import MiniSqlite.Std.PrintedWords
import MiniSqlite.Parser.PrintedStatements
import MiniSqlite.Parser.PrintedQueries
import MiniSqlite.Parser.PrintedScripts
import MiniSqlite.Parser.PrintedSources
import MiniSqlite.Buffer.PoolMirrors
import MiniSqlite.Executor.HeapsMirrored
import MiniSqlite.Executor.OperatorsMirrored
import MiniSqlite.Executor.StatementsMirrored
import MiniSqlite.Parser.ExecutedStatements
import MiniSqlite.Tools.DurableSessions
import MiniSqlite.Tools.RunScripts
import MiniSqlite.Tools.SessionStatements
import MiniSqlite.Tools.TypedScripts
