import RouteEngine.Types
import RouteEngine.Library.Walk
import RouteEngine.Library.CostMap
import RouteEngine.Library.LeastCost
import RouteEngine.Library.Comparison
import RouteEngine.Library.Csr
import RouteEngine.Library.Binary64
import RouteEngine.Library.NonnegBinary64
import RouteEngine.Library.GridSum
import RouteEngine.Library.RoundedSum
import RouteEngine.Library.Binary64Text
import RouteEngine.Library.BestFirst
import RouteEngine.Library.LazyQueue
import RouteEngine.Library.TieBreaking
import RouteEngine.Library.NearBestFirst
import RouteEngine.Library.Rounding
import RouteEngine.Library.NearestEven
import RouteEngine.Library.Script
import RouteEngine.Library.Capped
import RouteEngine.Library.RangeLoop
import RouteEngine.Library.Reading
import RouteEngine.Library.BitMix
import RouteEngine.Library.DisplacedGrid
import RouteEngine.Library.Tolerance
import RouteEngine.Library.FileStore
import RouteEngine.Double
import RouteEngine.Metric
import RouteEngine.Graph
import RouteEngine.Builder
import RouteEngine.GraphSpec
import RouteEngine.BuilderSpec
import RouteEngine.BuiltGraph
import RouteEngine.BuilderFill
import RouteEngine.BuilderHistory
import RouteEngine.CsrLayout
import RouteEngine.Search
import RouteEngine.SearchSpec
import RouteEngine.SearchInvariant
import RouteEngine.SearchRun
import RouteEngine.SearchOutcome
import RouteEngine.SearchCost
import RouteEngine.MetricSpec
import RouteEngine.Exact
import RouteEngine.Optimality
import RouteEngine.Overflow
import RouteEngine.RoundedLine
import RouteEngine.BellmanFord
import RouteEngine.PathCheck
import RouteEngine.Expansions
import RouteEngine.SearchSteps
import RouteEngine.SearchCounters
import RouteEngine.DecreaseKey
import RouteEngine.TieBreaking
import RouteEngine.MetricContract
import RouteEngine.MetricScan
import RouteEngine.Csv
import RouteEngine.CsvFormat
import RouteEngine.CsvReader
import RouteEngine.CsvRows
import RouteEngine.CsvLoad
import RouteEngine.CsvWriter
import RouteEngine.CsvText
import RouteEngine.CsvStream
import RouteEngine.CsvRoundTrip
import RouteEngine.CsvDefect
import RouteEngine.LoaderCalls
import RouteEngine.CsvPadding
import RouteEngine.CsvRewriting
import RouteEngine.ArcOrder
import RouteEngine.Benchmark
import RouteEngine.BenchmarkRun
import RouteEngine.BenchmarkOutcome
import RouteEngine.BenchmarkGate
import RouteEngine.BenchmarkScale
import RouteEngine.BenchmarkReport
import RouteEngine.Random
import RouteEngine.RandomBelow
import RouteEngine.RandomUnit
import RouteEngine.QueryPairs
import RouteEngine.QueryStream
import RouteEngine.Generator
import RouteEngine.GeneratorScript
import RouteEngine.GeneratorRun
import RouteEngine.LatticeShape
import RouteEngine.LatticeGraph
import RouteEngine.LatticeExact
import RouteEngine.LatticeGeometry
import RouteEngine.GeneratorDouble
import RouteEngine.DiagonalRate
import RouteEngine.Cli
import RouteEngine.CliOptions
import RouteEngine.RouteRequest
import RouteEngine.RouteCommand
import RouteEngine.Relabelling
import RouteEngine.PermutedRows
import RouteEngine.GenerateCommand
import RouteEngine.GenerateFiles
import RouteEngine.GenerateOutcome
import RouteEngine.GenerateSound
import RouteEngine.GenerateKeeps
import RouteEngine.SearchMap
import RouteEngine.SearchDoubles
import RouteEngine.WholeCosts
import RouteEngine.SearchAccuracy
import RouteEngine.DenserNetwork
import RouteEngine.DiagonalShare
import RouteEngine.LatticeCosts
import RouteEngine.CsvLocality
import RouteEngine.Units
import RouteEngine.SearchTree
import RouteEngine.Commands
import RouteEngine.ValidateCommand
import RouteEngine.BenchmarkSearches
import RouteEngine.BenchmarkCommand
import RouteEngine.BenchmarkRuns
import RouteEngine.CommandEnds
import RouteEngine.Program
import RouteEngine.Sessions
import RouteEngine.RouteDoubles
