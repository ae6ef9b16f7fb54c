import PriceFeed.Schedulers.Spacing
import PriceFeed.Discovery.ShareAgreement
import PriceFeed.Discovery.SelfWindow
import PriceFeed.Discovery.AdoptedSlots
import PriceFeed.Discovery.CloseHandling
import PriceFeed.Discovery.PhaseControl
import PriceFeed.MarketRecords.BatchIndependence
import PriceFeed.Collectors.MarketsManager
import PriceFeed.Collectors.SingleStart
import PriceFeed.Collectors.FinalStop
import PriceFeed.Collectors.MonotoneBackoff
import PriceFeed.Schedulers.Historical
import PriceFeed.Schedulers.CycleCoverage
import PriceFeed.Library.Pipeline
import PriceFeed.Schedulers.SlotDelays
import PriceFeed.Schedulers.OnTime
import PriceFeed.Schedulers.HistoricalCoverage
import PriceFeed.Schedulers.RateLimitedCycles
import PriceFeed.Collectors.BackoffBursts
import PriceFeed.Discovery.Exchange
import PriceFeed.Discovery.Convergence
import PriceFeed.Collectors.IntervalChains
import PriceFeed.Collectors.CandlePartition
import PriceFeed.Collectors.TradePartition
import PriceFeed.MarketRecords.SearchScope
import PriceFeed.UseCases.QueryLoops
import PriceFeed.UseCases.CachedRuns
import PriceFeed.UseCases.CacheTransparency
import PriceFeed.Library.Paging
import PriceFeed.MarketRecords.Aggregate
import PriceFeed.MarketRecords.Pagination
import PriceFeed.Library.Fallible
import PriceFeed.Library.SerialTable
import PriceFeed.Workers.CandlesDiscreteAggregator
import PriceFeed.Workers.TaskOutcomes
import PriceFeed.Workers.Redelivery
import PriceFeed.Workers.RetryPath
import PriceFeed.Collectors.MarketRegistry
import PriceFeed.Collectors.QueueSlots
import PriceFeed.Infrastructure.RedisLRUCache
import PriceFeed.Infrastructure.LRURefinement
import PriceFeed.Infrastructure.LRUInterleaving
import PriceFeed.Collectors.XRPLDriver
import PriceFeed.Library.Grouping
import PriceFeed.MarketRecords.Bucketing
import PriceFeed.MarketRecords.CandleSanity
import PriceFeed.MarketRecords.SlicePass
import PriceFeed.Discovery.CountedOnce
import PriceFeed.Discovery.ShareMerge
import PriceFeed.MarketRecords.AggregatorsAgree
import PriceFeed.MarketRecords.RecordCount
import PriceFeed.Discovery.CloseConfluence
import PriceFeed.Discovery.ShareAdoption
import PriceFeed.Library.CronPattern
import PriceFeed.Schedulers.CronInterval
import PriceFeed.Schedulers.Cancellation
import PriceFeed.Collectors.MarketEvents
import PriceFeed.UseCases.MarketGaps
import PriceFeed.Infrastructure.LogRedaction
import PriceFeed.Infrastructure.RedactedSecrets
import PriceFeed.Collectors.TimeoutMutex
import PriceFeed.Library.Rounds
import PriceFeed.Schedulers.Timeline
import PriceFeed.Collectors.IntervalTiling
import PriceFeed.Schedulers.CyclesOnce
import PriceFeed.Library.Number
import PriceFeed.Schedulers.HistoricalBounds
import PriceFeed.Collectors.ReloadsApart
import PriceFeed.Library.Numerals
import PriceFeed.UseCases.DateParse
import PriceFeed.UseCases.TimestampOrder
import PriceFeed.UseCases.DateRange
import PriceFeed.Collectors.PoolRates
import PriceFeed.Collectors.ProcessAllocator
import PriceFeed.Library.FirstOfKey
import PriceFeed.Workers.MarketRecordWriter
import PriceFeed.Workers.RecordIngestion
import PriceFeed.Workers.CCXTSeeder
import PriceFeed.Workers.SeededMarkets
import PriceFeed.Workers.SeederRuns
import PriceFeed.Library.Json
import PriceFeed.Collectors.ExchangeDeployment
import PriceFeed.UseCases.RenderedResponse
import PriceFeed.Discovery.DebouncedBuffer
import PriceFeed.UseCases.LostIntervals
import PriceFeed.Workers.AggregationTasks
import PriceFeed.Workers.TaskLifecycle
import PriceFeed.Workers.TaskRuns
import PriceFeed.Workers.ExecutionsAlone
import PriceFeed.UseCases.IngestionGaps
