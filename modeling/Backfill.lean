import Backfill.Main
import Backfill.Simulation.Outage
import Backfill.Simulation.Series
import Backfill.Proofs.LedgerCalls
import Backfill.Proofs.PlanPieces
import Backfill.Proofs.EnginePlans
import Backfill.Proofs.PoolPlaces
import Backfill.Proofs.AccountEntries
import Backfill.Proofs.RunPlaces
import Backfill.Proofs.RunAccounting
import Backfill.Proofs.BatchStories
import Backfill.Proofs.RunReasons
import Backfill.Proofs.RunDeliveries
import Backfill.Proofs.LedgerMerged
import Backfill.Proofs.PlanPartition
import Backfill.Proofs.RunCounters
import Backfill.Proofs.RunResults
import Backfill.Proofs.RunSteady
import Backfill.Proofs.RunSchedules
import Backfill.Proofs.RunPartitions
import Backfill.Proofs.JsonNumbers
import Backfill.Proofs.JsonStrings
import Backfill.Proofs.JsonRoundTrip
import Backfill.Proofs.Utf8RoundTrip
import Backfill.Proofs.ResponseRoundTrip
import Backfill.Proofs.ResponseMatching
import Backfill.Proofs.WireLoop
import Backfill.Proofs.IntegerText
import Backfill.Proofs.LedgerCounts
import Backfill.Proofs.FileRoundTrip
import Backfill.Proofs.PoolRuns
import Backfill.Proofs.RunEndings
import Backfill.Proofs.RunCancellation
import Backfill.Proofs.RunCourses
import Backfill.Proofs.RunBreakdowns
import Backfill.Proofs.PoolProgress
import Backfill.Proofs.CycleProgress
import Backfill.Proofs.RunInFlight
import Backfill.Proofs.LedgerCanonical
import Backfill.Proofs.RunUnreachable
import Backfill.Proofs.PlanTails
import Backfill.Proofs.PlanGroups
import Backfill.Proofs.BatchTrials
import Backfill.Proofs.TelemetryTellings
import Backfill.Proofs.RunMetrics
import Backfill.Proofs.EngineAccounts
import Backfill.Proofs.JsonStringGrammar
import Backfill.Proofs.JsonTokens
import Backfill.Proofs.JsonGrammar
import Backfill.Proofs.JsonReading
import Backfill.Proofs.JsonSkimming
import Backfill.Proofs.JsonCanonical
import Backfill.Proofs.RepeatedSlots
import Backfill.Proofs.ResponseShapes
import Backfill.Proofs.RecordReading
import Backfill.Proofs.ResponseReading
import Backfill.Proofs.SingleResponses
import Backfill.Proofs.ReaderResults
import Backfill.Proofs.ResponseRewriting
import Backfill.Proofs.TrafficRounds
import Backfill.Proofs.ReportedAttempts
import Backfill.Proofs.RecordRoundTrip
import Backfill.Proofs.LedgerTotals
import Backfill.Proofs.CancelledSpans
import Backfill.Proofs.RepeatedRequests
import Backfill.Proofs.RunGauges
import Backfill.Proofs.SettingsReading
import Backfill.Proofs.OptionsResolution
import Backfill.Proofs.BlockFiltering
import Backfill.Proofs.DispatchTurns
import Backfill.Proofs.Utf8Decoding
import Backfill.Proofs.TextShapes
import Backfill.Proofs.FileGrammar
import Backfill.Proofs.CommandTargets
import Backfill.Proofs.CalendarDays
import Backfill.Proofs.CalendarTexts
import Backfill.Proofs.FileKeeping
import Backfill.Proofs.FileNames
import Backfill.Proofs.InvocationEndings
