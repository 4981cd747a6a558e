import EcidsCore.DatabaseWriter
import EcidsCore.WriterDrain
import EcidsCore.PreprocessModule
import EcidsCore.PostprocessModule
import EcidsCore.ResponseChain
import EcidsCore.AiFiles
import EcidsCore.PendingRuns
import EcidsCore.FrameFreshness
import EcidsCore.ApiCore
import EcidsCore.RecordHistory
import EcidsCore.GuardedRuns
import EcidsCore.ExceptRules
import EcidsCore.FifoLedger
import EcidsCore.PathResolution
import EcidsCore.RecordManager
import EcidsCore.ConfigManager
import EcidsCore.ForwardHandler
import EcidsCore.HistoryScan
import EcidsCore.RequestSpecs
import EcidsCore.HandlerExceptions
import EcidsCore.StartFailure
import EcidsCore.PathContainment
import EcidsCore.ApiRuns
import EcidsCore.CompletionRuns
import EcidsCore.StopIdle
import EcidsCore.TaskView
import EcidsCore.HandlerSteps
import EcidsCore.HandlerInterleaving
import EcidsCore.SegmentedStream
import EcidsCore.WebSocketFrame
import EcidsCore.WssServer
import EcidsCore.MessageFrames
import EcidsCore.DataSubscriber
import EcidsCore.ClientServer
import EcidsCore.RequestBody
import EcidsCore.ConfigSetters
import EcidsCore.CoreParameters
import EcidsCore.PatternSearch
import EcidsCore.Timestamp
import EcidsCore.TransactionIds
import EcidsCore.PendingBound
import EcidsCore.ReportedMode
import EcidsCore.PairFolders
import EcidsCore.HistoryViews
import EcidsCore.RecordNames
import EcidsCore.DigitOrder
import EcidsCore.HistoryOrder
import EcidsCore.RecordPlaces
import EcidsCore.RecordDirectories
import EcidsCore.HouseKeeper
import EcidsCore.InspectionMemory
import EcidsCore.GapPipeline
import EcidsCore.PostprocessSettings
import EcidsCore.StereoPairs
import EcidsCore.InspectionQueue
import EcidsCore.ConnectionRelease
import EcidsCore.GapResult
import EcidsCore.BoundedMarch
import EcidsCore.PerpendicularWalk
import EcidsCore.DisparityCalculator
import EcidsCore.TemplateMatch
import EcidsCore.DisparityReads
import EcidsCore.GapMeasure
import EcidsCore.EmptyCleats
import EcidsCore.LeastSquares
import EcidsCore.LineFit
import EcidsCore.CleatSplit
import EcidsCore.RansacFit
import EcidsCore.RunningExtreme
import EcidsCore.CleatGeometry
import EcidsCore.CleatMirror
import EcidsCore.SameGap
import EcidsCore.AiTestFolder
import EcidsCore.DetectionDealer
import EcidsCore.TaskExtraction
import EcidsCore.TopicSubscriptions
import EcidsCore.JsonReader
import EcidsCore.StartAnswers
import EcidsCore.StringLiteral
import EcidsCore.Base64Codec
import EcidsCore.Base64Encode
import EcidsCore.DataPublisher
import EcidsCore.WssHandshake
import EcidsCore.HandshakeSpelling
import EcidsCore.YearRemoval
import EcidsCore.WorkingDistance
import EcidsCore.StampOrder
import EcidsCore.MissingPoints
import EcidsCore.SteppedLoop
import EcidsCore.ClientSession
import EcidsCore.ConnectionPool
import EcidsCore.PoolShutdown
import EcidsCore.ImageEncoder
import EcidsCore.LiveImage
import EcidsCore.InstallationStatus
import EcidsCore.BroadcastStreams
import EcidsCore.StoredImages
import EcidsCore.InspectionLoop
import EcidsCore.AiTestRun
import EcidsCore.GapResolution
import EcidsCore.TableLedger
import EcidsCore.RequestLedger
import EcidsCore.LateralMove
import EcidsCore.LateralRuns
import EcidsCore.LastWrite
import EcidsCore.SavedResults
import EcidsCore.ResultFiles
import EcidsCore.RecordView
