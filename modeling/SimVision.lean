import SimVision.Foundation.Machine
import SimVision.Foundation.BoundedFifo
import SimVision.Common.Types
import SimVision.Data.SPSCQueue
import SimVision.Data.SPSCInvariant
import SimVision.Data.SPSCRefinement
import SimVision.Data.DataPipeline
import SimVision.Data.PipelineConsumers
import SimVision.Common.Config
import SimVision.Common.Parameter
import SimVision.Data.ChannelManager
import SimVision.Data.DataPublisher
import SimVision.Data.ShutdownBroadcast
import SimVision.Api.CommandHandler
import SimVision.Api.CommandExceptions
import SimVision.App.Main
import SimVision.App.ParameterValidity
import SimVision.Api.AdminServer
import SimVision.Api.ReplyEncoding
import SimVision.Api.CommandInterleaving
import SimVision.Capture.CaptureEngine
import SimVision.Capture.Timestamps
import SimVision.Api.CommandEffects
import SimVision.Api.SessionAnswers
import SimVision.Data.FrameFlow
import SimVision.App.SerialService
import SimVision.Api.ServerThreads
import SimVision.Data.FlowAccounting
import SimVision.Api.RequestReading
import SimVision.App.FlushRace
import SimVision.App.ClientIsolation
import SimVision.Data.GroupSnapshot
import SimVision.Data.PipelineWakeups
import SimVision.Data.QueueDepth
import SimVision.Common.ConfigDocument
import SimVision.Capture.ImageSizes
import SimVision.Data.MessageDecoding
import SimVision.Foundation.JsonObject
import SimVision.App.CameraSetting
import SimVision.App.SettingEntries
import SimVision.DataSource.StereoLoading
import SimVision.Data.ImageMetadata
import SimVision.DataSource.StereoDirectory
import SimVision.DataSource.JpegScan
import SimVision.Api.CommandRouting
import SimVision.Api.TypeNames
import SimVision.App.IntegerSetting
import SimVision.Capture.TickContents
import SimVision.Api.ReadTermination
import SimVision.Foundation.Lines
import SimVision.Api.ContentLength
import SimVision.Api.RequestStreams
import SimVision.Data.ImageLayout
import SimVision.DataSource.TestImages
import SimVision.DataSource.ScanSafety
import SimVision.DataSource.FillBytes
import SimVision.Data.CounterWrap
import SimVision.Capture.RoundRobin
import SimVision.Common.SetValue
import SimVision.App.AnswerLog
import SimVision.App.Retries
import SimVision.Api.ReplyWriting
import SimVision.App.Restarts
import SimVision.Data.SubscriberStream
import SimVision.App.ParameterCommands
import SimVision.DataSource.GeneratedDirectory
import SimVision.App.Delivery
import SimVision.App.Pacing
import SimVision.Data.PayloadLifetime
