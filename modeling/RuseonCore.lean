import RuseonCore.Buffer.Safety
import RuseonCore.Buffer.Isolation
import RuseonCore.Buffer.Preload
import RuseonCore.Storage.BatchTraffic
import RuseonCore.Storage.FileWrapper
import RuseonCore.Streaming.Metering
import RuseonCore.Streaming.Totals
import RuseonCore.Streaming.Reconciliation
import RuseonCore.Streaming.LazyHLS
import RuseonCore.Streaming.ActiveStreams
import RuseonCore.Streaming.Sessions
import RuseonCore.Rtsp.Unwrapping
import RuseonCore.Rtsp.Conversions
import RuseonCore.Rtsp.Dial
import RuseonCore.Hls.Discontinuity
import RuseonCore.Hls.Metadata
import RuseonCore.Hls.ParameterSets
import RuseonCore.Hls.Subtitles
import RuseonCore.Recorder.Finalization
import RuseonCore.Recorder.BaseTimes
import RuseonCore.Recorder.Capture
import RuseonCore.Recorder.Collisions
import RuseonCore.Recorder.Validation
import RuseonCore.Recorder.Timeline
import RuseonCore.Recorder.Cleanup
import RuseonCore.Webrtc.Pump
import RuseonCore.Webrtc.BatchRaces
import RuseonCore.Events.Delivery
import RuseonCore.Events.Breaker
import RuseonCore.Archive.LruRefinement
import RuseonCore.Archive.Export
import RuseonCore.Archive.ScanLoops
import RuseonCore.Auth.Tokens
import RuseonCore.Api.CameraRaces
import RuseonCore.Api.StreamAuth
import RuseonCore.Api.Archive
import RuseonCore.Api.UserRaces
import RuseonCore.Api.UserEdits
import RuseonCore.Api.Backup
import RuseonCore.Api.CameraIDs
import RuseonCore.Api.ClientTracker
import RuseonCore.Engine.StartUp
import RuseonCore.Web.RoundTrip
import RuseonCore.Web.Inference
import RuseonCore.Web.Smoothing
import RuseonCore.Web.ArchiveTimeline
import RuseonCore.Web.Reconnects
import RuseonCore.Web.Orchestrator
