import Climon.Lib.Framing
import Climon.Lib.Transition
import Climon.Lib.Utf8
import Climon.Proto.FrameCodec
import Climon.Remote.Mux
import Climon.Remote.TrustBoundary
import Climon.Remote.MuxStream
import Climon.Remote.Snapshot
import Climon.Remote.Reconnects
import Climon.Remote.AttachLink
import Climon.Remote.ViewerInput
import Climon.Remote.ViewerReplay
import Climon.Remote.Hardening
import Climon.Remote.SpawnReplay
import Climon.Remote.SpawnResults
import Climon.Remote.Addressees
import Climon.Remote.MirrorAgreement
import Climon.Remote.Dismissal
import Climon.Remote.Attachments
import Climon.Remote.HonestNumbers
import Climon.Remote.ControlFormat
import Climon.Remote.SigningInput
import Climon.Remote.ReplayWindow
import Climon.Remote.BeaconOwners
import Climon.Remote.TunnelPort
import Climon.Remote.UplinkTargets
import Climon.Cli.DetachChord
import Climon.Cli.DisplayCommand
import Climon.Cli.SpawnRoundTrip
import Climon.Cli.SpawnReport
import Climon.Config.ThreeWayMerge
import Climon.Config.CommentStripping
import Climon.Config.KeptSettings
import Climon.Session.AttachRuns
import Climon.Session.HandoffRuns
import Climon.Session.LocalSurface
import Climon.Session.GridSizes
import Climon.Session.LocalRestore
import Climon.Session.PtyAgreement
import Climon.Session.AttentionAgreement
import Climon.Session.ExitRuns
import Climon.Session.TerminalRecord
import Climon.Session.KillRuns
import Climon.Session.OutcomeRuns
import Climon.Session.DetectorLaws
import Climon.Session.MouseModes
import Climon.Session.MouseRestore
import Climon.Session.TitleCapture
import Climon.Session.Snippet
import Climon.Session.InputAcknowledgement
import Climon.Session.JiggleService
import Climon.Update.Rollback
import Climon.Update.VersionOrder
import Climon.Store.PatchRuns
import Climon.Store.RemovalRuns
import Climon.Store.LockOutcomes
import Climon.Store.Timestamps
import Climon.Server.Authorisation
import Climon.Server.FormatAgreement
import Climon.Server.PatchFrame
import Climon.Server.AttentionPush
import Climon.Server.SubscriptionRuns
import Climon.Server.TunnelRuns
import Climon.Server.TunnelSetup
import Climon.Server.PromotionRuns
import Climon.Server.PushEndpoint
import Climon.Server.SocketBridge
import Climon.Web.ControlRuns
import Climon.Server.PreferenceWrites
import Climon.Store.AtomicWrite
import Climon.Cli.AttachClient
import Climon.Session.Descendants
import Climon.Remote.IngestLifecycle
import Climon.Server.TelemetryStream
import Climon.Remote.TargetBridges
import Climon.Web.AttentionAlerts
import Climon.Server.PushPresence
import Climon.Update.Notices
import Climon.Cli.LocalAttach
