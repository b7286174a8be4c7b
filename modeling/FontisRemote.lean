import FontisRemote.PortForward.Guarantees
import FontisRemote.PortForward.Grammar
import FontisRemote.PortForward.Bounded
import FontisRemote.PortForward.Ownership
import FontisRemote.Login.Limits
import FontisRemote.Connection.Latch
import FontisRemote.Connection.Confinement
import FontisRemote.Connection.Agreement
import FontisRemote.Transport.Integrity
import FontisRemote.Transport.Codec
import FontisRemote.Transport.KeyAgreement
import FontisRemote.FileTransfer.Completeness
import FontisRemote.FileTransfer.Delegated
import FontisRemote.FileTransfer.Landing
import FontisRemote.Services.Snapshot
import FontisRemote.Services.Server
import FontisRemote.WebRtc.Handoff
import FontisRemote.WebRtc.Reassembly
import FontisRemote.Video.Pacing
import FontisRemote.Video.Negotiation
import FontisRemote.Video.Isolation
import FontisRemote.Video.Evidence
import FontisRemote.Login.Unauthorized
import FontisRemote.Drm.CacheRefresh
import FontisRemote.Audio.Accounts
import FontisRemote.Clipboard.ListIsolation
import FontisRemote.Drm.HotspotEvidence
import FontisRemote.Drm.Topology
import FontisRemote.PortForward.OwnLogin
import FontisRemote.Video.Confirmation
import FontisRemote.Video.Reduction
import FontisRemote.Video.Aggregation
import FontisRemote.Terminal.Retention
import FontisRemote.Terminal.Delivery
import FontisRemote.Terminal.Utf8Chunks
import FontisRemote.Transport.AddrMangle
import FontisRemote.WebRtc.Race
import FontisRemote.Login.Backoff
import FontisRemote.Clipboard.Mount
import FontisRemote.Connection.Wildcard
import FontisRemote.Video.Baseline
import FontisRemote.FileTransfer.RemoveLog
import FontisRemote.Config.StoredSecrets
import FontisRemote.Drm.Geometry
import FontisRemote.Drm.Framed
import FontisRemote.Services.CursorTold
import FontisRemote.Audio.Resampling
import FontisRemote.Clipboard.RangeReads
import FontisRemote.FileTransfer.Arrival
import FontisRemote.FileTransfer.Collisions
import FontisRemote.FileTransfer.RoundTrip
import FontisRemote.Clipboard.Contents
import FontisRemote.Clipboard.InitialSync
import FontisRemote.Clipboard.Sync
import FontisRemote.Drm.Layout
import FontisRemote.Drm.Promotion
import FontisRemote.Drm.SteadyLayout
import FontisRemote.Privacy.Holder
import FontisRemote.Clipboard.Handles
import FontisRemote.Clipboard.Origin
import FontisRemote.Clipboard.Paste
import FontisRemote.Portable.Blob
import FontisRemote.Portable.Install
import FontisRemote.Lib.Spaced
import FontisRemote.Transport.Secured
import FontisRemote.WebRtc.Answerers
import FontisRemote.WebRtc.Candidates
import FontisRemote.PortableService.Agree
