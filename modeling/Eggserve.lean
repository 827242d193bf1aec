import Eggserve.Static.Fs.Confinement
import Eggserve.Static.Fs.Stepwise
import Eggserve.Static.Fs.Listing
import Eggserve.Static.Service
import Eggserve.Static.PlanResponse
import Eggserve.Static.ExtraHeaders
import Eggserve.Static.HeadParity
import Eggserve.Static.Redirect
import Eggserve.Server.ShutdownReach
import Eggserve.Primitives.LifecycleWakeups
import Eggserve.Primitives.BodyAgreement
import Eggserve.Primitives.Canonical.Response
import Eggserve.Static.ResolvedFile
import Eggserve.Static.Path.Confined
import Eggserve.Static.Planner.Precedence
import Eggserve.Static.Planner.Exactness
import Eggserve.Primitives.Canonical.Renormalize
import Eggserve.Primitives.BodyDrop
import Eggserve.Primitives.CancelReason
import Eggserve.Server.TerminalWait
import Eggserve.Server.TunnelAccept
import Eggserve.Server.TunnelHandoff
import Eggserve.Primitives.Upgrade
import Eggserve.Primitives.InterimSender
import Eggserve.Primitives.BodyTrailers
import Eggserve.Server.TrailerBridge
import Eggserve.Server.BodyRoundTrip
import Eggserve.Server.WireTrailers
import Eggserve.Server.Activity
import Eggserve.Core.RequestHead
import Eggserve.H3.RequestHead
import Eggserve.Core.Admission
import Eggserve.H3.Admission
import Eggserve.H3.FileBody
import Eggserve.H3.ContentLength
import Eggserve.H3.RequestBodyStream
import Eggserve.Server.EarlyAnswer
import Eggserve.Server.ProxyPreamble
import Eggserve.Server.ProtocolSniff
import Eggserve.Primitives.ForwardedHop
import Eggserve.Primitives.ForwardedChecks
import Eggserve.Primitives.ForwardedQuote
import Eggserve.Server.FailureAccounting
import Eggserve.Server.FinalizeCanonical
import Eggserve.Server.HopByHop
import Eggserve.Server.ListFields
import Eggserve.Server.DateSafety
import Eggserve.Server.DeadlineAgreement
import Eggserve.Server.RejectionPresentation
import Eggserve.Primitives.ProxyRoundTrip
import Eggserve.Primitives.ForwardedAgreement
import Eggserve.Static.Fs.DirBufChain
import Eggserve.Static.ListingDocument
import Eggserve.Server.EventJson
import Eggserve.Server.TrailerHead
import Eggserve.Primitives.TargetPartition
import Eggserve.Static.Path.Segmentation
import Eggserve.Primitives.IpPrefix
import Eggserve.Server.CivilDate
import Eggserve.Rust.Padded
import Eggserve.Server.Timestamp
import Eggserve.Server.LogSinks
import Eggserve.Tls.Resolution
import Eggserve.Transition.Commuting
import Eggserve.Bin.ArgsLimits
import Eggserve.Server.ConnectionIdentity
