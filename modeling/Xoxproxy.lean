import Xoxproxy.Analytics.Agreement
import Xoxproxy.Analytics.CatchingUp
import Xoxproxy.Analytics.Conservation
import Xoxproxy.Analytics.DatedRuns
import Xoxproxy.Analytics.DestinationCap
import Xoxproxy.Analytics.DestinationReports
import Xoxproxy.Analytics.ExactResets
import Xoxproxy.Analytics.LiveView
import Xoxproxy.Analytics.MemoryCap
import Xoxproxy.Analytics.RecentConnections
import Xoxproxy.Analytics.Rotation
import Xoxproxy.Analytics.Tailing
import Xoxproxy.Api.AnalyticsWindow
import Xoxproxy.Api.AuditPages
import Xoxproxy.Api.Authorization
import Xoxproxy.Api.ClientAddress
import Xoxproxy.Api.Cookies
import Xoxproxy.Api.ErrorBoundary
import Xoxproxy.Api.TrackedAddresses
import Xoxproxy.Auth.Lockout
import Xoxproxy.Auth.PasswordHashes
import Xoxproxy.Auth.Revocation
import Xoxproxy.Auth.Throttle
import Xoxproxy.Command.Shutdown
import Xoxproxy.Deploy.Attribution
import Xoxproxy.Deploy.Convergence
import Xoxproxy.Deploy.Reordering
import Xoxproxy.Deploy.StaleDeploy
import Xoxproxy.Deploy.Status
import Xoxproxy.Deploy.Wakeups
import Xoxproxy.Engine.ConfigLines
import Xoxproxy.Engine.CryptDecoding
import Xoxproxy.Engine.LogInjection
import Xoxproxy.Engine.LogRoundTrip
import Xoxproxy.Engine.LogTimes
import Xoxproxy.Library.TextLines
import Xoxproxy.Store.Chronology
import Xoxproxy.Store.Migrations
import Xoxproxy.Users.ActiveCredentials
import Xoxproxy.Users.Admission
import Xoxproxy.Users.AllOrNothing
import Xoxproxy.Users.DesiredState
import Xoxproxy.Web.CredentialUrls
import Xoxproxy.Web.UserActions
