import ClusterConsole.Form.Editing
import ClusterConsole.Main
import ClusterConsole.Server.Script
import ClusterConsole.Session.Basic
import ClusterConsole.Proofs.Text.Utf8
import ClusterConsole.Proofs.Url.Join
import ClusterConsole.Proofs.Console.Agenda
import ClusterConsole.Proofs.Console.Operations
import ClusterConsole.Proofs.Console.Tidy
import ClusterConsole.Proofs.Console.World
import ClusterConsole.Proofs.Console.Work
import ClusterConsole.Proofs.Console.Undertaking
import ClusterConsole.Proofs.Console.Accounts
import ClusterConsole.Proofs.Console.Submissions
import ClusterConsole.Proofs.Console.Redirect
import ClusterConsole.Proofs.Console.WayHome
import ClusterConsole.Proofs.Console.Homecoming
import ClusterConsole.Proofs.Console.Location
import ClusterConsole.Proofs.Console.Denial
import ClusterConsole.Proofs.Session.World
import ClusterConsole.Proofs.Json.Tree
import ClusterConsole.Proofs.Json.Token
import ClusterConsole.Proofs.Json.Numeral
import ClusterConsole.Proofs.Json.Reading
import ClusterConsole.Proofs.Json.Skipping
import ClusterConsole.Proofs.Json.Record
import ClusterConsole.Proofs.Entitlement.Answer
import ClusterConsole.Proofs.Entitlement.Check
import ClusterConsole.Proofs.Console.Owner
import ClusterConsole.Proofs.Console.Timer
import ClusterConsole.Proofs.Console.Fragment
import ClusterConsole.Proofs.Console.Reloading
import ClusterConsole.Proofs.Http.Cookies
import ClusterConsole.Proofs.Cli.Beside
import ClusterConsole.Proofs.Page.Load
import ClusterConsole.Proofs.Cli.Sent
import ClusterConsole.Proofs.Json.Printing
import ClusterConsole.Proofs.Http.Requests
import ClusterConsole.Proofs.Console.Calls
import ClusterConsole.Proofs.Page.Growth
import ClusterConsole.Proofs.Cli.Chronicle
import ClusterConsole.Proofs.Cli.Watching
import ClusterConsole.Proofs.Cli.Views
import ClusterConsole.Proofs.Cli.Course
import ClusterConsole.Proofs.Cli.Program
import ClusterConsole.Proofs.Cli.Statuses
import ClusterConsole.Proofs.Cli.Requests
import ClusterConsole.Proofs.Json.Accepting
import ClusterConsole.Proofs.Json.Members
import ClusterConsole.Proofs.Json.Canonical
import ClusterConsole.Proofs.Json.Held
import ClusterConsole.Proofs.Json.RoundTrip
import ClusterConsole.Proofs.Command.Request
import ClusterConsole.Proofs.Entitlement.RoundTrip
import ClusterConsole.Proofs.Page.Replay
import ClusterConsole.Proofs.Console.Places
import ClusterConsole.Proofs.Cli.Desk
import ClusterConsole.Proofs.Form.Document
import ClusterConsole.Proofs.Form.Editing
import ClusterConsole.Proofs.Settings.Sources
import ClusterConsole.Proofs.Cli.Configured
import ClusterConsole.Proofs.Cli.Departing
import ClusterConsole.Proofs.Console.Duty
import ClusterConsole.Proofs.Console.Twins
import ClusterConsole.Proofs.Console.Abreast
import ClusterConsole.Proofs.Session.Twins
import ClusterConsole.Proofs.Cli.Steps
import ClusterConsole.Proofs.Cli.Homing
import ClusterConsole.Proofs.Cli.Timeline
import ClusterConsole.Proofs.Cli.Control
import ClusterConsole.Proofs.Cli.Arrival
import ClusterConsole.Proofs.Console.Footprint
import ClusterConsole.Proofs.Console.Harmless
import ClusterConsole.Proofs.Session.Harmless
import ClusterConsole.Proofs.Http.CookieText
import ClusterConsole.Proofs.Form.Guarding
import ClusterConsole.Proofs.Http.Targets
import ClusterConsole.Proofs.Cli.Phases
import ClusterConsole.Proofs.Cli.Rounds
import ClusterConsole.Proofs.Form.Validity
import ClusterConsole.Proofs.Form.Repair
import ClusterConsole.Proofs.Cli.Waits
import ClusterConsole.Proofs.Text.Percent
import ClusterConsole.Proofs.Url.Path
import ClusterConsole.Proofs.Url.Groups
import ClusterConsole.Proofs.Url.Host
import ClusterConsole.Proofs.Url.Authority
import ClusterConsole.Proofs.Url.Printing
import ClusterConsole.Proofs.Http.Viewing
import ClusterConsole.Proofs.Cli.Rendering
