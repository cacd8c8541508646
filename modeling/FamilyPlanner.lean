import FamilyPlanner.Foundation.Run
import FamilyPlanner.Foundation.Requests
import FamilyPlanner.Foundation.Interleaving
import FamilyPlanner.Foundation.Tally
import FamilyPlanner.Foundation.Lineage
import FamilyPlanner.Foundation.Paths
import FamilyPlanner.Foundation.Service
import FamilyPlanner.Foundation.Bucket
import FamilyPlanner.Foundation.Zone
import FamilyPlanner.Foundation.Civil
import FamilyPlanner.Foundation.Sorting
import FamilyPlanner.Foundation.Shuffle
import FamilyPlanner.Foundation.Grouping
import FamilyPlanner.Foundation.Splitting
import FamilyPlanner.Foundation.Cyclic
import FamilyPlanner.Foundation.Flight
import FamilyPlanner.Foundation.Regex
import FamilyPlanner.Kiosk.Reload
import FamilyPlanner.Kiosk.Page
import FamilyPlanner.Kiosk.EndFallback
import FamilyPlanner.Kiosk.Corner
import FamilyPlanner.Kiosk.Slideshow
import FamilyPlanner.Rotation.State
import FamilyPlanner.Rotation.Manager
import FamilyPlanner.Rotation.Registry
import FamilyPlanner.Rotation.Cursor
import FamilyPlanner.Kiosk.PauseKey
import FamilyPlanner.Screen.Layout
import FamilyPlanner.Screen.Fragment
import FamilyPlanner.Screen.Tree
import FamilyPlanner.Screen.Leaves
import FamilyPlanner.Screen.Encoding
import FamilyPlanner.Screen.Editor
import FamilyPlanner.Screen.Saves
import FamilyPlanner.Screen.Overlap
import FamilyPlanner.Screen.EditorPaths
import FamilyPlanner.Screen.Malformed
import FamilyPlanner.Screen.Shown
import FamilyPlanner.Server.Stream
import FamilyPlanner.Server.Edits
import FamilyPlanner.Server.Playlists
import FamilyPlanner.Server.RefreshTick
import FamilyPlanner.Server.Callers
import FamilyPlanner.Server.Landing
import FamilyPlanner.Server.Tokens
import FamilyPlanner.Server.Reconnect
import FamilyPlanner.Server.OAuthSession
import FamilyPlanner.Server.Defaults
import FamilyPlanner.Server.Order
import FamilyPlanner.Server.Moves
import FamilyPlanner.Server.Dwell
import FamilyPlanner.Server.WidgetForm
import FamilyPlanner.Server.Cell
import FamilyPlanner.Server.PdfMedia
import FamilyPlanner.Server.PdfChoice
import FamilyPlanner.Server.PdfUpload
import FamilyPlanner.Server.RateLimit
import FamilyPlanner.Server.VideoMigration
import FamilyPlanner.Session.Session
import FamilyPlanner.Session.Pause
import FamilyPlanner.Session.Reports
import FamilyPlanner.Session.Replay
import FamilyPlanner.Widget.Source
import FamilyPlanner.Widget.Providers
import FamilyPlanner.Widget.Outage
import FamilyPlanner.Widget.Registry
import FamilyPlanner.Widget.Filter
import FamilyPlanner.Widget.Bring
import FamilyPlanner.Broker.Broker
import FamilyPlanner.Broker.World
import FamilyPlanner.Broker.LastGood
import FamilyPlanner.Broker.Outage
import FamilyPlanner.Broker.Rows
import FamilyPlanner.Broker.Overlap
import FamilyPlanner.Broker.Cadence
import FamilyPlanner.Health.Assess
import FamilyPlanner.Health.Stale
import FamilyPlanner.Health.Alarm
import FamilyPlanner.VoiceClock.Boundary
import FamilyPlanner.VoiceClock.Chime
import FamilyPlanner.Server.Chimes
import FamilyPlanner.Calendar.Event
import FamilyPlanner.Calendar.Grid
import FamilyPlanner.Calendar.Agenda
import FamilyPlanner.Calendar.Schedule
import FamilyPlanner.Calendar.Window
import FamilyPlanner.Calendar.AllDay
import FamilyPlanner.Calendar.Stamp
import FamilyPlanner.Widget.Graph
import FamilyPlanner.Widget.TodoList
import FamilyPlanner.Widget.Countdown
import FamilyPlanner.Server.BgRefresh
import FamilyPlanner.Server.Pairing
import FamilyPlanner.Server.Passphrase
import FamilyPlanner.Server.Secret
import FamilyPlanner.Server.Catalog
import FamilyPlanner.Server.Settings
import FamilyPlanner.Server.Bootstrap
import FamilyPlanner.Server.Access
import FamilyPlanner.Server.VoiceClockRun
import FamilyPlanner.Kiosk.PdfSlides
import FamilyPlanner.Kiosk.TimeSignal
import FamilyPlanner.Kiosk.Album
import FamilyPlanner.Kiosk.ClockFace
import FamilyPlanner.Kiosk.Redeploy
import FamilyPlanner.Kiosk.Remote
import FamilyPlanner.Widget.Video
import FamilyPlanner.Widget.Wikitext
import FamilyPlanner.Widget.OnThisDay
import FamilyPlanner.Kiosk.Videos
import FamilyPlanner.Kiosk.Players
