import Frcmob.Api.BodyLimit
import Frcmob.Api.EdgeCache
import Frcmob.Api.Freshness
import Frcmob.Api.Isolation
import Frcmob.Api.NewestSaved
import Frcmob.Assignments.Fair
import Frcmob.AutoScout.Approved
import Frcmob.AutoScout.Drafts
import Frcmob.AutoScout.FormDraft
import Frcmob.AutoScout.Opponents
import Frcmob.Boards.Drawings
import Frcmob.Boards.Strokes
import Frcmob.Exports.Csv
import Frcmob.Lib.Register
import Frcmob.Lib.Successors
import Frcmob.Lib.Table
import Frcmob.Lib.Transition
import Frcmob.LiveResults.FirstResults
import Frcmob.LiveResults.NotWithdrawn
import Frcmob.LiveResults.SocketRuns
import Frcmob.LiveResults.Told
import Frcmob.Official.Conserved
import Frcmob.Official.FirstShift
import Frcmob.Official.TbaFresh
import Frcmob.Official.Twice
import Frcmob.Offline.Durability
import Frcmob.Offline.LastSave
import Frcmob.Offline.ManyTabs
import Frcmob.Offline.Order
import Frcmob.OnDevice.Consensus
import Frcmob.OnDevice.Diluted
import Frcmob.OnDevice.Exact
import Frcmob.OnDevice.SoundVote
import Frcmob.OnDevice.NoDrift
import Frcmob.OnDevice.OnePlace
import Frcmob.OnDevice.SessionChanges
import Frcmob.OnDevice.RobotPaths
import Frcmob.OnDevice.Sightings
import Frcmob.OnDevice.YoloDecode
import Frcmob.Picklists.Board
import Frcmob.Picklists.Declined
import Frcmob.Picklists.NoneLost
import Frcmob.Picklists.OnlyDraft
import Frcmob.Picklists.Selection
import Frcmob.Polling.OneAtATime
import Frcmob.Push.Alerts
import Frcmob.Push.AtMostOnce
import Frcmob.Push.Admission
import Frcmob.Ratings.CachedRun
import Frcmob.Ratings.Filter
import Frcmob.Ratings.Forecast
import Frcmob.Ratings.PickValue
import Frcmob.Ratings.Strength
import Frcmob.Phases.Stale
import Frcmob.Pits.Agree
import Frcmob.Regional.FullPass
import Frcmob.Reports.OneReport
import Frcmob.Reports.Page
import Frcmob.Reports.RoomQr
import Frcmob.Reports.Twice
import Frcmob.Reports.Undo
import Frcmob.Reports.Unsent
import Frcmob.Rooms.NeverBack
import Frcmob.Rooms.Newest
import Frcmob.Rooms.OwnRoom
import Frcmob.Rooms.Presence
import Frcmob.Schedule.Overlay
import Frcmob.Scheduler.Lock
import Frcmob.Search.TrueDistance
import Frcmob.Simulation.NeverHurts
import Frcmob.Simulation.SelectionBoard
import Frcmob.Simulation.Totals
import Frcmob.Toasts.Released
import Frcmob.Tracks.OneTeam
import Frcmob.Tracks.Reviewed
import Frcmob.Workspaces.CreationBudget
import Frcmob.Workspaces.RoomRuns
import Frcmob.Workspaces.SignIn
