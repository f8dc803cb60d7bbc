import DevTools.Connection.Api
import DevTools.Desk
import DevTools.Endpoint
import DevTools.Message.Params
import DevTools.Proofs.Call.Fate
import DevTools.Proofs.Call.History
import DevTools.Proofs.Call.Reuse
import DevTools.Proofs.Connection.Act
import DevTools.Proofs.Connection.ActDeed
import DevTools.Proofs.Connection.CallerDeed
import DevTools.Proofs.Connection.Calls
import DevTools.Proofs.Connection.Correlation
import DevTools.Proofs.Connection.Deed
import DevTools.Proofs.Connection.Detachment
import DevTools.Proofs.Connection.Grant
import DevTools.Proofs.Connection.Issue
import DevTools.Proofs.Connection.MoveDeed
import DevTools.Proofs.Connection.Rejection
import DevTools.Proofs.Connection.Scope
import DevTools.Proofs.Connection.Sessions
import DevTools.Proofs.Connection.Shutdown
import DevTools.Proofs.Connection.Teardown
import DevTools.Proofs.Event.Delivery
import DevTools.Proofs.Event.Fanout
import DevTools.Proofs.Event.Inbox
import DevTools.Proofs.Event.Run
import DevTools.Proofs.Event.Stream
import DevTools.Proofs.Session.Attachment
import DevTools.Proofs.Session.Lifetime
import DevTools.Proofs.Text.Utf8
import DevTools.Proofs.Json.Numeral
import DevTools.Proofs.Json.Text
import DevTools.Proofs.Json.Grammar
import DevTools.Proofs.Json.Value
import DevTools.Proofs.Json.Record
import DevTools.Proofs.Message.RoundTrip
import DevTools.Proofs.Connection.Queue
import DevTools.Proofs.Transport.Outlet
import DevTools.Proofs.Connection.Writer
import DevTools.Proofs.Connection.Wire
import DevTools.Proofs.Connection.Course
import DevTools.Proofs.Connection.Deadline
import DevTools.Proofs.Session.Lifecycle
import DevTools.Proofs.Session.Waking
import DevTools.Proofs.Connection.Routing
import DevTools.Proofs.Connection.Stray
import DevTools.Proofs.Json.Double
import DevTools.Proofs.Transport.Framing
import DevTools.Proofs.Json.Spelling
import DevTools.Proofs.Connection.Request
import DevTools.Proofs.Message.Passage
import DevTools.Proofs.Connection.Sending
import DevTools.Proofs.Connection.Parting
import DevTools.Proofs.Connection.Notice
import DevTools.Proofs.Connection.Waits
import DevTools.Proofs.Connection.Failure
import DevTools.Proofs.Connection.Severing
import DevTools.Proofs.Message.Direct
import DevTools.Proofs.Message.Edits
import DevTools.Proofs.Connection.Shapes
import DevTools.Proofs.Message.Canonical
import DevTools.Proofs.Connection.Ignored
import DevTools.Proofs.Connection.Agreement
import DevTools.Proofs.Connection.FrameLimit
import DevTools.Proofs.Connection.Closing
import DevTools.Proofs.Session.Pace
import DevTools.Proofs.Connection.Retirement
