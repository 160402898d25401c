import PptpProxy.Lib.CString
import PptpProxy.Lib.Checked
import PptpProxy.Lib.System
import PptpProxy.Lib.Ledger
import PptpProxy.Lib.Crc
import PptpProxy.Lib.Stuffing
import PptpProxy.Lib.Keystream
import PptpProxy.Lib.Blocks
import PptpProxy.Engine.Connection
import PptpProxy.Engine.Request
import PptpProxy.Engine.Lifecycle
import PptpProxy.Engine.Refine
import PptpProxy.Listener.Table
import PptpProxy.Listener.Control
import PptpProxy.Listener.Invariant
import PptpProxy.Listener.Apply
import PptpProxy.Listener.Grammar
import PptpProxy.Engine.Machine
import PptpProxy.Engine.Ownership
import PptpProxy.Engine.Path
import PptpProxy.Engine.Run
import PptpProxy.Engine.Safety
import PptpProxy.Engine.Streams
import PptpProxy.Engine.Ending
import PptpProxy.Engine.Drain
import PptpProxy.Engine.Counters
import PptpProxy.Http.Message
import PptpProxy.Http.Origin
import PptpProxy.Http.Segments
import PptpProxy.Http.WellFormed
import PptpProxy.Http.Accepted
import PptpProxy.Http.Scratch
import PptpProxy.Socks.Segments
import PptpProxy.Socks.Message
import PptpProxy.Socks.Access
import PptpProxy.App.Settings
import PptpProxy.App.Password
import PptpProxy.App.Routes
import PptpProxy.App.Privileged
import PptpProxy.App.Replies
import PptpProxy.App.Sessions
import PptpProxy.App.Isolation
import PptpProxy.App.Tunnel
import PptpProxy.Ppp.Frame
import PptpProxy.Ppp.Pppos
import PptpProxy.Ppp.Reception
import PptpProxy.Ppp.Receiver
import PptpProxy.Ppp.Wire
import PptpProxy.Ppp.Sha1
import PptpProxy.Ppp.Mppe
import PptpProxy.Ppp.Coherency
import PptpProxy.Ppp.Link
import PptpProxy.Ppp.Tunnel
import PptpProxy.Ppp.Ccp
import PptpProxy.Ppp.Negotiation
import PptpProxy.Ppp.Agreement
import PptpProxy.Ppp.Fsm
import PptpProxy.Ppp.Automaton
import PptpProxy.Ppp.Guards
import PptpProxy.Ppp.Protocol
