import Socks5d.Monitor.Interleaving
import Socks5d.Monitor.Grammar
import Socks5d.Monitor.Requests
import Socks5d.Client.Decoding
import Socks5d.Selector.Iteration
import Socks5d.Selector.Map
import Socks5d.Users.Map
import Socks5d.References
import Socks5d.Aborts
import Socks5d.Authentication
import Socks5d.Attempts
import Socks5d.Origin
import Socks5d.Relay
import Socks5d.Method
import Socks5d.Statistics
import Socks5d.LoggedNames
import Socks5d.Disector.Bounds
import Socks5d.Disector.Dialogue
import Socks5d.Credentials
import Socks5d.Segments
import Socks5d.Stream
import Socks5d.Interests
import Socks5d.Greeting
import Socks5d.Login
import Socks5d.Refusals
import Socks5d.Connects
import Socks5d.Registration
import Socks5d.Buffer.Fifo
import Socks5d.Selector.Capacity
import Socks5d.Selector.Descriptors
import Socks5d.Selector.Macros
import Socks5d.Monitor.Admins
import Socks5d.Users.Listing
import Socks5d.Pools
import Socks5d.Client.Reports
import Socks5d.Resolutions
import Socks5d.Loop.Notifications
import Socks5d.Daemon
import Socks5d.Endings
import Socks5d.Descriptors
import Socks5d.Diagram
import Socks5d.Isolation
import Socks5d.Selector.Turns
import Socks5d.Client.Conversation
import Socks5d.Main
import Socks5d.Shutdown
