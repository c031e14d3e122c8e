import Protocoale.Lib.Run
import Protocoale.Lib.UMap
import Protocoale.Lib.Bytes
import Protocoale.Lib.Ones
import Protocoale.Lib.Bisect
import Protocoale.Lib.Cuts
import Protocoale.Lib.Mailbox
import Protocoale.Lib.CText
import Protocoale.Lib.Orbit
import Protocoale.Lib.Search
import Protocoale.Lib.Http
import Protocoale.Lib.Uri
import Protocoale.Lib.Duet
import Protocoale.Lib.Exchange
import Protocoale.Lib.Mail
import Protocoale.Lib.Rounding
import Protocoale.Lib.Heap
import Protocoale.Lib.Times
import Protocoale.Lib.Session
import Protocoale.Lib.Sockets
import Protocoale.Lib.Clients
import Protocoale.Tema1.Checksum
import Protocoale.Tema1.RTable
import Protocoale.Tema1.Uniform
import Protocoale.Tema1.Parser
import Protocoale.Tema1.Loading
import Protocoale.Tema1.Skel
import Protocoale.Tema1.Checksums
import Protocoale.Tema1.Router
import Protocoale.Tema1.Forward
import Protocoale.Tema1.Steps
import Protocoale.Tema1.ArpTable
import Protocoale.Tema1.Pending
import Protocoale.Tema1.Options
import Protocoale.Tema1.Echo
import Protocoale.Tema1.Reception
import Protocoale.Tema1.Interfaces
import Protocoale.Tema1.Storage
import Protocoale.Tema1.Exchange
import Protocoale.Tema1.Hops
import Protocoale.Tema1.Network
import Protocoale.Tema1.Outstanding
import Protocoale.Tema1.Queue
import Protocoale.Tema2.Common
import Protocoale.Tema2.Server
import Protocoale.Tema2.Handlers
import Protocoale.Tema2.Invariant
import Protocoale.Tema2.Loop
import Protocoale.Tema2.Delivery
import Protocoale.Tema2.ExactlyOnce
import Protocoale.Tema2.Store
import Protocoale.Tema2.Requests
import Protocoale.Tema2.Subscriber
import Protocoale.Tema2.Commands
import Protocoale.Tema2.Output
import Protocoale.Tema2.Framing
import Protocoale.Tema2.System
import Protocoale.Tema2.Typed
import Protocoale.Tema3.Receive
import Protocoale.Tema3.Requests
import Protocoale.Tema3.Client
import Protocoale.Tema3.Replies
import Protocoale.Tema3.Buffers
import Protocoale.Tema3.Decoding
import Protocoale.Tema3.Injection
import Protocoale.Tema3.ContentLength
import Protocoale.Practic.Server
import Protocoale.Practic.Invariant
import Protocoale.Practic.Listening
import Protocoale.Practic.Framing
import Protocoale.Practic.Client
import Protocoale.Practic.ListReply
import Protocoale.Practic.System
import Protocoale.Lab01.Tac
import Protocoale.Emulator.Link
import Protocoale.Emulator.Flow
import Protocoale.Emulator.Waiting
import Protocoale.Emulator.Pace
import Protocoale.Emulator.Queue
import Protocoale.Emulator.Net
import Protocoale.Lab02.Processes
import Protocoale.Lab02.Transfer
import Protocoale.Lab02.Copies
import Protocoale.Lab02.Sending
import Protocoale.Lab02.Emulated
import Protocoale.Lab03.Window
import Protocoale.Lab03.Corruption
import Protocoale.Lab03.Emulated
import Protocoale.Lab04.Routes
import Protocoale.Lab04.Forwarding
import Protocoale.Lab11.Mail
import Protocoale.Lab05.Icmp
import Protocoale.Lab05.Trace
import Protocoale.Lab11.ReadLine
