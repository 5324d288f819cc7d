import IpUtils.Bits
import IpUtils.Base64.Basic
import IpUtils.Base64.RoundTrip
import IpUtils.Scan.Basic
import IpUtils.Scan.Locality
import IpUtils.Scan.Streaming
import IpUtils.Scan.Grammar
import IpUtils.Calls.Basic
import IpUtils.Counting.Basic
import IpUtils.Counting.Owners
import IpUtils.CLib.Strings
import IpUtils.CLib.Numerals
import IpUtils.CLib.Memory
import IpUtils.ErrorHandler
import IpUtils.Process
import IpUtils.File
import IpUtils.File.Path
import IpUtils.Counting.Objects
import IpUtils.Counting.Files
import IpUtils.Counting.OpenFiles
import IpUtils.Counting.Comms
import IpUtils.Counting.SSLConns
import IpUtils.Blocking
import IpUtils.Parse
import IpUtils.IPComm.OnesComplement
import IpUtils.IPComm.Checksum
import IpUtils.URL.Basic
import IpUtils.URL.Parse
import IpUtils.URL.Query
import IpUtils.URL.RoundTrip
import IpUtils.URL.Cut
import IpUtils.URL.Taint
import IpUtils.URL.Init
import IpUtils.URL.WholeText
import IpUtils.URL.SetPath
import IpUtils.URL.Compare
import IpUtils.HTTP.Basic
import IpUtils.HTTP.Chunked
import IpUtils.HTTP.Parse
import IpUtils.HTTP.Pending
import IpUtils.HTTP.Locality
import IpUtils.HTTP.Boundary
import IpUtils.HTTP.Print
import IpUtils.HTTP.Feeding
import IpUtils.HTTP.RoundTrip
import IpUtils.HTTP.Cut
import IpUtils.HTTP.ChunkScan
import IpUtils.HTTP.Window
import IpUtils.HTTP.AbsPath
import IpUtils.HTTP.Bound
import IpUtils.HTTP.ChunkRoundTrip
import IpUtils.HTTP.BodyStores
import IpUtils.HTTP.Handover
import IpUtils.HTTP.FieldNames
import IpUtils.HTTP.HeaderLine
import IpUtils.HTTP.Decides
import IpUtils.HTTP.Outcome
import IpUtils.HTTP.Numbers
import IpUtils.HTTP.HeaderGrammar
import IpUtils.HTTP.FailedParse
import IpUtils.MsgHdr
import IpUtils.Session.Conn
import IpUtils.Session.Handshake
import IpUtils.IPComm.Basic
import IpUtils.IPComm.Sendto
import IpUtils.IPComm.Init
import IpUtils.File.Copy
import IpUtils.Session.EndOfStream
import IpUtils.Session.Basic
import IpUtils.Session.Incoming
import IpUtils.Session.Outgoing
import IpUtils.Session.Machine
import IpUtils.Session.Queue
import IpUtils.Session.Representation
import IpUtils.Session.Delivery
import IpUtils.Session.FileDelivery
import IpUtils.Session.BasicFraming
import IpUtils.Session.Locks
import IpUtils.Session.PartialHeader
import IpUtils.Session.ForeignErrors
import IpUtils.Session.Interleaving
import IpUtils.Session.BodyLength
import IpUtils.Session.Accounting
import IpUtils.Session.FramingType
import IpUtils.Session.ReadBuffer
import IpUtils.TCPConn.ReadLine
import IpUtils.Logger
import IpUtils.Session.Receiving
import IpUtils.Session.Letters
import IpUtils.Session.Link
import IpUtils.Session.Archive
import IpUtils.Session.Descriptors
import IpUtils.Session.Duplex
import IpUtils.Session.Completeness
import IpUtils.Session.SecondParse
import IpUtils.Session.ToDisc
import IpUtils.Session.Transfer
import IpUtils.Session.Progress
