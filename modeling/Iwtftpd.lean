import Iwtftpd.Lib.Keyed
import Iwtftpd.Lib.Runs
import Iwtftpd.Lib.Blocks
import Iwtftpd.Lib.Outputs
import Iwtftpd.Lib.Descriptors
import Iwtftpd.Util
import Iwtftpd.Datastore
import Iwtftpd.DatastoreSteps
import Iwtftpd.DatastoreLaws
import Iwtftpd.Message
import Iwtftpd.Wire
import Iwtftpd.Session
import Iwtftpd.SessionSteps
import Iwtftpd.Saving
import Iwtftpd.Storing
import Iwtftpd.Loading
import Iwtftpd.Reading
import Iwtftpd.TftpProc
import Iwtftpd.ProcSteps
import Iwtftpd.Service
import Iwtftpd.ServiceLaws
import Iwtftpd.StaleReplies
import Iwtftpd.Moves
import Iwtftpd.Isolation
import Iwtftpd.Lifecycle
import Iwtftpd.Traces
import Iwtftpd.Directions
import Iwtftpd.Roles
import Iwtftpd.Errored
import Iwtftpd.Leaks
import Iwtftpd.Download
import Iwtftpd.Upload
import Iwtftpd.Timer
import Iwtftpd.Addresses
import Iwtftpd.Draining
import Iwtftpd.Retries
import Iwtftpd.Leftovers
import Iwtftpd.Undoing
import Iwtftpd.Encoding
import Iwtftpd.Answering
import Iwtftpd.Readable
import Iwtftpd.Waiting
import Iwtftpd.Failures
import Iwtftpd.Lasting
import Iwtftpd.Netascii
import Iwtftpd.Fetching
import Iwtftpd.Network
import Iwtftpd.Requests
import Iwtftpd.Payloads
import Iwtftpd.Acks
import Iwtftpd.Sending
import Iwtftpd.Doubling
import Iwtftpd.Abreast
import Iwtftpd.Repeats
import Iwtftpd.Refused
import Iwtftpd.Lib.DoublyLinked
import Iwtftpd.Lib.Owned
import Iwtftpd.SessionList
import Iwtftpd.Sweeping
import Iwtftpd.Linkage
import Iwtftpd.Streams
import Iwtftpd.StreamMap
import Iwtftpd.Lib.Buffers
import Iwtftpd.JoinPath
import Iwtftpd.Logging
import Iwtftpd.Outcomes
import Iwtftpd.Transfers
import Iwtftpd.Encoders
import Iwtftpd.Interfaces
import Iwtftpd.Sockets
import Iwtftpd.EventLoop
import Iwtftpd.EventLoopLaws
import Iwtftpd.Accounts
import Iwtftpd.Lifetime
import Iwtftpd.Traffic
import Iwtftpd.Teardown
import Iwtftpd.Snapshots
import Iwtftpd.Roundtrip
import Iwtftpd.Lib.FileTable
import Iwtftpd.Lib.Paths
import Iwtftpd.Daemonize
import Iwtftpd.Svconf
import Iwtftpd.Startup
import Iwtftpd.Confinement
import Iwtftpd.Daemon
import Iwtftpd.Reports
