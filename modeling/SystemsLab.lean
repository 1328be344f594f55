import SystemsLab.Reservation.Server
import SystemsLab.Reservation.Locks
import SystemsLab.Reservation.Deadlock
import SystemsLab.Reservation.Frame
import SystemsLab.Reservation.Facts
import SystemsLab.Reservation.Invariants
import SystemsLab.Reservation.Descriptors
import SystemsLab.Registry.Consistency
import SystemsLab.Reservation.Users
import SystemsLab.Reservation.Seats
import SystemsLab.Reservation.Histories
import SystemsLab.Reservation.Sessions
import SystemsLab.CLib.Strings
import SystemsLab.Reservation.Client
import SystemsLab.Reservation.Connections
import SystemsLab.Reservation.Agreement
import SystemsLab.Streams.Framing
import SystemsLab.Reservation.Wire
import SystemsLab.Effects.Ending
import SystemsLab.Shell.Job
import SystemsLab.Shell.Jobs
import SystemsLab.Tables.HighWater
import SystemsLab.Shell.Interpret
import SystemsLab.Shell.Completion
import SystemsLab.Shell.Memory
import SystemsLab.Shell.Table
import SystemsLab.Shell.Reaping
import SystemsLab.Shell.Commands
import SystemsLab.Shell.Numbering
import SystemsLab.Effects.TwoRuns
import SystemsLab.Search.Text
import SystemsLab.Search.Records
import SystemsLab.Search.Lexicon
import SystemsLab.Search.Index
import SystemsLab.Search.Query
import SystemsLab.Search.Scan
import SystemsLab.Search.Caches
import SystemsLab.Search.History
import SystemsLab.CommandLine.Lexer
import SystemsLab.CommandLine.Parser
import SystemsLab.CommandLine.Leftover
import SystemsLab.CommandLine.Separators
import SystemsLab.CommandLine.Lines
import SystemsLab.CommandLine.Evaluate
import SystemsLab.Search.LineReader
import SystemsLab.Search.OffsetTable
import SystemsLab.Effects.Moves
import SystemsLab.Shell.Infos
import SystemsLab.Shell.Wakeups
import SystemsLab.Tables.FdTable
import SystemsLab.Shell.Plumbing
import SystemsLab.Reservation.Bookkeeping
import SystemsLab.Reservation.Failures
import SystemsLab.Reservation.Passwords
import SystemsLab.Reservation.Scans
import SystemsLab.Reservation.Snapshots
import SystemsLab.Tables.Chains
import SystemsLab.Search.Vocabulary
import SystemsLab.Search.Tokens
import SystemsLab.Search.Postings
import SystemsLab.Search.Places
import SystemsLab.Search.SingleWord
import SystemsLab.Search.Phrases
import SystemsLab.Streams.Merging
import SystemsLab.Search.Readers
import SystemsLab.Search.Patterns
import SystemsLab.Search.LineSets
import SystemsLab.Search.Containment
import SystemsLab.Threads.Monitors
import SystemsLab.BoundedQueue.Queue
import SystemsLab.Signals.Processes
import SystemsLab.Signals.Delivery
import SystemsLab.Chat.Server
import SystemsLab.Chat.Users
import SystemsLab.Streams.Cutting
import SystemsLab.Chat.Delivery
import SystemsLab.Streams.Transfers
import SystemsLab.FileTransfer.Packets
import SystemsLab.FileTransfer.Processes
import SystemsLab.FileTransfer.Views
import SystemsLab.FileTransfer.InStep
import SystemsLab.FileTransfer.Copies
import SystemsLab.CommandLine.Cursor
import SystemsLab.CommandLine.Reader
import SystemsLab.CommandLine.Lexing
import SystemsLab.CommandLine.Bounds
import SystemsLab.CommandLine.Blanks
import SystemsLab.CommandLine.Printing
import SystemsLab.CommandLine.Scripts
import SystemsLab.CommandLine.Input
import SystemsLab.CommandLine.Accepted
import SystemsLab.CommandLine.Redirecting
import SystemsLab.Effects.Parts
import SystemsLab.Shell.World
import SystemsLab.Shell.Searches
import SystemsLab.Shell.Choosing
import SystemsLab.Shell.Lookups
import SystemsLab.Shell.Attribution
import SystemsLab.Executables.HeadTail
import SystemsLab.CLib.Numerals
import SystemsLab.Reservation.SeatNumbers
import SystemsLab.Search.Chunks
import SystemsLab.Search.OutBuf
import SystemsLab.Search.Exactness
import SystemsLab.Reservation.Buffers
import SystemsLab.Reservation.Accepting
import SystemsLab.Shell.Holder
import SystemsLab.Shell.PipeFailure
import SystemsLab.Shell.Selecting
import SystemsLab.Shell.Restoring
import SystemsLab.Executables.LineCounts
import SystemsLab.Search.BucketScan
import SystemsLab.Search.BufferedOutput
import SystemsLab.Search.QueryWords
import SystemsLab.CLib.Paths
import SystemsLab.Executables.Move
import SystemsLab.CLib.Getopt
import SystemsLab.Executables.Echo
import SystemsLab.MiniShell.ParseArgs
import SystemsLab.MessageQueue.Delivery
import SystemsLab.Search.Main
import SystemsLab.Search.Vectors
import SystemsLab.MiniShell.Meaning
import SystemsLab.Executables.Numbering
import SystemsLab.Executables.Cat
import SystemsLab.Matrices.Product
import SystemsLab.BoundedQueue.Program
import SystemsLab.Reservation.Clients
import SystemsLab.Reservation.Releases
import SystemsLab.Reservation.Ending
import SystemsLab.Effects.Proceeding
import SystemsLab.Shell.Children
import SystemsLab.Shell.Accounting
import SystemsLab.Shell.Leaving
import SystemsLab.CLib.Disk
import SystemsLab.Executables.Copy
import SystemsLab.Executables.Remove
