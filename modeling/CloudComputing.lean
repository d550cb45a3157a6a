import CloudComputing.Lib.Bytes
import CloudComputing.Lib.Decimal
import CloudComputing.Lib.IndexedLog
import CloudComputing.Lib.Runs
import CloudComputing.Lib.PartialMap
import CloudComputing.Lib.Semaphore
import CloudComputing.Lib.Ring
import CloudComputing.Lib.ExactCover
import CloudComputing.Lib.RingBuffer
import CloudComputing.Lib.Path
import CloudComputing.Lib.Mutex
import CloudComputing.Lab1.Dance
import CloudComputing.Lab1.Matrix
import CloudComputing.Lab1.Covering
import CloudComputing.Lab1.Search
import CloudComputing.Lab1.Sheet
import CloudComputing.Lab1.Construction
import CloudComputing.Lab1.Board
import CloudComputing.Lab1.Puzzles
import CloudComputing.Lab1.Constructed
import CloudComputing.Lab1.Tally
import CloudComputing.Lab1.Restoring
import CloudComputing.Lab1.Jobs
import CloudComputing.Lab1.Reader
import CloudComputing.Lab1.Lost
import CloudComputing.Lab1.Answers
import CloudComputing.Lab1.Legal
import CloudComputing.Lib.Termination
import CloudComputing.Lab1.Program
import CloudComputing.Lab2.Queues
import CloudComputing.Lab2.Dealer
import CloudComputing.Lab2.Residue
import CloudComputing.Lab2.Pipelining
import CloudComputing.Lab2.Server
import CloudComputing.Lab2.Responses
import CloudComputing.Lab2.Accesses
import CloudComputing.Lab2.Independence
import CloudComputing.Lab2.Lengths
import CloudComputing.Lab2.Form
import CloudComputing.Lab2.Paths
import CloudComputing.Lab2.Descriptors
import CloudComputing.Lab3.Core
import CloudComputing.Lab3.Parser
import CloudComputing.Lab3.Logger
import CloudComputing.Lab3.Kv
import CloudComputing.Lab3.Participant
import CloudComputing.Lab3.Framing
import CloudComputing.Lab3.Messages
import CloudComputing.Lab3.Replica
import CloudComputing.Lab3.Exchange
import CloudComputing.Lab3.Coordinator
import CloudComputing.Lab3.Execution
import CloudComputing.Lab3.Delivery
import CloudComputing.Lab3.Replaying
import CloudComputing.Lab3.Recovery
import CloudComputing.Lab3.Convergence
import CloudComputing.Lab3.Update
import CloudComputing.Lab3.System
import CloudComputing.Lab3.Invariants
import CloudComputing.Lab3.Agreement
import CloudComputing.Lab3.Reads
import CloudComputing.Lab3.Failed
import CloudComputing.Lab3.RecvCommand
import CloudComputing.Lab3.Rejected
import CloudComputing.Lab3.Replies
import CloudComputing.Lab3.Conf
import CloudComputing.Lab3.Silent
import CloudComputing.Lab3.SequentialMap
import CloudComputing.Lab3.Sequential
import CloudComputing.Lab3.Discipline
import CloudComputing.Lab3.Threads
import CloudComputing.Lab3.Grammar
import CloudComputing.Lab3.Connections
import CloudComputing.Lab3.Tokens
import CloudComputing.Lab3.CoordinatorSteps
import CloudComputing.Lab3.WorkerSteps
import CloudComputing.Lab3.Results
import CloudComputing.Lab3.Leaders
import CloudComputing.Lab3.Locality
import CloudComputing.Lab3.Outages
import CloudComputing.Lab3.Flights
import CloudComputing.Lab3.Promotions
import CloudComputing.Lab3.Shadow
import CloudComputing.Lab3.ShadowProgram
import CloudComputing.Lab3.ShadowWorkers
import CloudComputing.Lab3.ShadowCalls
import CloudComputing.Lab3.Effects
import CloudComputing.Lab3.Balance
import CloudComputing.Lab3.Addresses
import CloudComputing.Lab3.Process
import CloudComputing.Lab3.ProcessInvariants
import CloudComputing.Lab3.ProcessSteps
import CloudComputing.Lab3.Forgotten
import CloudComputing.Lab3.Deadlock
import CloudComputing.Lab3.Histories
import CloudComputing.Lab3.Calls
import CloudComputing.Lab3.Likeness
import CloudComputing.Lab3.CatchingUp
import CloudComputing.Lab3.Mirrors
import CloudComputing.Lab3.Endings
import CloudComputing.Lab3.Joiners
import CloudComputing.Lab3.Tracking
import CloudComputing.Lab3.Refinement
import CloudComputing.Lib.BufferProgress
import CloudComputing.Lab2.Progress
import CloudComputing.Lib.Http
import CloudComputing.Lab2.Streams
import CloudComputing.Lab3.OssSocket
import CloudComputing.Lab3.Endpoints
import CloudComputing.Lab3.Client
import CloudComputing.Lab3.Conversation
