import DRoole.Lib.Bytes
import DRoole.Lib.Layout
import DRoole.Lib.Keyed
import DRoole.Lib.Runs
import DRoole.Lib.Election
import DRoole.Lib.OrderStat
import DRoole.Lib.Records
import DRoole.Lib.Crc
import DRoole.Lib.Circuit
import DRoole.Lib.Buckets
import DRoole.Lib.Ring
import DRoole.Lib.Linked
import DRoole.Lib.Files
import DRoole.Raft.Node
import DRoole.Raft.Core
import DRoole.Raft.Api
import DRoole.Raft.Moves
import DRoole.Raft.Start
import DRoole.Raft.Persist
import DRoole.Raft.PersistFailure
import DRoole.Raft.Vote
import DRoole.Raft.Tally
import DRoole.Raft.Reply
import DRoole.Raft.Heartbeat
import DRoole.Raft.LogIndex
import DRoole.Raft.Applied
import DRoole.Raft.Matching
import DRoole.Raft.Progress
import DRoole.Raft.LeaderHint
import DRoole.Raft.Timing
import DRoole.Raft.Commit
import DRoole.Raft.Replication
import DRoole.Raft.Period
import DRoole.Cluster.Model
import DRoole.Cluster.Abstraction
import DRoole.Cluster.Simulation
import DRoole.Cluster.Election
import DRoole.Cluster.Apply
import DRoole.Cluster.Ack
import DRoole.Wal.Format
import DRoole.Wal.Checksum
import DRoole.Wal.Restore
import DRoole.Wal.Recovery
import DRoole.Wal.Corruption
import DRoole.Wal.Snapshot
import DRoole.Wal.Load
import DRoole.Wal.Crash
import DRoole.Wal.Compaction
import DRoole.Wal.Numbering
import DRoole.Wal.AboveSnapshot
import DRoole.Node.Public
import DRoole.Node.Majority
import DRoole.Node.Memory
import DRoole.Wire.Codecs
import DRoole.Members.Manager
import DRoole.Members.Import
import DRoole.Members.Payload
import DRoole.Members.Unique
import DRoole.Members.Join
import DRoole.Members.Detector
import DRoole.Members.Leave
import DRoole.Members.Fanout
import DRoole.Members.Partition
import DRoole.Store.Rules
import DRoole.Event.Loop
import DRoole.Event.Table
import DRoole.Event.Failure
import DRoole.Event.Heap
import DRoole.Event.Dispatch
import DRoole.Event.Teardown
import DRoole.Event.Timer
import DRoole.Logger.Ring
import DRoole.Logger.Delivery
import DRoole.Rpc.Session
import DRoole.Rpc.Stream
import DRoole.Rpc.Waiting
import DRoole.Rpc.Framing
import DRoole.Rpc.RaftRpc
import DRoole.Rpc.Incoming
import DRoole.Rpc.Server
import DRoole.Rpc.Exchange
import DRoole.Rpc.Lifetime
import DRoole.Rpc.Transport
