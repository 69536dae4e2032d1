import ChainIndex.Batch
import ChainIndex.Batch.Printer
import ChainIndex.Bus
import ChainIndex.Chain.Block
import ChainIndex.Chain.Row
import ChainIndex.Chain.Sample
import ChainIndex.Chain.Seal
import ChainIndex.Cli.Arguments
import ChainIndex.Cli.Session
import ChainIndex.Crawler.Basic
import ChainIndex.Crawler.Client
import ChainIndex.Crawler.Crews
import ChainIndex.Crawler.Turn
import ChainIndex.Curve
import ChainIndex.Decimal.Shortest
import ChainIndex.Evidence
import ChainIndex.Evidence.Reader
import ChainIndex.Fault
import ChainIndex.Fault.Printer
import ChainIndex.Fault.Reader
import ChainIndex.Files
import ChainIndex.Files.Path
import ChainIndex.Hash.Keccak
import ChainIndex.Hash.Sha256
import ChainIndex.Json.Basic
import ChainIndex.Json.Fields
import ChainIndex.Json.Literal
import ChainIndex.Json.Printer
import ChainIndex.Json.Reader
import ChainIndex.Json.Record
import ChainIndex.Main
import ChainIndex.Message
import ChainIndex.Message.Printer
import ChainIndex.Message.Reader
import ChainIndex.Node.Address
import ChainIndex.Node.Client
import ChainIndex.Node.Scenario
import ChainIndex.Node.Script
import ChainIndex.Node.Wire
import ChainIndex.Proofs.Batch.Classification
import ChainIndex.Proofs.Batch.Persist
import ChainIndex.Proofs.Batch.Replay
import ChainIndex.Proofs.Batch.Sift
import ChainIndex.Proofs.Batch.Transactions
import ChainIndex.Proofs.Index.Agreement
import ChainIndex.Proofs.Index.NoGap
import ChainIndex.Proofs.Index.Steps
import ChainIndex.Proofs.Index.Window
import ChainIndex.Proofs.Store.Lawful
import ChainIndex.Proofs.Store.View
import ChainIndex.Retry
import ChainIndex.Rlp
import ChainIndex.Run.Benchmark
import ChainIndex.Run.Download
import ChainIndex.Run.Index
import ChainIndex.Schedule
import ChainIndex.Settings
import ChainIndex.Settings.File
import ChainIndex.SlotCache
import ChainIndex.Store.Basic
import ChainIndex.Store.Location
import ChainIndex.Store.Memory
import ChainIndex.Store.Printer
import ChainIndex.Store.Signed
import ChainIndex.Store.Table
import ChainIndex.Text.Hex
import ChainIndex.Text.Percent
import ChainIndex.Text.Quoted
import ChainIndex.Window
import ChainIndex.Work.Agenda
import ChainIndex.Work.Barrier
import ChainIndex.Work.Bench
import ChainIndex.Work.Fanout
import ChainIndex.Work.Gate
import ChainIndex.Work.Headcount
import ChainIndex.Work.Pool
import ChainIndex.Work.RangeQueue
import ChainIndex.Workplace
import ChainIndex.Yaml.Node
import ChainIndex.Yaml.Reader
import ChainIndex.Proofs.Batch.Evidence
import ChainIndex.Proofs.Index.Overwrites
import ChainIndex.Proofs.Index.Reorgs
import ChainIndex.Proofs.Work.Keyed
import ChainIndex.Proofs.Work.SlotCache
import ChainIndex.Proofs.Work.Pool
import ChainIndex.Proofs.Work.RangeQueue
import ChainIndex.Proofs.Work.Fanout
import ChainIndex.Proofs.Work.Filling
import ChainIndex.Proofs.Work.Draining
import ChainIndex.Proofs.Work.Ranges
import ChainIndex.Proofs.Work.Balance
import ChainIndex.Proofs.Work.Progress
import ChainIndex.Proofs.Work.Turns
import ChainIndex.Proofs.Index.Ending
import ChainIndex.Proofs.Index.SharedHashes
import ChainIndex.Proofs.Work.QueueRuns
import ChainIndex.Proofs.Json.RoundTrip
import ChainIndex.Proofs.Store.Interchange
import ChainIndex.Proofs.Work.PoolRuns
import ChainIndex.Proofs.Work.Jobs
import ChainIndex.Proofs.Work.Scaling
import ChainIndex.Proofs.Bus.Dispatch
import ChainIndex.Proofs.Work.Handles
import ChainIndex.Proofs.Index.Admission
import ChainIndex.Proofs.Bus.Firing
import ChainIndex.Proofs.Download.OnDisk
import ChainIndex.Proofs.Work.Room
import ChainIndex.Proofs.Crawler.Staff
import ChainIndex.Proofs.Crawler.HeldUp
import ChainIndex.Proofs.Crawler.Indexing
import ChainIndex.Proofs.Text.Bytes
import ChainIndex.Proofs.Evidence.Digest
import ChainIndex.Proofs.Batch.Accounts
import ChainIndex.Proofs.Store.Growth
import ChainIndex.Proofs.Store.Watched
import ChainIndex.Proofs.Store.Following
import ChainIndex.Proofs.Index.Following
import ChainIndex.Proofs.Index.Report
import ChainIndex.Proofs.Store.Fallible
import ChainIndex.Proofs.Index.Unfinished
import ChainIndex.Proofs.Batch.Given
import ChainIndex.Proofs.Batch.Repeats
import ChainIndex.Proofs.Batch.Quiet
import ChainIndex.Proofs.Batch.Order
import ChainIndex.Proofs.Store.Steady
import ChainIndex.Proofs.Store.Raised
import ChainIndex.Proofs.Window.Walk
import ChainIndex.Proofs.Download.Steps
import ChainIndex.Proofs.Download.Accounts
import ChainIndex.Proofs.Window.Greatest
import ChainIndex.Proofs.Window.Alignment
import ChainIndex.Proofs.Store.Checkpoints
import ChainIndex.Proofs.Retry.Budget
import ChainIndex.Proofs.Retry.Fetch
import ChainIndex.Proofs.Rlp.Decoding
import ChainIndex.Proofs.Seal.Preimage
import ChainIndex.Proofs.Work.Waiting
import ChainIndex.Proofs.Text.Quantity
