import FastDownloader.Foundation.Transition
import FastDownloader.Foundation.Session
import FastDownloader.Foundation.Simulation
import FastDownloader.Foundation.Slots
import FastDownloader.Foundation.CellFile
import FastDownloader.Foundation.Checked
import FastDownloader.Foundation.Sampling
import FastDownloader.Foundation.Directory
import FastDownloader.Foundation.Entries
import FastDownloader.Foundation.Tiling
import FastDownloader.Foundation.Utf8
import FastDownloader.Foundation.Decoding
import FastDownloader.Foundation.Cutting
import FastDownloader.Foundation.Base64
import FastDownloader.Foundation.Strongest
import FastDownloader.Foundation.Stripping
import FastDownloader.Foundation.Doubling
import FastDownloader.Model.MultiThread
import FastDownloader.Model.Overflow
import FastDownloader.Model.StateFile
import FastDownloader.Model.Hex
import FastDownloader.Proof.Disk.Cells
import FastDownloader.Proof.Disk.Pending
import FastDownloader.Proof.State.Ranges
import FastDownloader.Proof.State.Cover
import FastDownloader.Proof.State.Split
import FastDownloader.Proof.State.Save
import FastDownloader.Proof.Worker.Invariant
import FastDownloader.Proof.Worker.Move
import FastDownloader.Proof.Worker.Step
import FastDownloader.Proof.Worker.Landed
import FastDownloader.Proof.Worker.Requests
import FastDownloader.Proof.Worker.Cancel
import FastDownloader.Proof.MultiThread.Cancel
import FastDownloader.Proof.SingleThread.Cancel
import FastDownloader.Proof.MultiThread.Snapshot
import FastDownloader.Proof.MultiThread.Control
import FastDownloader.Proof.MultiThread.Preservation
import FastDownloader.Proof.MultiThread.Through
import FastDownloader.Proof.MultiThread.Landing
import FastDownloader.Proof.MultiThread.Assembly
import FastDownloader.Proof.MultiThread.Restart
import FastDownloader.Proof.MultiThread.History
import FastDownloader.Proof.MultiThread.Version
import FastDownloader.Proof.MultiThread.Progress
import FastDownloader.Proof.MultiThread.Splice
import FastDownloader.Proof.MultiThread.Liveness
import FastDownloader.Proof.MultiThread.Preallocation
import FastDownloader.Proof.MultiThread.Foreign
import FastDownloader.Proof.MultiThread.Background
import FastDownloader.Proof.MultiThread.WriteFailure
import FastDownloader.Proof.MultiThread.Durable
import FastDownloader.Proof.MultiThread.Collect
import FastDownloader.Model.SingleThread
import FastDownloader.Model.Download
import FastDownloader.Proof.Disk.Contents
import FastDownloader.Proof.SingleThread.Stream
import FastDownloader.Proof.SingleThread.Step
import FastDownloader.Proof.SingleThread.Landing
import FastDownloader.Proof.SingleThread.Attempt
import FastDownloader.Proof.SingleThread.Transfer
import FastDownloader.Proof.SingleThread.Releases
import FastDownloader.Proof.Download.Step
import FastDownloader.Proof.Download.Landing
import FastDownloader.Proof.Download.Modes
import FastDownloader.Proof.Download.Placement
import FastDownloader.Model.Panic
import FastDownloader.Model.TestServer
import FastDownloader.Proof.Download.Panics
import FastDownloader.Proof.Download.Faultless
import FastDownloader.Proof.Download.Recovery
import FastDownloader.Model.Probe
import FastDownloader.Proof.Download.Honest
import FastDownloader.Proof.Download.Fallback
import FastDownloader.Model.Queue
import FastDownloader.Model.Report
import FastDownloader.Proof.Queue.Step
import FastDownloader.Proof.Queue.Invariant
import FastDownloader.Proof.Queue.Lifecycle
import FastDownloader.Proof.Download.Cancel
import FastDownloader.Proof.Queue.Sessions
import FastDownloader.Proof.Queue.Cancel
import FastDownloader.Proof.Queue.Shutdown
import FastDownloader.Proof.Queue.Slots
import FastDownloader.Proof.Queue.Fresh
import FastDownloader.Proof.Queue.Refusal
import FastDownloader.Proof.Queue.Backlog
import FastDownloader.Model.Filename
import FastDownloader.Proof.Filename.Sanitize
import FastDownloader.Proof.Filename.Scan
import FastDownloader.Proof.Filename.Params
import FastDownloader.Proof.Filename.Percent
import FastDownloader.Proof.Filename.Quoting
import FastDownloader.Proof.Filename.Extended
import FastDownloader.Proof.Filename.Derive
import FastDownloader.Proof.Download.Verification
import FastDownloader.Model.StreamLoop
import FastDownloader.Proof.SingleThread.Loop
import FastDownloader.Proof.Download.Threads
import FastDownloader.Model.Wrapping
import FastDownloader.Proof.MultiThread.Wrapping
import FastDownloader.Proof.Queue.Ticker
import FastDownloader.Model.Digest
import FastDownloader.Proof.Digest.Entries
import FastDownloader.Proof.Digest.Strongest
import FastDownloader.Model.Backoff
import FastDownloader.Proof.Worker.Backoff
import FastDownloader.Proof.Digest.Hex
import FastDownloader.Model.Hashing
import FastDownloader.Proof.Digest.Hashing
import FastDownloader.Proof.Worker.Retry
import FastDownloader.Proof.SingleThread.Retry
import FastDownloader.Proof.TestServer.Exchange
import FastDownloader.Proof.MultiThread.Retry
import FastDownloader.Proof.TestServer.Recover
import FastDownloader.Proof.Download.Retry
import FastDownloader.Proof.Queue.Answered
import FastDownloader.Proof.MultiThread.Checkpoint
import FastDownloader.Foundation.Window
import FastDownloader.Model.Progress
import FastDownloader.Proof.Progress.Speed
