/-
This file holds the settings that the orchestration reads.
-/

import FastDownloader.Model.Http

namespace FastDownloader

/-- The field defaults are those of `Default for DownloaderConfig`. A duration counts nanoseconds. -/
structure DownloaderConfig where
  defaultThreads : Nat := 16
  maxThreads : Nat := 32
  minChunkSize : Nat := 2 ^ 20
  stateSaveInterval : Nat := 2 * 10 ^ 9
  flushIntervalBytes : Nat := 4 * 1024 * 1024
  verifyServerDigest : Bool := true
  durableResume : Bool := false
  maxRetries : Nat := 8

structure DownloadTask where
  id : Nat := 0
  url : String
  threadCount : Option Nat := none
  expectedChecksum : Option Checksum := none

/-- A call of `multi_thread` works on one probed resource with one thread count. -/
structure Job where
  info : FileInfo
  threadCount : Nat
  cfg : DownloaderConfig

/-- The source unwraps the size before it uses it. -/
def Job.fileSize (job : Job) : Nat := job.info.size.getD 0

end FastDownloader
