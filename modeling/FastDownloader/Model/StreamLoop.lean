/-
This file repeats the stream loop of `single_thread_attempt` for a `usize` of any number of bits.
A result is absent where a sum of 64 bits would wrap. The calls on the file succeed.
-/

import FastDownloader.Model.Overflow

namespace FastDownloader

open Foundation

/-- The cast to `usize` drops the high bits. -/
def asUsize (bits value : Nat) : Nat := value % 2 ^ bits

/-- These are the local variables of the loop and the bytes of the file that it appends to. -/
structure StreamLoop where
  pos : Nat
  bytesSinceFlush : Nat
  file : List UInt8
  deriving DecidableEq, Repr

namespace StreamLoop

/-- The difference is cast before it is compared with the chunk. -/
def writeLen (bits : Nat) (total : Option Nat) (pos chunkLen : Nat) : Nat :=
  match total with
  | some total => min (asUsize bits (total - pos)) chunkLen
  | none => chunkLen

def write (flushIntervalBytes : Nat) (loop : StreamLoop) (bytes : List UInt8) : Option StreamLoop :=
  (checkedAdd wordLimit loop.pos bytes.length).bind fun pos =>
    (checkedAdd wordLimit loop.bytesSinceFlush bytes.length).map fun bytesSinceFlush =>
      ⟨pos, if bytesSinceFlush ≥ flushIntervalBytes then 0 else bytesSinceFlush, loop.file ++ bytes⟩

/-- The loop ends with the stream, or at the total when there is one. -/
def run (bits flushIntervalBytes : Nat) (total : Option Nat) : StreamLoop → List (List UInt8) → Option StreamLoop
  | loop, [] => some loop
  | loop, chunk :: chunks =>
      if chunk.isEmpty then run bits flushIntervalBytes total loop chunks
      else if total.any fun total => total ≤ loop.pos then some loop
      else
        (loop.write flushIntervalBytes (chunk.take (writeLen bits total loop.pos chunk.length))).bind fun loop =>
          run bits flushIntervalBytes total loop chunks

end StreamLoop

end FastDownloader
