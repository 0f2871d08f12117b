import Macaque.Session.Transcript

/-!
# Delivering a transcript

A transcript is written to a sink. A sink without a limit takes all of it; a sink with a limit takes
that many bytes and then fails, wherever that falls, and nothing after that is looked at.

## Definitions

- `Delivery`: what has reached the sink, what has been noticed meanwhile, and how it ended
- `Transcript.whole`: delivery to a sink without a limit
- `Transcript.within`: delivery to a sink with a limit
-/

namespace Macaque.Session

/-- What has come of a session -/
structure Delivery where
  output : List UInt8
  notices : List Notice
  /-- What went wrong -/
  failure : Option Failure
deriving DecidableEq

def Chunk.bytes (chunk : Chunk) : List UInt8 :=
  encode chunk.text

/-- A delivery with a chunk written before it -/
def Delivery.after (chunk : Chunk) (delivery : Delivery) : Delivery :=
  { delivery with
    output := chunk.bytes ++ delivery.output,
    notices := chunk.notices ++ delivery.notices }

/-- Delivers chunks to a sink that takes everything; `failure` is how the session ends -/
def deliver (failure : Option Failure) (chunks : List Chunk) : Delivery :=
  chunks.foldr Delivery.after { output := [], notices := [], failure }

/-- Delivers chunks to a sink with room for `room` bytes; `failure` is how the session ends if it
gets that far -/
def deliverWithin (failure : Option Failure) : Nat → List Chunk → Delivery
  | _, [] => { output := [], notices := [], failure }
  | room, chunk :: later =>
    let bytes := chunk.bytes
    if bytes.length ≤ room then
      (deliverWithin failure (room - bytes.length) later).after chunk
    else
      -- the chunk was made before it was written, so its notices stand
      { output := bytes.take room, notices := chunk.notices, failure := some .sinkFull }

namespace Transcript

/-- Delivers a transcript to a sink that takes everything -/
def whole (transcript : Transcript) : Delivery :=
  deliver transcript.failure transcript.chunks

/-- Delivers a transcript to a sink that takes `limit` bytes -/
def within (limit : Nat) (transcript : Transcript) : Delivery :=
  deliverWithin transcript.failure limit transcript.chunks

end Transcript

end Macaque.Session
