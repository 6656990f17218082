import TinyGen.Fault

/-!
# Sinks

Where output is written to, piece by piece. A sink may have room for a limited number of bytes; a
piece that is too large is taken in part, and then the write fails.

Every output is a list of lines; `Text.unlines` is the text they make up.
-/

namespace TinyGen

/-- Lines as one text, each ended by a line break. -/
def Text.unlines (lines : List String) : String :=
  String.join (lines.map (· ++ "\n"))

/-- A sink: the bytes it still has room for, unless it takes any number; whether it refuses to be
flushed; the bytes it has taken; and how often a flush was asked for. -/
structure Sink where
  room : Option Nat
  refusesFlush : Bool
  received : ByteArray
  flushes : Nat

namespace Sink

/-- A sink that takes everything. -/
def unlimited : Sink := ⟨none, false, .empty, 0⟩

/-- Writes bytes. -/
def write (sink : Sink) (bytes : ByteArray) : Except AccessFault Unit × Sink :=
  match sink.room with
  | none => (.ok (), { sink with received := sink.received ++ bytes })
  | some n =>
    if bytes.size ≤ n then
      (.ok (), { sink with room := some (n - bytes.size), received := sink.received ++ bytes })
    else
      (.error .sinkFull,
        { sink with room := some 0, received := sink.received ++ bytes.extract 0 n })

/-- Writes lines one after another, up to the first failure. -/
def writeLines (sink : Sink) : List String → Except AccessFault Unit × Sink
  | [] => (.ok (), sink)
  | line :: rest =>
    match sink.write (line ++ "\n").toByteArray with
    | (.error fault, sink) => (.error fault, sink)
    | (.ok (), sink) => sink.writeLines rest

/-- Asks for everything written to be passed on. -/
def flush (sink : Sink) : Except AccessFault Unit × Sink :=
  let sink := { sink with flushes := sink.flushes + 1 }
  if sink.refusesFlush then (.error .flushRefused, sink) else (.ok (), sink)

end Sink

end TinyGen
