import PipeLang.Text.Utf8

namespace PipeLang

/-!
# Output

Lines go to a sink, which keeps the bytes in order. A sink may have a limited capacity,
and then a line that does not fit is cut and fails; and one of its flushes may fail.
-/

inductive OutputFailure where
  | write
  | flush
deriving DecidableEq, Repr

def OutputFailure.message : OutputFailure → String
  | .write => "Failed write output"
  | .flush => "Failed flush output"

structure Sink where
  written : Array UInt8
  /-- The number of bytes that the sink can hold, if it is limited. -/
  capacity? : Option Nat
  /-- How many flushes there have been. -/
  flushes : Nat
  /-- The number of the flush that fails, counted from zero, if one does. -/
  failingFlush? : Option Nat
deriving DecidableEq, Repr

namespace Sink

/-- A sink that never fails. -/
def unlimited : Sink := ⟨#[], none, 0, none⟩

def withLimits (capacity? failingFlush? : Option Nat) : Sink := ⟨#[], capacity?, 0, failingFlush?⟩

/-- The bytes of a line, with the line feed that ends it. -/
def lineBytes (line : String) : List UInt8 :=
  Text.encode line ++ [Text.lineFeed]

/-- How many more bytes fit, if that is limited. -/
def room? (sink : Sink) : Option Nat :=
  sink.capacity?.map (· - sink.written.size)

def fits (sink : Sink) (bytes : List UInt8) : Bool :=
  sink.room?.all (bytes.length ≤ ·)

/-- Stores as many of the bytes as fit. -/
def store (sink : Sink) (bytes : List UInt8) : Sink :=
  let stored : List UInt8 :=
    match sink.room? with
    | some room => bytes.take room
    | none => bytes
  { sink with written := sink.written ++ stored }

/-- Counts a flush, which fails if it is the one that has to. -/
def flush (sink : Sink) : Option OutputFailure × Sink :=
  let failure? := if sink.failingFlush? = some sink.flushes then some .flush else none
  (failure?, { sink with flushes := sink.flushes + 1 })

/-- Writes a line and flushes it. A line that does not fit is not flushed; a line whose
flush fails stays written. -/
def writeLine (sink : Sink) (line : String) : Option OutputFailure × Sink :=
  let bytes := lineBytes line
  if sink.fits bytes then (sink.store bytes).flush else (some .write, sink.store bytes)

/-- The bytes written since the sink was in an earlier state. -/
def since (sink earlier : Sink) : List UInt8 :=
  sink.written.toList.drop earlier.written.size

end Sink

end PipeLang
