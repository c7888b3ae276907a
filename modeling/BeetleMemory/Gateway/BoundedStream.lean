import BeetleMemory.Store.Basic
import BeetleMemory.Lib.Segments

/-! Reading a response stream of the model server under a budget, and the meter that the gateway
applies to what it sends on. The stream comes as a list of reads; the buffer of the reader is the
first of them. Sums that would leave the machine's numbers exceed every limit.
-/

namespace BeetleMemory.Gateway

open Segments (splitInclusive)
open Store (Bytes textBytes)

/-! ## Limits and errors -/

structure LlmGatewayBudget where
  streamChunkMaxBytes : Nat
  streamEventMaxBytes : Nat
  streamMaxEvents : Nat
  responseBodyMaxBytes : Nat
deriving DecidableEq, Repr

inductive GatewayError where
  | upstreamUnavailable (message : String)
deriving DecidableEq, Repr

def responseBudgetError (kind : String) : GatewayError :=
  .upstreamUnavailable (kind ++ " exceeds pinned LLM gateway response budget")

inductive StreamProtocol where
  | sse
  | ndjson
deriving DecidableEq, Repr

def isNewline (byte : UInt8) : Bool :=
  byte == 10

/-! ## The meter -/

structure StreamBudgetTracker where
  responseBytes : Nat := 0
  events : Nat := 0
deriving DecidableEq, Repr

def StreamBudgetTracker.observeChunk (limits : LlmGatewayBudget) (protocol : StreamProtocol)
    (self : StreamBudgetTracker) (chunk : String)
    : Except GatewayError StreamBudgetTracker :=
  let bytes := textBytes chunk
  if limits.streamEventMaxBytes < bytes.length then .error (responseBudgetError "stream event")
  else if (splitInclusive isNewline bytes).any (limits.streamChunkMaxBytes < ·.length) then
    .error (responseBudgetError (match protocol with
      | .sse => "SSE line"
      | .ndjson => "NDJSON line"))
  else if limits.responseBodyMaxBytes < self.responseBytes + bytes.length then
    .error (responseBudgetError "cumulative response body")
  else if limits.streamMaxEvents < self.events + 1 then
    .error (responseBudgetError "cumulative stream events")
  else .ok ⟨self.responseBytes + bytes.length, self.events + 1⟩

/-! ## The reader -/

/-- What the reader has before it, the rest of its buffer first, and its totals. -/
structure BoundedStreamReader where
  reads : List Bytes
  responseBytes : Nat := 0
  events : Nat := 0
deriving DecidableEq, Repr

/-- What is left of a buffer and the reads behind it. -/
def unread (left : Bytes) (rest : List Bytes) : List Bytes :=
  if left.isEmpty then rest else left :: rest

/-- The loop of reading a line, with what was read of it. -/
def readLineLoop (limits : LlmGatewayBudget) (limit events : Nat)
    : Bytes → Nat → List Bytes → Except GatewayError (Option Bytes) × BoundedStreamReader
  | line, responseBytes, [] =>
      (.ok (if line.isEmpty then none else some line), ⟨[], responseBytes, events⟩)
  | line, responseBytes, available :: rest =>
      if available.isEmpty then
        (.ok (if line.isEmpty then none else some line),
          ⟨available :: rest, responseBytes, events⟩)
      else
        let take := (available.findIdx? isNewline).elim available.length (· + 1)
        if limit < line.length + take then
          (.error (responseBudgetError "stream line"), ⟨available :: rest, responseBytes, events⟩)
        else if limits.responseBodyMaxBytes < responseBytes + take then
          (.error (responseBudgetError "cumulative response body"),
            ⟨available :: rest, responseBytes, events⟩)
        else if (available.take take).getLast?.any isNewline then
          (.ok (some (line ++ available.take take)),
            ⟨unread (available.drop take) rest, responseBytes + take, events⟩)
        else
          readLineLoop limits limit events (line ++ available.take take) (responseBytes + take) rest

def BoundedStreamReader.readBoundedLine (limits : LlmGatewayBudget) (self : BoundedStreamReader)
    (limit : Nat)
    : Except GatewayError (Option Bytes) × BoundedStreamReader :=
  readLineLoop limits limit self.events [] self.responseBytes self.reads

/-- What is said about bytes that are not UTF-8. -/
structure Utf8Failure where
  message : Bytes → String

variable (utf8 : Utf8Failure)

def decodeStreamItem (bytes : Bytes) : Except GatewayError (Option String) :=
  match String.fromUTF8? bytes.toByteArray with
  | some text => .ok (some text)
  | none => .error (.upstreamUnavailable (utf8.message bytes))

/-- Counts an event, then decodes it. -/
def BoundedStreamReader.finishItem (limits : LlmGatewayBudget) (self : BoundedStreamReader)
    (bytes : Bytes)
    : Except GatewayError (Option String) × BoundedStreamReader :=
  if limits.streamMaxEvents < self.events + 1 then
    (.error (responseBudgetError "cumulative stream events"), self)
  else (decodeStreamItem utf8 bytes, { self with events := self.events + 1 })

def isBlankLine (line : Bytes) : Bool :=
  line == [10] || line == [13, 10]

/-- The loop of reading an event; every line takes a byte, so the fuel never runs out. -/
def sseEventLoop (limits : LlmGatewayBudget)
    : Nat → Bytes → BoundedStreamReader
      → Except GatewayError (Option String) × BoundedStreamReader
  | 0, _, reader => (.ok none, reader)
  | fuel + 1, event, reader =>
      match reader.readBoundedLine limits limits.streamChunkMaxBytes with
      | (.error error, reader) => (.error error, reader)
      | (.ok none, reader) =>
          if event.isEmpty then (.ok none, reader) else reader.finishItem utf8 limits event
      | (.ok (some line), reader) =>
          if limits.streamEventMaxBytes < event.length + line.length then
            (.error (responseBudgetError "SSE event"), reader)
          else if isBlankLine line then reader.finishItem utf8 limits (event ++ line)
          else sseEventLoop limits fuel (event ++ line) reader

def BoundedStreamReader.nextSseEvent (limits : LlmGatewayBudget) (self : BoundedStreamReader)
    : Except GatewayError (Option String) × BoundedStreamReader :=
  sseEventLoop utf8 limits (self.reads.flatten.length + 1) [] self

def BoundedStreamReader.nextNdjsonLine (limits : LlmGatewayBudget) (self : BoundedStreamReader)
    : Except GatewayError (Option String) × BoundedStreamReader :=
  match self.readBoundedLine limits
      (min limits.streamChunkMaxBytes limits.streamEventMaxBytes) with
  | (.error error, reader) => (.error error, reader)
  | (.ok none, reader) => (.ok none, reader)
  | (.ok (some line), reader) => reader.finishItem utf8 limits line

def BoundedStreamReader.next (limits : LlmGatewayBudget) (self : BoundedStreamReader)
    : StreamProtocol → Except GatewayError (Option String) × BoundedStreamReader
  | .sse => self.nextSseEvent utf8 limits
  | .ndjson => self.nextNdjsonLine utf8 limits

/-! ## Whole streams -/

inductive Ending where
  | finished
  | failed (error : GatewayError)
  | outOfFuel
deriving DecidableEq, Repr

/-- The items of a stream, each with the reader behind it, and how the reading ended. -/
structure Reading where
  items : List (String × BoundedStreamReader)
  ending : Ending
  last : BoundedStreamReader
deriving DecidableEq, Repr

def readItems (limits : LlmGatewayBudget) (protocol : StreamProtocol)
    : Nat → BoundedStreamReader → Reading
  | 0, reader => ⟨[], .outOfFuel, reader⟩
  | fuel + 1, reader =>
      match reader.next utf8 limits protocol with
      | (.error error, reader) => ⟨[], .failed error, reader⟩
      | (.ok none, reader) => ⟨[], .finished, reader⟩
      | (.ok (some item), reader) =>
          let later := readItems limits protocol fuel reader
          { later with items := (item, reader) :: later.items }

/-- All items of the stream that comes in these reads, up to the first error. -/
def readStream (limits : LlmGatewayBudget) (protocol : StreamProtocol) (reads : List Bytes)
    : Reading :=
  readItems utf8 limits protocol (reads.flatten.length + 1) { reads }

end BeetleMemory.Gateway
