import MiniAiCloud.ArtifactStore
import MiniAiCloud.Redaction

/-! # The token usage of a streamed response

    The gateway observes the events of a response while it passes the chunks on, and reports
    the last usage it has seen.  Where no size limit is passed this is the last usage of the
    whole stream, however it was cut.  But an observer that has turned itself off keeps what
    it saw before, and that may not be the last. -/

namespace MiniAiCloud

/-- What `json.loads` gives, as far as the gateway tells values apart. -/
inductive JsonValue where
  | object (members : List (String × JsonValue))
  | integer (value : ℤ)
  | other

def JsonValue.get (name : String) : JsonValue → JsonValue
  | object members => (members.lookup name).getD other
  | integer _ | other => other

structure ReportedTokenUsage where
  promptTokens : ℤ
  completionTokens : ℤ
  totalTokens : ℤ
  deriving DecidableEq

/-- `_reported_usage_from_payload`. -/
def reportedUsageFromPayload (payload : JsonValue) : Option ReportedTokenUsage :=
  let usage := payload.get "usage"
  match usage.get "prompt_tokens", usage.get "completion_tokens", usage.get "total_tokens" with
  | .integer prompt, .integer completion, .integer total =>
    if prompt < 0 ∨ completion < 0 ∨ total < 0 ∨ total ≠ prompt + completion then none
    else some ⟨prompt, completion, total⟩
  | _, _, _ => none

/-- `bytes.strip`. -/
def stripSpace (data : Bytes) : Bytes :=
  let space := fun b : UInt8 => b ∈ [9, 10, 11, 12, 13, 32]
  ((data.dropWhile space).reverse.dropWhile space).reverse

def stripCarriageReturn (line : Bytes) : Bytes :=
  if line.getLast? = some 13 then line.dropLast else line

/-- The value of a line that begins with `data:`. -/
def dataValue (line : Bytes) : Option Bytes :=
  if [100, 97, 116, 97, 58] <+: line then
    some (if (line)[5]? = some 32 then line.drop 6 else line.drop 5)
  else none

/-- `_MAX_OBSERVED_SSE_EVENT_BYTES`. -/
def maxObservedSseEventBytes : ℕ := 1024 * 1024

/-- `_SSEUsageObserver`. -/
structure SseUsageObserver where
  lineBuffer : Bytes := []
  dataLines : List Bytes := []
  eventBytes : ℕ := 0
  disabled : Bool := false
  usage : Option ReportedTokenUsage := none
  deriving DecidableEq

section Observer

open SseUsageObserver List

-- `json.loads`: a value, or one of the errors the observer passes over
variable (loads : Bytes → Option JsonValue)

/-- The usage an event carries; `[DONE]` only ends the stream. -/
def eventUsage (data : Bytes) : Option ReportedTokenUsage :=
  if stripSpace data = encodeUtf8 "[DONE]" then none
  else (loads data).bind reportedUsageFromPayload

namespace SseUsageObserver

def disable (o : SseUsageObserver) : SseUsageObserver :=
  { o with disabled := true, lineBuffer := [], dataLines := [], eventBytes := 0 }

def dispatchEvent (o : SseUsageObserver) : SseUsageObserver :=
  if o.dataLines = [] then { o with eventBytes := 0 }
  else
    { o with
      dataLines := []
      eventBytes := 0
      usage := (eventUsage loads ([10].intercalate o.dataLines)).or o.usage }

def consumeLine (o : SseUsageObserver) (line : Bytes) : SseUsageObserver :=
  if line = [] then o.dispatchEvent loads
  else
    match dataValue line with
    | none => o
    | some value =>
      if o.eventBytes + value.length > maxObservedSseEventBytes then o.disable
      else
        { o with
          eventBytes := o.eventBytes + value.length
          dataLines := o.dataLines ++ [value] }

/-- The loop of `feed` over the lines of the buffer, in so many rounds at most. -/
def feedLoop : ℕ → SseUsageObserver → SseUsageObserver
  | 0, o => o
  | rounds + 1, o =>
    if 10 ∉ o.lineBuffer then o
    else
      let line := o.lineBuffer.takeWhile (· ≠ 10)
      let next := consumeLine loads { o with lineBuffer := o.lineBuffer.drop (line.length + 1) }
        (stripCarriageReturn line)
      if next.disabled then next else feedLoop rounds next

/-- `feed`; every round takes a byte or more. -/
def feed (o : SseUsageObserver) (chunk : Bytes) : SseUsageObserver :=
  if o.disabled ∨ chunk = [] then o
  else if o.lineBuffer.length + chunk.length > maxObservedSseEventBytes then o.disable
  else
    feedLoop loads (o.lineBuffer ++ chunk).length { o with lineBuffer := o.lineBuffer ++ chunk }

def finish (o : SseUsageObserver) : SseUsageObserver :=
  if o.disabled then o
  else if o.lineBuffer = [] then o.dispatchEvent loads
  else
    (consumeLine loads { o with lineBuffer := [] }
      (stripCarriageReturn o.lineBuffer)).dispatchEvent loads

end SseUsageObserver

/-! ## The events of a stream -/

/-- The event of the data lines, if there are any. -/
def joined (data : List Bytes) : List Bytes :=
  if data = [] then [] else [[10].intercalate data]

namespace SseUsageObserver

variable {loads} {o : SseUsageObserver} {u : Option ReportedTokenUsage} {lines : List Bytes}
  {line chunk stream : Bytes}

end SseUsageObserver

end Observer

end MiniAiCloud
