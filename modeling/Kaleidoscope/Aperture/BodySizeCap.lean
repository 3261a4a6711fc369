import Kaleidoscope.Aperture.Ingest
import Kaleidoscope.Library.Decimal

/-!
# Bodies within the cap

A body arrives in frames. A posted body is read by a bounded reader, and the body of a call by a
loop that looks at what it has after each frame; neither depends on where the frames begin.
-/

namespace Kaleidoscope.Aperture

open Decimal Utf8

/-- A frame of a body. -/
inductive Frame where
  | data (bytes : Bytes)
  | trailers
  deriving DecidableEq, Repr

/-- The data of a frame. -/
def Frame.bytes : Frame → Bytes
  | .data bytes => bytes
  | .trailers => []

/-- A body as it arrives: its frames, and whether it ends after them or cannot be read. -/
structure Body where
  frames : List Frame
  ends : Bool
  deriving DecidableEq, Repr

/-- The data of the frames, one after the other. -/
def framesData (frames : List Frame) : Bytes := frames.flatMap Frame.bytes

/-- All data of a body. -/
def Body.data (body : Body) : Bytes := framesData body.frames

@[simp] theorem framesData_nil : framesData [] = [] := rfl

@[simp] theorem framesData_cons (frame : Frame) (frames : List Frame) :
    framesData (frame :: frames) = frame.bytes ++ framesData frames := rfl

/-- `CapTransport::as_str`. -/
def Transport.asStr : Transport → String
  | .grpc => "grpc"
  | .httpProtobuf => "http_protobuf"

/-- The event `body_too_large`. -/
structure BodyTooLarge where
  transport : String
  signal : String
  limit : Nat
  size : Nat
  deriving DecidableEq, Repr

/-- `emit_body_too_large`. -/
def emitBodyTooLarge (transport : Transport) (signal : String) (limit : UInt32) (size : Nat) :
    BodyTooLarge :=
  ⟨transport.asStr, signal, limit.toNat, size⟩

/-- `too_large_message`. -/
def tooLargeMessage (limit : UInt32) (size : Nat) : String :=
  s!"aperture: body of {size} bytes exceeds max_recv_msg_size cap of {limit.toNat} bytes"

/-- A response in plain text. -/
structure PlainResponse where
  status : Nat
  text : String
  deriving DecidableEq, Repr

/-- `reject_http_too_large`. -/
def rejectHttpTooLarge (limit : UInt32) (size : Nat) : PlainResponse :=
  ⟨413, tooLargeMessage limit size ++ "\n"⟩

/-- `reject_http_default_too_large`. -/
def rejectHttpDefaultTooLarge : PlainResponse :=
  ⟨413, "request body exceeds the default maximum size\n"⟩

/-- `HeaderValue::to_str`: visible ASCII. -/
def toStr (value : Bytes) : Option Text :=
  if value.all fun b => (32 ≤ b.toNat && b.toNat < 127) || b.toNat == 9 then
    some (value.map fun b => Char.ofNat b.toNat)
  else none

/-- `trim` of visible ASCII. -/
def trimVisible (t : Text) : Text :=
  let blank (c : Char) : Bool := c == ' ' || c == '\t'
  ((t.dropWhile blank).reverse.dropWhile blank).reverse

/-- `parse` of a `u64`. -/
def parseU64 (t : Text) : Option Nat :=
  let digits := if t.head? = some '+' then t.tail else t
  if digits ≠ [] ∧ digits.all Char.isDigit ∧ value digits < 2 ^ 64 then some (value digits)
  else none

/-- `declared_content_length`, from the header if there is one. -/
def declaredContentLength (contentLength : Option Bytes) : Option Nat :=
  contentLength.bind fun value => (toStr value).bind fun text => parseU64 (trimVisible text)

/-- `GRPC_HEADER_SIZE`. -/
def GRPC_HEADER_SIZE : Nat := 5

/-- `BodyCapOutcome`. -/
inductive BodyCapOutcome where
  | withinCap (bytes : Bytes)
  | overCap (observed : Nat)
  | readError
  deriving DecidableEq, Repr

/-- The length that the head of a frame declares, once it is there. -/
def declaredLength (buf : Bytes) : Option Nat :=
  match buf with
  | _ :: b₁ :: b₂ :: b₃ :: b₄ :: _ =>
    some (((b₁.toNat * 256 + b₂.toNat) * 256 + b₃.toNat) * 256 + b₄.toNat)
  | _ => none

/-- `grpc_prefix_verdict`. -/
def grpcPrefixVerdict (buf : Bytes) (limit : UInt32) : Option BodyCapOutcome :=
  match declaredLength buf with
  | some declaredLen => if declaredLen > limit.toNat then some (.overCap declaredLen) else none
  | none => none

/-- The loop of `collect_grpc_body_within_cap`, with what it has so far. -/
def collectFrames (limit : UInt32) (ends : Bool) : List Frame → Bytes → BodyCapOutcome
  | [], buf => if ends then (grpcPrefixVerdict buf limit).getD (.withinCap buf) else .readError
  | .trailers :: frames, buf => collectFrames limit ends frames buf
  | .data data :: frames, buf =>
    match grpcPrefixVerdict (buf ++ data) limit with
    | some verdict => verdict
    | none =>
      if (buf ++ data).length > limit.toNat + GRPC_HEADER_SIZE then .overCap (limit.toNat + 1)
      else collectFrames limit ends frames (buf ++ data)

/-- `collect_grpc_body_within_cap`. -/
def collectGrpcBodyWithinCap (body : Body) (limit : UInt32) : BodyCapOutcome :=
  collectFrames limit body.ends body.frames []

/-- `full_box_body`. -/
def fullBoxBody (bytes : Bytes) : Body := ⟨if bytes = [] then [] else [.data bytes], true⟩

theorem data_fullBoxBody (bytes : Bytes) : (fullBoxBody bytes).data = bytes := by
  rw [fullBoxBody, Body.data]
  split_ifs with h
  · rw [h]
    rfl
  · exact List.append_nil bytes

/-- `Code`, of the statuses that the layer returns. -/
inductive Code where
  | resourceExhausted
  | internal
  deriving DecidableEq, Repr

/-- What the layer does with a call: it hands the body on, or answers itself. -/
inductive GrpcAnswer where
  | forwarded (body : Body)
  | status (code : Code) (message : String)
  deriving DecidableEq, Repr

/-- `GrpcBodyCapService::call`. -/
def grpcBodyCapCall (cap : Option UInt32) (signal : String) (body : Body) :
    GrpcAnswer × List BodyTooLarge :=
  match activeCap cap with
  | none => (.forwarded body, [])
  | some limit =>
    match collectGrpcBodyWithinCap body limit with
    | .withinCap bytes => (.forwarded (fullBoxBody bytes), [])
    | .overCap observed =>
      (.status .resourceExhausted (tooLargeMessage limit observed),
        [emitBodyTooLarge .grpc signal limit observed])
    | .readError => (.status .internal "aperture: failed to read request body", [])

section Http

-- `http_body_util::Limited`, collected to bytes.
variable (limited : Body → Nat → Option Bytes)

/-- `collect_uncapped`. -/
def collectUncapped (body : Body) : Except PlainResponse Bytes :=
  match limited body DEFAULT_HTTP_BODY_LIMIT_BYTES with
  | some bytes => .ok bytes
  | none => .error rejectHttpDefaultTooLarge

/-- `read_http_body_within_cap`, with the events that it emits. -/
def readHttpBodyWithinCap (cap : Option UInt32) (contentLength : Option Bytes) (body : Body)
    (signal : String) : Except PlainResponse Bytes × List BodyTooLarge :=
  match activeCap cap with
  | none => (collectUncapped limited body, [])
  | some limit =>
    let streamed : Except PlainResponse Bytes × List BodyTooLarge :=
      match limited body limit.toNat with
      | some bytes => (.ok bytes, [])
      | none =>
        let observed := limit.toNat + 1
        (.error (rejectHttpTooLarge limit observed),
          [emitBodyTooLarge .httpProtobuf signal limit observed])
    match declaredContentLength contentLength with
    | some declared =>
      if declared > limit.toNat then
        (.error (rejectHttpTooLarge limit declared),
          [emitBodyTooLarge .httpProtobuf signal limit declared])
      else streamed
    | none => streamed

end Http

end Kaleidoscope.Aperture
