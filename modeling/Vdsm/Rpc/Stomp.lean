import Vdsm.Lib.RustBytes
import Vdsm.Lib.RustStr

/-!
# STOMP 1.2 frames (`vdsm-rpc/src/stomp.rs`)

Frame type, serializer, parser and the frames the server emits. `parseFrame` keeps every slice and
the `n + 1` of the body length as operations that can panic, so its result has the four outcomes of
the source: a frame with the unparsed tail, "incomplete", a `ParseError`, a panic.
-/

namespace Vdsm.Stomp

open Rust

/-- LF, the line end of the wire format. -/
def lf : UInt8 := 10

/-- CR, optional before LF. -/
def cr : UInt8 := 13

/-- `:`, between a header's key and value. -/
def colon : UInt8 := 58

/-- NUL, the frame terminator. -/
def nul : UInt8 := 0

/-! ## Frames and their encoding -/

/-- A STOMP frame. Headers are in insertion order. -/
structure Frame where
  command : String
  headers : List (String × String)
  body : Vec8
deriving DecidableEq

namespace Frame

/-- A frame with no headers and no body. -/
def new (command : String) : Frame := ⟨command, [], Vec8.empty⟩

def withHeader (f : Frame) (k v : String) : Frame := { f with headers := f.headers ++ [(k, v)] }

def withBody (f : Frame) (b : Vec8) : Frame := { f with body := b }

/-- The first header value with this name. -/
def header (f : Frame) (name : String) : Option String :=
  (f.headers.find? fun h => h.1 == name).map Prod.snd

end Frame

/-- One character of `escape_header`. -/
def escapeChar : Char → List Char
  | '\\' => ['\\', '\\']
  | '\r' => ['\\', 'r']
  | '\n' => ['\\', 'n']
  | ':' => ['\\', 'c']
  | other => [other]

/-- CR, LF, `:` and backslash become two-character escapes. -/
def escapeHeader (s : String) : String := String.ofList (s.toList.flatMap escapeChar)

/-- The loop of `unescape_header`: unknown escapes and a dangling backslash pass through. -/
def unescapeChars : List Char → List Char
  | '\\' :: '\\' :: cs => '\\' :: unescapeChars cs
  | '\\' :: 'r' :: cs => '\r' :: unescapeChars cs
  | '\\' :: 'n' :: cs => '\n' :: unescapeChars cs
  | '\\' :: 'c' :: cs => ':' :: unescapeChars cs
  | '\\' :: other :: cs => '\\' :: other :: unescapeChars cs
  | c :: cs => c :: unescapeChars cs
  | [] => []

/-- Reverse of `escapeHeader`. -/
def unescapeHeader (s : String) : String := String.ofList (unescapeChars s.toList)

/-- One header line, with its LF. -/
def headerBytes (h : String × String) : List UInt8 :=
  asBytes (escapeHeader h.1) ++ colon :: (asBytes (escapeHeader h.2) ++ [lf])

/-- `Frame::to_bytes`. -/
def Frame.toBytes (f : Frame) : List UInt8 :=
  asBytes f.command ++ lf :: (f.headers.flatMap headerBytes ++ lf :: (f.body.1 ++ [nul]))

/-! ## Parsing -/

/-- `ParseError`. -/
inductive ParseError where
  | malformed (what : String)
  | utf8 (e : Utf8Error)
  | contentLengthMismatch (declared actual : ℕ)
  | badContentLength (val : String)
deriving DecidableEq, Repr

/-- `Display for ParseError`. -/
def ParseError.display : ParseError → String
  | .malformed what => s!"malformed frame: {what}"
  | .utf8 e => s!"invalid utf-8 in command or header: {e.display}"
  | .contentLengthMismatch declared actual =>
    s!"declared content-length {declared} disagrees with body terminator at {actual}"
  | .badContentLength val => s!"invalid content-length header: {val}"

/-- Drops leading LF and CR LF. -/
def skipHeartbeats : List UInt8 → List UInt8
  | 10 :: rest => skipHeartbeats rest
  | 13 :: 10 :: rest => skipHeartbeats rest
  | input => input

/-- Drops one trailing CR. -/
def stripCr (line : List UInt8) : List UInt8 :=
  if line.getLast? = some cr then line.dropLast else line

/-- One header line, already known to be non-empty: the unescaped key and value, and the
content length it declares if it is the first to do so. -/
def parseHeaderLine (rawLine : List UInt8) (contentLength : Option ℕ) :
    Rs ParseError ((String × String) × Option ℕ) := do
  let some (keyRaw, valRaw) ← splitAtByte colon rawLine
    | .err (.malformed "header line missing ':'")
  let key := unescapeHeader (← Rs.ofExcept .utf8 (fromUtf8 keyRaw))
  let val := unescapeHeader (← Rs.ofExcept .utf8 (fromUtf8 valRaw))
  -- the first declaration wins; later ones are kept as headers but not parsed
  if key = "content-length" ∧ contentLength = none then
    match parseUnsigned usizeMax val with
    | some n => return ((key, val), some n)
    | none => .err (.badContentLength val)
  else
    return ((key, val), contentLength)

/-- What the header loop collects: the headers and the declared body length. -/
abbrev HeaderBlock : Type := List (String × String) × Option ℕ

/-- The header loop, from one header line to the blank line that ends the block; `none` when the
block is not complete yet. -/
@[semireducible]
def parseHeaders (cursor : List UInt8) (headers : List (String × String))
    (contentLength : Option ℕ) : Rs ParseError (Option (HeaderBlock × List UInt8)) :=
  match _h : splitAtByte lf cursor with
  | .panic => .panic
  | .err e => .err e
  | .ok none => .ok none
  | .ok (some (line, rest)) =>
    let rawLine := stripCr line
    if rawLine = [] then .ok (some ((headers, contentLength), rest))
    else do
      let (header, contentLength) ← parseHeaderLine rawLine contentLength
      parseHeaders rest (headers ++ [header]) contentLength
termination_by cursor.length
decreasing_by
  obtain ⟨rfl, -⟩ := splitAtByte_eq_some _h
  simp
  omega

/-- The body and the tail after its NUL; `none` when the body is not complete yet. -/
def parseBody (contentLength : Option ℕ) (cursor : List UInt8) :
    Rs ParseError (Option (Vec8 × List UInt8)) :=
  match contentLength with
  | some n => do
    -- without overflow checks `n + 1` wraps to 0 and `&cursor[..n]` panics in its place
    let needed ← Rs.ofOption (checkedAdd n 1)
    if cursor.length < needed then return none
    let body ← Rs.ofOption (sliceTo cursor n)
    let terminator ← Rs.ofOption cursor[n]?
    if terminator ≠ nul then
      .err (.contentLengthMismatch n ((memchr nul body).getD n))
    else
      let body ← Rs.ofOption (toVec body)
      let remaining ← Rs.ofOption (sliceFrom cursor (n + 1))
      return some (body, remaining)
  | none => do
    let some (body, remaining) ← splitAtByte nul cursor | return none
    let body ← Rs.ofOption (toVec body)
    return some (body, remaining)

/-- `parse_frame`: `ok (some (frame, remaining))` is a complete frame, `ok none` an incomplete
one. -/
def parseFrame (input : List UInt8) : Rs ParseError (Option (Frame × List UInt8)) := do
  let cursor := skipHeartbeats input
  if cursor = [] then return none
  let some (line, cursor) ← splitAtByte lf cursor | return none
  let commandLine := stripCr line
  if commandLine = [] then .err (.malformed "empty command line")
  else
    let command ← Rs.ofExcept .utf8 (fromUtf8 commandLine)
    let some ((headers, contentLength), cursor) ← parseHeaders cursor [] none | return none
    let some (body, remaining) ← parseBody contentLength cursor | return none
    return some (⟨command, headers, body⟩, remaining)

/-! ## The frames the server emits -/

namespace Build

/-- `CONNECTED` reply to a client `CONNECT` or `STOMP` frame. -/
def connected (version server : String) (session : Option String) : Frame :=
  let f := ((Frame.new "CONNECTED").withHeader "version" version).withHeader "server" server
    |>.withHeader "heart-beat" "0,0"
  match session with
  | some s => f.withHeader "session" s
  | none => f

/-- `MESSAGE` frame carrying a JSON-RPC response body. -/
def message (destination subscription : String) (body : Vec8) : Frame :=
  (Frame.new "MESSAGE").withHeader "destination" destination
    |>.withHeader "subscription" subscription
    |>.withHeader "content-type" "application/json"
    |>.withHeader "content-length" (toString body.1.length)
    |>.withBody body

/-- `ERROR` frame; the text goes through `to_vec`. -/
def error (message body : String) : Option Frame := do
  let bytes ← toVec (asBytes body)
  return (Frame.new "ERROR").withHeader "message" message
    |>.withHeader "content-type" "text/plain"
    |>.withHeader "content-length" (toString (len body))
    |>.withBody bytes

/-- `RECEIPT` for a `DISCONNECT` that asked for one. -/
def receipt (receiptId : String) : Frame :=
  (Frame.new "RECEIPT").withHeader "receipt-id" receiptId

end Build

end Vdsm.Stomp
