import Vdsm.Lib.HashMap
import Vdsm.Rpc.Protocol
import Vdsm.Rpc.StompStream

/-!
# The STOMP connection (`vdsm-rpc/src/server.rs`, `dispatch.rs`)

`serveStomp` is `serve_stomp`: the read loop of `Framing` with `handleFrame` as its protocol. The
state of a connection is the handshake flag and the subscription map; what it does to the outside
(bytes written, dispatcher calls) and to its subscriptions is recorded, in order, in a trace.

Writes succeed. What lies outside the crate is a parameter of `Server`: the verb handlers, the two
`serde_json` entry points, and the iteration order of the subscription map. Handlers and order may
depend on everything that happened before.
-/

namespace Vdsm.Rpc

open Rust Stomp Framing

/-- One observable action of a connection. -/
inductive Effect where
  | write (bytes : List UInt8)
  | invoke (method : String) (params : Value)
  | subscribe (id destination : String)
  | unsubscribe (id : String)

/-- What a verb handler may depend on: the connection's past and its parameters. -/
abbrev Handler : Type := List Effect → Value → Except JsonRpcError Value

/-- `Dispatcher`: the registered handlers by verb name. -/
structure Dispatcher where
  handlers : String → Option Handler

/-- `Dispatcher::invoke`. -/
def Dispatcher.invoke (d : Dispatcher) (past : List Effect) (method : String) (params : Value) :
    Except JsonRpcError Value :=
  match d.handlers method with
  | some h => h past params
  | none => .error (.methodNotFound method)

/-- The subscriptions of a connection: id to destination. -/
abbrev Subscriptions : Type := HashMap String String

/-- The environment of a connection. -/
structure Server where
  /-- The peer's socket address, as displayed. -/
  peer : String
  dispatcher : Dispatcher
  /-- `serde_json::from_str::<Request>`, with the text of its error. -/
  fromStr : String → Except String Request
  /-- `serde_json::to_vec`. On a `Value` it has no way to fail. -/
  toVec : Value → Vec8
  /-- The order in which the subscription map iterates. -/
  order : List Effect → Subscriptions → List (String × String)
  order_perm : ∀ past m, (order past m).Perm m.toPairs

/-- The local variables of `serve_stomp`, and what it has done so far. -/
structure Session where
  subscriptions : Subscriptions
  connected : Bool
  trace : List Effect

namespace Session

/-- The start of a connection. -/
def init : Session := ⟨∅, false, []⟩

/-- Record an action. -/
def log (s : Session) (e : Effect) : Session := { s with trace := s.trace ++ [e] }

/-- Write a frame. -/
def write (s : Session) (f : Frame) : Session := s.log (.write f.toBytes)

end Session

/-- How `serve_stomp` ends. -/
inductive Exit where
  | returned
  | panicked

/-- The client commands `serve_stomp` distinguishes. -/
inductive Command where
  | connect
  | subscribe
  | unsubscribe
  | send
  | disconnect
  | other
deriving DecidableEq

/-- The command of a frame. -/
def command (f : Frame) : Command :=
  if f.command = "CONNECT" ∨ f.command = "STOMP" then .connect
  else if f.command = "SUBSCRIBE" then .subscribe
  else if f.command = "UNSUBSCRIBE" then .unsubscribe
  else if f.command = "SEND" then .send
  else if f.command = "DISCONNECT" then .disconnect
  else .other

/-! ## Replies -/

/-- `w.windows(2).position(|w| w == b"\n\n")`. -/
def findBlankLine : List UInt8 → Option ℕ
  | a :: b :: rest =>
    if a = lf ∧ b = lf then some 0 else (findBlankLine (b :: rest)).map (· + 1)
  | _ => none

/-- The fields of the wire trace of a `MESSAGE`. -/
structure WireTrace where
  bodyLen : ℕ
  totalBytes : ℕ
  head : List UInt8
  bodyFirst : List UInt8
  bodyLast : List UInt8

/-- The wire trace logged before a `MESSAGE` is written; `none` is a slice out of range. -/
def wireTrace (frameBytes : List UInt8) : Option WireTrace := do
  let sep := (findBlankLine frameBytes).getD 0
  let bodyStart := saturatingAdd sep 2
  let bodyEnd := frameBytes.length - 1
  let bodyLen := bodyEnd - bodyStart
  let head ← sliceTo frameBytes (min sep frameBytes.length)
  let bodyFirst ← slice frameBytes bodyStart (min (saturatingAdd bodyStart 200) bodyEnd)
  let bodyLastOff := max (bodyEnd - 200) bodyStart
  let bodyLast ← slice frameBytes bodyLastOff bodyEnd
  return ⟨bodyLen, frameBytes.length, head, bodyFirst, bodyLast⟩

/-- The fall-back destination of replies and subscriptions. -/
def defaultDestination : String := "/queue/_local/vdsm/responses"

/-- Where a reply goes: `reply-to`, else the destination the map yields first, else a constant. -/
def replyDestination (order : List (String × String)) (frame : Frame) : String :=
  ((frame.header "reply-to").or (order.head?.map Prod.snd)).getD defaultDestination

/-- The subscription a reply is tagged with: the first with that destination, else `"0"`. -/
def subscriptionId (order : List (String × String)) (dest : String) : String :=
  ((order.find? fun e => e.2 == dest).map Prod.fst).getD "0"

/-- The `MESSAGE` for a response. -/
def replyFrame (srv : Server) (s : Session) (frame : Frame) (response : Response) : Frame :=
  let order := srv.order s.trace s.subscriptions
  let dest := replyDestination order frame
  Build.message dest (subscriptionId order dest) (srv.toVec response.toJson)

/-- The second half of `handle_stomp_send`: route, trace and write a response. -/
def sendReply (srv : Server) (s : Session) (frame : Frame) (response : Response) :
    Flow Session (Session × Exit) :=
  let msg := replyFrame srv s frame response
  match wireTrace msg.toBytes with
  | none => .halt (s, .panicked)
  | some _ => .next (s.write msg)

/-- The response to a request whose verb has run. -/
def responseTo (id : Option Value) (result : Except JsonRpcError Value) : Response :=
  match result with
  | .ok value => .ok id value
  | .error err => .err id err

/-- The rest of `handle_stomp_send` once the verb has returned. -/
def finishSend (srv : Server) (s : Session) (frame : Frame) (req : Request)
    (result : Except JsonRpcError Value) : Flow Session (Session × Exit) :=
  let response := responseTo req.id result
  if req.id.isNone ∧ response.error.isNone then .next s
  else sendReply srv s frame response

/-- `handle_stomp_send`. A body that is not UTF-8 is dropped; one that is not a request is answered
with a parse error and no id; a notification is answered only when its verb failed. -/
def handleStompSend (srv : Server) (s : Session) (frame : Frame) :
    Flow Session (Session × Exit) :=
  match fromUtf8 frame.body.1 with
  | .error _ => .next s
  | .ok bodyStr =>
    match srv.fromStr bodyStr with
    | .error e =>
      sendReply srv s frame (.err none (.parseError s!"invalid JSON-RPC envelope: {e}"))
    | .ok req =>
      let result := srv.dispatcher.invoke s.trace req.method req.params
      finishSend srv (s.log (.invoke req.method req.params)) frame req result

/-! ## The connection -/

/-- Send an `ERROR` and close. -/
def refuse (s : Session) (message body : String) : Session × Exit :=
  match Build.error message body with
  | none => (s, .panicked)
  | some err => (s.write err, .returned)

/-- The crate's version, in the `server` header. -/
def serverId : String := "vdsm-rs/4.5.7"

/-- The body of the frame loop of `serve_stomp`. -/
def handleFrame (srv : Server) (s : Session) (frame : Frame) : Flow Session (Session × Exit) :=
  if !s.connected ∧ command frame ≠ .connect then .halt (refuse s "expected CONNECT" "")
  else
    match command frame with
    | .connect =>
      if s.connected then .halt (refuse s "already connected" "")
      else
        let f := Build.connected "1.2" serverId (some s!"vdsm-rs-{srv.peer}")
        .next { s.write f with connected := true }
    | .subscribe =>
      let id := (frame.header "id").getD "0"
      let dest := (frame.header "destination").getD defaultDestination
      .next { s.log (.subscribe id dest) with subscriptions := s.subscriptions.insert id dest }
    | .unsubscribe =>
      match frame.header "id" with
      | some id =>
        .next { s.log (.unsubscribe id) with subscriptions := s.subscriptions.erase id }
      | none => .next s
    | .send => handleStompSend srv s frame
    | .disconnect =>
      match frame.header "receipt" with
      | some receiptId => .halt (s.write (Build.receipt receiptId), .returned)
      | none => .halt (s, .returned)
    | .other => .next s

/-- `serve_stomp` on a connection whose reads yield the given chunks. -/
def serveStomp (srv : Server) (chunks : List (List UInt8)) : Session × Exit :=
  match readLoop stompDecoder (handleFrame srv) Session.init [] chunks with
  | .starved s _ => (s, .returned)
  | .failed s e => refuse s "malformed frame" e.display
  | .panicked s => (s, .panicked)
  | .halted r => r

/-- `serve_stomp` on the frames it receives and the parse error that may follow them. -/
def serveReceived (srv : Server) (frames : List Frame) (err : Option ParseError) :
    Session × Exit :=
  match feed (handleFrame srv) Session.init frames with
  | .halt r => r
  | .next s =>
    match err with
    | none => (s, .returned)
    | some e => refuse s "malformed frame" e.display

/-- The stream of a connection delivers these frames, and then waits or meets the parse error. -/
def Received (chunks : List (List UInt8)) (frames : List Frame) : Option ParseError → Prop
  | none => ∃ tail, delivered chunks = .starved frames tail
  | some e => delivered chunks = .failed frames e

/-- A connection does with its stream what it does with the list of the frames received, whatever
the chunks. -/
theorem serveStomp_eq_serveReceived (srv : Server) {chunks : List (List UInt8)}
    {frames : List Frame} {err : Option ParseError} (h : Received chunks frames err) :
    serveStomp srv chunks = serveReceived srv frames err := by
  rw [serveStomp, readLoop_eq_after parseFrame_stable rfl, ← delivered, serveReceived]
  cases err with
  | none =>
    obtain ⟨tail, hd⟩ := h
    rw [hd]
    cases hf : feed (handleFrame srv) Session.init frames <;> simp [End.after, hf]
  | some e =>
    rw [show delivered chunks = .failed frames e from h]
    cases hf : feed (handleFrame srv) Session.init frames <;> simp [End.after, hf]

end Vdsm.Rpc
