import Vdsm.Rpc.Server
import Vdsm.Rpc.StompRoundTrip

/-!
# The STOMP session protocol

What a connection does over a whole run, from the frames it receives. `liveFrames` is the
specification of when a session ends: at the first frame that is not the handshake, at a second
handshake, at `DISCONNECT`. Each live frame contributes its own actions and at most one `MESSAGE`
(`Acts`); the run lemma `feed_connected` composes them by induction over the frames.

The server's own frames are representable whatever strings the peer supplies, so the written bytes
parse back to the frames.
-/

namespace Vdsm.Rpc

open Rust Stomp Framing

/-! ## Specification -/

/-- Does a frame with this command end a session in this state? -/
def endsSession (connected : Bool) : Command → Bool
  | .connect => connected
  | .disconnect => true
  | _ => !connected

/-- The frames before the one that ends the session. -/
def liveFrames : Bool → List Frame → List Frame
  | _, [] => []
  | connected, f :: fs =>
    if endsSession connected (command f) then [] else f :: liveFrames true fs

/-- The bytes written. -/
def written (t : List Effect) : List UInt8 :=
  t.flatMap fun e => match e with
    | .write bytes => bytes
    | _ => []

/-- The dispatcher calls. -/
def calls (t : List Effect) : List (String × Value) :=
  t.filterMap fun e => match e with
    | .invoke method params => some (method, params)
    | _ => none

/-- The request of a `SEND` whose body is UTF-8 and deserialises. -/
def requestOf (srv : Server) (f : Frame) : Option Request :=
  if command f = .send then
    match fromUtf8 f.body.1 with
    | .ok s => (srv.fromStr s).toOption
    | .error _ => none
  else none

/-- The replies to one frame: at most one `MESSAGE`, none unless the frame is a `SEND`, and for a
request with an id exactly one, whose JSON body carries that id and one of result and error. -/
structure Answered (srv : Server) (f : Frame) (replies : List Frame) : Prop where
  at_most_one : replies.length ≤ 1
  only_send : command f ≠ .send → replies = []
  message : ∀ m ∈ replies, m.command = "MESSAGE"
  request : ∀ req i, requestOf srv f = some req → req.id = some i →
    ∃ m v, replies = [m] ∧ m.body = srv.toVec v ∧ Response.Carries v i

/-- The frames of a session on the wire: nothing, a single `ERROR`, or `CONNECTED`, the messages and
at most one closing `ERROR` or `RECEIPT`. -/
def Conversation (out messages : List Frame) : Prop :=
  (messages = [] ∧ (out = [] ∨ ∃ e, out = [e] ∧ e.command = "ERROR")) ∨
    ∃ c closing, out = c :: (messages ++ closing) ∧ c.command = "CONNECTED" ∧
      (∀ m ∈ messages, m.command = "MESSAGE") ∧
      (closing = [] ∨ ∃ x, closing = [x] ∧ (x.command = "ERROR" ∨ x.command = "RECEIPT"))

/-- Is the action a dispatcher call or a subscription change? -/
def Effect.isAction : Effect → Bool
  | .write _ => false
  | _ => true

/-! ## The server's frames -/

/-- The greeting can be sent, whatever the texts in it. -/
theorem connected_encodable (version server session : String) :
    (Build.connected version server (some session)).Encodable :=
  ⟨by simp [Build.connected, Frame.withHeader, Frame.new],
    by simp [Build.connected, Frame.withHeader, Frame.new],
    by simp [Build.connected, Frame.withHeader, Frame.new],
    .inr (by simp [Build.connected, Frame.withHeader, Frame.new, Frame.header, Vec8.empty])⟩

theorem message_encodable (dest sub : String) (body : Vec8) :
    (Build.message dest sub body).Encodable :=
  ⟨by simp [Build.message, Frame.withHeader, Frame.withBody, Frame.new],
    by simp [Build.message, Frame.withHeader, Frame.withBody, Frame.new],
    by simp [Build.message, Frame.withHeader, Frame.withBody, Frame.new],
    .inl (by simp [Build.message, Frame.withHeader, Frame.withBody, Frame.new, Frame.header])⟩

theorem receipt_encodable (id : String) : (Build.receipt id).Encodable :=
  ⟨by simp [Build.receipt, Frame.withHeader, Frame.new],
    by simp [Build.receipt, Frame.withHeader, Frame.new],
    by simp [Build.receipt, Frame.withHeader, Frame.new],
    .inr (by simp [Build.receipt, Frame.withHeader, Frame.new, Frame.header, Vec8.empty])⟩

/-- An error frame can be sent, if it can be built. -/
theorem error_spec {message body : String} {f : Frame} (h : Build.error message body = some f) :
    f.Encodable ∧ f.command = "ERROR" := by
  cases hv : toVec (asBytes body) with
  | none => simp [Build.error, hv] at h
  | some bytes =>
    have hbytes : bytes.1 = asBytes body := by
      simp only [toVec] at hv
      split at hv
      · simpa using congrArg Subtype.val (Option.some.inj hv).symm
      · simp at hv
    obtain rfl := Option.some.inj (by simpa [Build.error, hv] using h)
    refine ⟨⟨?_, ?_, ?_, .inl ?_⟩, ?_⟩
    · simp [Frame.withHeader, Frame.withBody, Frame.new]
    · simp [Frame.withHeader, Frame.withBody, Frame.new]
    · simp [Frame.withHeader, Frame.withBody, Frame.new]
    · simp [Frame.withHeader, Frame.withBody, Frame.new, Frame.header, len, hbytes]
    · simp [Frame.withHeader, Frame.withBody, Frame.new]

/-! ## The wire trace -/

/-- A text with an empty line has a first one, no later than that. -/
theorem findBlankLine_append (l r : List UInt8) :
    ∃ k, findBlankLine (l ++ lf :: lf :: r) = some k ∧ k ≤ l.length := by
  induction l with
  | nil => exact ⟨0, by simp [findBlankLine], le_rfl⟩
  | cons a l ih =>
    obtain ⟨k, hk, hle⟩ := ih
    -- the head of the tail is a byte of `l` or the first of the two LFs
    obtain ⟨b, bs, hb⟩ : ∃ b bs, l ++ lf :: lf :: r = b :: bs := by
      cases l with
      | nil => exact ⟨_, _, rfl⟩
      | cons b l => exact ⟨_, _, rfl⟩
    rw [hb] at hk
    rw [List.cons_append, hb, findBlankLine]
    split
    · exact ⟨0, rfl, Nat.zero_le _⟩
    · exact ⟨k + 1, by simp [hk], by simpa using hle⟩

/-- The wire trace slices within range when a blank line stands before the last byte. -/
theorem wireTrace_isSome {l r : List UInt8} (hr : r ≠ []) :
    (wireTrace (l ++ lf :: lf :: r)).isSome := by
  obtain ⟨k, hk, hle⟩ := findBlankLine_append l r
  have hpos : 0 < r.length := List.length_pos_of_ne_nil hr
  have hlen : (l ++ lf :: lf :: r).length = l.length + r.length + 2 := by
    simp
    omega
  have hstart : saturatingAdd k 2 ≤ l.length + r.length + 1 ∧ saturatingAdd k 2 ≤ usizeMax := by
    simp only [saturatingAdd]
    omega
  have hfirst : saturatingAdd k 2 ≤ saturatingAdd (saturatingAdd k 2) 200 := by
    obtain ⟨-, hmax⟩ := hstart
    simp only [saturatingAdd] at hmax ⊢
    omega
  simp only [wireTrace, hk, Option.getD_some, hlen, sliceTo, slice]
  -- from here on only the bounds on the two offsets matter
  generalize saturatingAdd k 2 = start at *
  generalize saturatingAdd start 200 = stop at *
  rw [if_pos (by omega), if_pos (by omega), if_pos (by omega)]
  rfl

/-- The last header line ends in LF, and the header block in another. -/
theorem toBytes_blankLine (f : Frame) (init : List (String × String)) (h : String × String)
    (hf : f.headers = init ++ [h]) :
    f.toBytes = (asBytes f.command ++ lf :: (init.flatMap headerBytes ++ headerLine h)) ++
      lf :: lf :: (f.body.1 ++ [nul]) := by
  have hlast : headerBytes h = headerLine h ++ [lf] := by
    simpa using headerBytes_eq h []
  simp [Frame.toBytes, hf, hlast]

/-- Tracing a message never panics: there is an empty line behind its headers. -/
theorem message_wireTrace_isSome (dest sub : String) (body : Vec8) :
    (wireTrace (Build.message dest sub body).toBytes).isSome := by
  rw [toBytes_blankLine (Build.message dest sub body)
    [("destination", dest), ("subscription", sub), ("content-type", "application/json")]
    ("content-length", toString body.1.length) rfl]
  exact wireTrace_isSome (by simp)

/-! ## One frame -/

@[simp] theorem written_append (t u : List Effect) : written (t ++ u) = written t ++ written u := by
  simp [written]

@[simp] theorem calls_append (t u : List Effect) : calls (t ++ u) = calls t ++ calls u := by
  simp [calls]

/-- The calls a frame asks for. -/
def callsOf (srv : Server) (f : Frame) : List (String × Value) :=
  (requestOf srv f).toList.map fun req => (req.method, req.params)

/-- What one live frame does to a connected session. -/
structure Acts (srv : Server) (f : Frame) (s s' : Session) (replies : List Frame) : Prop where
  connected : s'.connected = true
  effects : ∃ effs, s'.trace = s.trace ++ effs ∧
    written effs = replies.flatMap Frame.toBytes ∧ calls effs = callsOf srv f
  answered : Answered srv f replies
  encodable : ∀ m ∈ replies, m.Encodable

/-- Nor does tracing a reply. -/
theorem replyFrame_wireTrace_isSome (srv : Server) (s : Session) (f : Frame) (r : Response) :
    (wireTrace (replyFrame srv s f r).toBytes).isSome := by
  rw [replyFrame]
  exact message_wireTrace_isSome _ _ _

/-- A reply is written whatever its destination and subscription. -/
theorem sendReply_eq (srv : Server) (s : Session) (f : Frame) (r : Response) :
    sendReply srv s f r = .next (s.write (replyFrame srv s f r)) := by
  obtain ⟨t, ht⟩ := Option.isSome_iff_exists.mp (replyFrame_wireTrace_isSome srv s f r)
  unfold sendReply
  simp only [ht]

/-- The response to a request with an id carries it. -/
theorem carries_responseTo (i : Value) (result : Except JsonRpcError Value) :
    Response.Carries (responseTo (some i) result).toJson i := by
  cases result with
  | ok value => exact Response.carries_ok i value
  | error e => exact Response.carries_err i e

/-- A single reply answers a frame when its body carries the id of the request, if there is one. -/
theorem answered_replyFrame {srv : Server} {s : Session} {f : Frame} {r : Response}
    (hsend : command f = .send)
    (hr : ∀ req i, requestOf srv f = some req → req.id = some i → Response.Carries r.toJson i) :
    Answered srv f [replyFrame srv s f r] where
  at_most_one := by simp
  only_send h := absurd hsend h
  message m hm := by
    obtain rfl : m = replyFrame srv s f r := by simpa using hm
    rfl
  request req i hreq hid := ⟨_, r.toJson, rfl, rfl, hr req i hreq hid⟩

/-- No reply answers a frame that asks for none. -/
theorem answered_nil {srv : Server} {f : Frame}
    (h : ∀ req i, requestOf srv f = some req → req.id ≠ some i) : Answered srv f [] where
  at_most_one := by simp
  only_send _ := rfl
  message m hm := by simp at hm
  request req i hreq hid := absurd hid (h req i hreq)

/-- Only a SEND is a request. -/
theorem requestOf_of_not_send {srv : Server} {f : Frame} (h : command f ≠ .send) :
    requestOf srv f = none :=
  if_neg h

/-- A frame that is no `SEND` changes at most the subscriptions. -/
theorem acts_of_not_send {srv : Server} {f : Frame} {s s' : Session} (h : command f ≠ .send)
    (hc : s'.connected = true) (effs : List Effect) (ht : s'.trace = s.trace ++ effs)
    (hw : written effs = []) (hcalls : calls effs = []) : Acts srv f s s' [] where
  connected := hc
  effects := ⟨effs, ht, by simpa using hw, by simpa [callsOf, requestOf_of_not_send h] using hcalls⟩
  answered := answered_nil fun req i hreq => by simp [requestOf_of_not_send h] at hreq
  encodable := by simp

/-- Replying, after the calls the frame asks for. -/
theorem acts_of_reply {srv : Server} {f : Frame} {s s' : Session} {r : Response}
    (hf : command f = .send) (hc : s'.connected = true) (effs : List Effect)
    (ht : s'.trace = s.trace ++ effs) (hw : written effs = []) (hcalls : calls effs = callsOf srv f)
    (hr : ∀ req i, requestOf srv f = some req → req.id = some i → Response.Carries r.toJson i) :
    Acts srv f s (s'.write (replyFrame srv s' f r)) [replyFrame srv s' f r] where
  connected := hc
  effects := by
    refine ⟨effs ++ [.write (replyFrame srv s' f r).toBytes], ?_, ?_, ?_⟩
    · simp [Session.write, Session.log, ht]
    · rw [written_append, hw]
      simp [written]
    · rw [calls_append, hcalls]
      simp [calls]
  answered := answered_replyFrame hf hr
  encodable m hm := by
    obtain rfl := List.mem_singleton.mp hm
    exact message_encodable _ _ _

/-- `handle_stomp_send` never ends the session: one call if the body is a request, and at most one
reply. -/
theorem handleStompSend_acts (srv : Server) {s : Session} {f : Frame} (hs : s.connected = true)
    (hf : command f = .send) :
    ∃ s' replies, handleStompSend srv s f = .next s' ∧ Acts srv f s s' replies := by
  unfold handleStompSend
  cases hbody : fromUtf8 f.body.1 with
  | error e =>
    have hreq : requestOf srv f = none := by simp [requestOf, hf, hbody]
    exact ⟨s, [], rfl, hs, ⟨[], by simp, by simp [written], by simp [calls, callsOf, hreq]⟩,
      answered_nil (by simp [hreq]), by simp⟩
  | ok body =>
    cases hparse : srv.fromStr body with
    | error e =>
      have hreq : requestOf srv f = none := by
        simp [requestOf, hf, hbody, hparse, Except.toOption]
      simp only [hparse, sendReply_eq]
      exact ⟨_, _, rfl, acts_of_reply hf hs [] (by simp) (by simp [written])
        (by simp [calls, callsOf, hreq]) (by simp [hreq])⟩
    | ok req =>
      have hreq : requestOf srv f = some req := by
        simp [requestOf, hf, hbody, hparse, Except.toOption]
      have hcalls : calls [.invoke req.method req.params] = callsOf srv f := by
        simp [calls, callsOf, hreq]
      have hid : ∀ req' i, requestOf srv f = some req' → req'.id = some i → req.id = some i := by
        intro req' i hreq' hi
        obtain rfl : req = req' := by simpa [hreq] using hreq'
        exact hi
      simp only [hparse, finishSend]
      split
      · -- a notification whose verb succeeded
        rename_i hnote
        refine ⟨_, [], rfl, hs, ⟨_, rfl, by simp [written], hcalls⟩, answered_nil ?_, by simp⟩
        intro req' i hreq' hi
        simp [hid req' i hreq' hi] at hnote
      · simp only [sendReply_eq]
        refine ⟨_, _, rfl, acts_of_reply hf hs _ rfl (by simp [written]) hcalls ?_⟩
        intro req' i hreq' hi
        rw [hid req' i hreq' hi]
        exact carries_responseTo i _

/-- One live frame of a connected session. -/
theorem handleFrame_live (srv : Server) {s : Session} {f : Frame} (hs : s.connected = true)
    (hf : endsSession true (command f) = false) :
    ∃ s' replies, handleFrame srv s f = .next s' ∧ Acts srv f s s' replies := by
  have hpast : ¬ (!s.connected ∧ command f ≠ .connect) := by simp [hs]
  unfold handleFrame
  rw [if_neg hpast]
  cases hcmd : command f with
  | connect => simp [hcmd, endsSession] at hf
  | disconnect => simp [hcmd, endsSession] at hf
  | send => exact handleStompSend_acts srv hs hcmd
  | subscribe =>
    exact ⟨_, [], rfl,
      acts_of_not_send (by simp [hcmd]) hs _ rfl (by simp [written]) (by simp [calls])⟩
  | unsubscribe =>
    cases hid : f.header "id" with
    | none =>
      exact ⟨s, [], rfl,
        acts_of_not_send (by simp [hcmd]) hs [] (by simp) (by simp [written]) (by simp [calls])⟩
    | some id =>
      exact ⟨_, [], rfl,
        acts_of_not_send (by simp [hcmd]) hs _ rfl (by simp [written]) (by simp [calls])⟩
  | other =>
    exact ⟨s, [], rfl,
      acts_of_not_send (by simp [hcmd]) hs [] (by simp) (by simp [written]) (by simp [calls])⟩

/-! ## Whole runs -/

/-- What a run of live frames does to a connected session. -/
structure Ran (srv : Server) (frames : List Frame) (s s' : Session)
    (replies : List (List Frame)) : Prop where
  effects : ∃ effs, s'.trace = s.trace ++ effs ∧
    written effs = replies.flatten.flatMap Frame.toBytes ∧
    calls effs = frames.flatMap (callsOf srv)
  answered : List.Forall₂ (Answered srv) frames replies
  encodable : ∀ m ∈ replies.flatten, m.Encodable

/-- A session that got no frame has answered none. -/
theorem Ran.nil (srv : Server) (s : Session) : Ran srv [] s s [] where
  effects := ⟨[], by simp, by simp [written], by simp [calls]⟩
  answered := .nil
  encodable := by simp

/-- Frames are answered one after the other. -/
theorem Ran.cons {srv : Server} {f : Frame} {fs : List Frame} {s s' s'' : Session}
    {rs : List Frame} {replies : List (List Frame)} (h : Acts srv f s s' rs)
    (h' : Ran srv fs s' s'' replies) : Ran srv (f :: fs) s s'' (rs :: replies) where
  effects := by
    obtain ⟨effs, ht, hw, hc⟩ := h.effects
    obtain ⟨effs', ht', hw', hc'⟩ := h'.effects
    refine ⟨effs ++ effs', ?_, ?_, ?_⟩
    · rw [ht', ht, List.append_assoc]
    · rw [written_append, hw, hw', List.flatten_cons, List.flatMap_append]
    · rw [calls_append, hc, hc', List.flatMap_cons]
  answered := .cons h.answered h'.answered
  encodable m hm := by
    rw [List.flatten_cons, List.mem_append] at hm
    rcases hm with hrs | hreplies
    · exact h.encodable m hrs
    · exact h'.encodable m hreplies

/-- The end of a session: nothing, or one more frame. -/
structure Closes (connected : Bool) (s s' : Session) (closing : List Frame) : Prop where
  trace : s'.trace = s.trace ++ closing.map fun f => .write f.toBytes
  shape : closing = [] ∨ ∃ x, closing = [x] ∧ x.Encodable ∧
    (x.command = "ERROR" ∨ connected = true ∧ x.command = "RECEIPT")

/-- A refusal closes the session with an error frame. -/
theorem refuse_closes (connected : Bool) (s : Session) (message body : String) :
    ∃ closing, Closes connected s (refuse s message body).1 closing := by
  unfold refuse
  cases herr : Build.error message body with
  | none => exact ⟨[], by simp, .inl rfl⟩
  | some e =>
    obtain ⟨henc, hcmd⟩ := error_spec herr
    exact ⟨[e], rfl, .inr ⟨e, rfl, henc, .inl hcmd⟩⟩

/-- A frame that ends the session. -/
theorem handleFrame_ends (srv : Server) (s : Session) (f : Frame)
    (hf : endsSession s.connected (command f) = true) :
    ∃ r closing, handleFrame srv s f = .halt r ∧ Closes s.connected s r.1 closing := by
  unfold handleFrame
  split
  · obtain ⟨closing, h⟩ := refuse_closes s.connected s "expected CONNECT" ""
    exact ⟨_, closing, rfl, h⟩
  · rename_i hpast
    have hconn : command f = .connect ∨ s.connected = true := by
      cases hc : s.connected with
      | false => exact .inl (by simpa [hc] using hpast)
      | true => exact .inr rfl
    cases hcmd : command f with
    | connect =>
      have hs : s.connected = true := by simpa [hcmd, endsSession] using hf
      rw [if_pos hs]
      obtain ⟨closing, h⟩ := refuse_closes s.connected s "already connected" ""
      exact ⟨_, closing, rfl, h⟩
    | disconnect =>
      have hs : s.connected = true := by simpa [hcmd] using hconn
      cases hid : f.header "receipt" with
      | none => exact ⟨_, [], rfl, by simp, .inl rfl⟩
      | some id =>
        exact ⟨_, [Build.receipt id], rfl, rfl,
          .inr ⟨_, rfl, receipt_encodable id, .inr ⟨hs, rfl⟩⟩⟩
    | _ =>
      have hs : s.connected = true := by simpa [hcmd] using hconn
      simp [hcmd, hs, endsSession] at hf

/-- From a connected session, the live frames run, and the frame after them, if there is one,
closes. -/
theorem feed_connected (srv : Server) {s : Session} (frames : List Frame)
    (hs : s.connected = true) :
    ∃ s' replies, Ran srv (liveFrames true frames) s s' replies ∧
      ((liveFrames true frames = frames ∧ feed (handleFrame srv) s frames = .next s') ∨
        ∃ r closing, feed (handleFrame srv) s frames = .halt r ∧ Closes true s' r.1 closing) := by
  induction frames generalizing s with
  | nil => exact ⟨s, [], Ran.nil srv s, .inl ⟨rfl, rfl⟩⟩
  | cons f fs ih =>
    rw [liveFrames, feed]
    by_cases hf : endsSession true (command f) = true
    · obtain ⟨r, closing, hhalt, hcl⟩ := handleFrame_ends srv s f (hs ▸ hf)
      rw [if_pos hf, hhalt]
      exact ⟨s, [], Ran.nil srv s, .inr ⟨r, closing, rfl, hs ▸ hcl⟩⟩
    · obtain ⟨s', rs, hnext, hacts⟩ := handleFrame_live srv hs (by simpa using hf)
      rw [if_neg hf, hnext]
      obtain ⟨s'', replies, hran, hend⟩ := ih hacts.connected
      refine ⟨s'', rs :: replies, hran.cons hacts, ?_⟩
      rcases hend with ⟨hall, hfeed⟩ | hclosed
      · exact .inl ⟨by rw [hall], hfeed⟩
      · exact .inr hclosed

/-- The `CONNECTED` frame of a session. -/
def helloFrame (srv : Server) : Frame :=
  Build.connected "1.2" serverId (some s!"vdsm-rs-{srv.peer}")

/-- The first frame of a session that goes on is a CONNECT, and it is greeted. -/
theorem handleFrame_connect (srv : Server) {s : Session} {f : Frame} (hs : s.connected = false)
    (hf : endsSession false (command f) ≠ true) :
    command f = .connect ∧
      handleFrame srv s f = .next { s.write (helloFrame srv) with connected := true } := by
  have hcmd : command f = .connect := by
    revert hf
    cases command f <;> simp [endsSession]
  exact ⟨hcmd, by simp [handleFrame, hcmd, hs, helloFrame]⟩

/-- The session after its handshake. -/
def helloSession (srv : Server) : Session :=
  { Session.init.write (helloFrame srv) with connected := true }

/-- How a whole connection goes: it is closed before the handshake, or it is connected, runs the
live frames and is closed or runs out of input. -/
inductive Course (srv : Server) (frames : List Frame) (s : Session) : Prop where
  | refused (closing : List Frame) (hlive : liveFrames false frames = [])
      (hclose : Closes false Session.init s closing)
  | served (hello : Frame) (live : List Frame) (s' : Session) (replies : List (List Frame))
      (closing : List Frame) (hlive : liveFrames false frames = hello :: live)
      (hhello : command hello = .connect) (hran : Ran srv live (helloSession srv) s' replies)
      (hclose : Closes true s' s closing)

/-- A session may close without a word. -/
theorem Closes.refl (connected : Bool) (s : Session) : Closes connected s s [] :=
  ⟨by simp, .inl rfl⟩

/-- What follows the last frame: the end of input, or a parse error. -/
theorem serveReceived_of_next {srv : Server} (frames : List Frame) {s : Session}
    (h : feed (handleFrame srv) Session.init frames = .next s) (err : Option ParseError)
    (connected : Bool) : ∃ closing, Closes connected s (serveReceived srv frames err).1 closing := by
  rw [serveReceived, h]
  cases err with
  | none => exact ⟨[], .refl connected s⟩
  | some e => exact refuse_closes connected s _ _

/-- Whatever is received, a session answers frames up to a point and closes. -/
theorem serveReceived_course (srv : Server) (frames : List Frame) (err : Option ParseError) :
    Course srv frames (serveReceived srv frames err).1 := by
  cases frames with
  | nil =>
    have hfeed : feed (handleFrame srv) Session.init [] = .next Session.init := rfl
    obtain ⟨closing, hcl⟩ := serveReceived_of_next [] hfeed err false
    exact .refused closing rfl hcl
  | cons f fs =>
    by_cases hf : endsSession false (command f) = true
    · obtain ⟨r, closing, hhalt, hcl⟩ := handleFrame_ends srv Session.init f hf
      have hrun : serveReceived srv (f :: fs) err = r := by
        simp [serveReceived, feed, hhalt]
      rw [hrun]
      exact .refused closing (by simp [liveFrames, hf]) hcl
    · obtain ⟨hcmd, hfirst⟩ := handleFrame_connect srv (s := Session.init) rfl hf
      have hlive : liveFrames false (f :: fs) = f :: liveFrames true fs := by
        simp [liveFrames, hcmd, endsSession]
      have hfeed : feed (handleFrame srv) Session.init (f :: fs)
          = feed (handleFrame srv) (helloSession srv) fs := by
        rw [feed, hfirst]
        rfl
      obtain ⟨s', replies, hran, ⟨-, hnext⟩ | ⟨r, closing, hhalt, hcl⟩⟩ :=
        feed_connected srv (s := helloSession srv) fs rfl
      · obtain ⟨closing, hcl⟩ := serveReceived_of_next (f :: fs) (hfeed.trans hnext) err true
        exact .served f _ s' replies closing hlive hcmd hran hcl
      · have hrun : serveReceived srv (f :: fs) err = r := by
          rw [serveReceived, hfeed, hhalt]
        rw [hrun]
        exact .served f _ s' replies closing hlive hcmd hran hcl

/-- A stream of representable frames decodes to them, with nothing left. -/
theorem drain_toBytes {fs : List Frame} (h : ∀ f ∈ fs, f.Encodable) :
    (drain stompDecoder collect [] (fs.flatMap Frame.toBytes) : End UInt8 ParseError _ Empty)
      = .starved fs [] := by
  have hcut := cutMany_flatMap (d := stompDecoder) Frame.toBytes id fs
    (fun f hf r => parseFrame_toBytes (h f hf) [] r) []
  rw [List.append_nil, List.map_id] at hcut
  exact drain_collect_of_cutMany hcut rfl

/-- What a closing session writes are its closing frames. -/
theorem Closes.written {connected : Bool} {s s' : Session} {closing : List Frame}
    (h : Closes connected s s' closing) :
    written s'.trace = written s.trace ++ closing.flatMap Frame.toBytes := by
  rw [h.trace, written_append]
  congr 1
  simp [Rpc.written, List.flatMap_map]

/-- It calls nothing. -/
theorem Closes.calls {connected : Bool} {s s' : Session} {closing : List Frame}
    (h : Closes connected s s' closing) : calls s'.trace = calls s.trace := by
  rw [h.trace, calls_append]
  simp [Rpc.calls, List.filterMap_map]

/-- Its closing frames can be sent. -/
theorem Closes.encodable {connected : Bool} {s s' : Session} {closing : List Frame}
    (h : Closes connected s s' closing) : ∀ f ∈ closing, f.Encodable := by
  intro f hf
  rcases h.shape with rfl | ⟨x, rfl, henc, -⟩
  · simp at hf
  · obtain rfl := List.mem_singleton.mp hf
    exact henc

/-- The replies to requests are messages. -/
theorem command_of_answered {srv : Server} {frames : List Frame} {replies : List (List Frame)}
    (h : List.Forall₂ (Answered srv) frames replies) :
    ∀ m ∈ replies.flatten, m.command = "MESSAGE" := by
  induction h with
  | nil => simp
  | cons hfirst _ ih =>
    intro m hm
    rw [List.flatten_cons, List.mem_append] at hm
    rcases hm with hm | hm
    · exact hfirst.message m hm
    · exact ih m hm

/-- The bytes of a connection decode to a conversation that answers the live frames in order. -/
theorem Course.conversation {srv : Server} {frames : List Frame} {s : Session}
    (h : Course srv frames s) :
    ∃ out replies, drain stompDecoder collect [] (written s.trace) = .starved out [] ∧
      Conversation out replies.flatten ∧
      List.Forall₂ (Answered srv) (liveFrames false frames) replies := by
  cases h with
  | refused closing hlive hclose =>
    refine ⟨closing, [], ?_, .inl ⟨rfl, ?_⟩, by rw [hlive]; exact .nil⟩
    · rw [hclose.written]
      exact drain_toBytes hclose.encodable
    · rcases hclose.shape with hnil | ⟨x, hx, -, hcmd⟩
      · exact .inl hnil
      · exact .inr ⟨x, hx, by simpa using hcmd⟩
  | served hello live s' replies closing hlive hhello hran hclose =>
    obtain ⟨effs, ht, hw, -⟩ := hran.effects
    have hbytes : written s.trace
        = (helloFrame srv :: (replies.flatten ++ closing)).flatMap Frame.toBytes := by
      rw [hclose.written, ht, written_append, hw]
      simp [helloSession, Session.write, Session.log, Session.init, written]
    refine ⟨helloFrame srv :: (replies.flatten ++ closing), [] :: replies, ?_, .inr ?_, ?_⟩
    · rw [hbytes]
      refine drain_toBytes fun f hf => ?_
      rcases List.mem_cons.mp hf with rfl | hf
      · exact connected_encodable _ _ _
      rcases List.mem_append.mp hf with hf | hf
      · exact hran.encodable f hf
      · exact hclose.encodable f hf
    · refine ⟨helloFrame srv, closing, rfl, rfl,
        fun m hm => command_of_answered hran.answered m hm, ?_⟩
      rcases hclose.shape with hnil | ⟨x, hx, -, hcmd⟩
      · exact .inl hnil
      · exact .inr ⟨x, hx, by simpa using hcmd⟩
    · rw [hlive]
      refine .cons (answered_nil ?_) hran.answered
      intro req i hreq
      simp [requestOf, hhello] at hreq

/-- The dispatcher is called once for each request among the live frames, in order. -/
theorem Course.calls_eq {srv : Server} {frames : List Frame} {s : Session}
    (h : Course srv frames s) : calls s.trace = (liveFrames false frames).flatMap (callsOf srv) := by
  cases h with
  | refused closing hlive hclose =>
    rw [hclose.calls, hlive]
    rfl
  | served hello live s' replies closing hlive hhello hran hclose =>
    obtain ⟨effs, ht, -, hc⟩ := hran.effects
    have hnone : callsOf srv hello = [] := by simp [callsOf, requestOf, hhello]
    rw [hclose.calls, ht, calls_append, hc, hlive, List.flatMap_cons, hnone]
    rfl

/-- Whatever is not a write comes after the `CONNECTED` frame. -/
theorem Course.action_after_connected {srv : Server} {frames : List Frame} {s : Session}
    (h : Course srv frames s) {past rest : List Effect} {e : Effect}
    (ht : s.trace = past ++ e :: rest) (he : e.isAction = true) :
    ∃ c : Frame, c.command = "CONNECTED" ∧ Effect.write c.toBytes ∈ past := by
  cases h with
  | refused closing hlive hclose =>
    have hmem : e ∈ closing.map fun f => Effect.write f.toBytes := by
      have htrace := hclose.trace
      rw [show Session.init.trace = [] from rfl, List.nil_append] at htrace
      rw [← htrace, ht]
      simp
    obtain ⟨f, -, rfl⟩ := List.mem_map.mp hmem
    simp [Effect.isAction] at he
  | served hello live s' replies closing hlive hhello hran hclose =>
    obtain ⟨effs, ht', -, -⟩ := hran.effects
    refine ⟨helloFrame srv, rfl, ?_⟩
    -- the first effect of a served session is the write of `CONNECTED`
    rw [hclose.trace, ht', show (helloSession srv).trace = [.write (helloFrame srv).toBytes] from rfl,
      List.append_assoc, List.singleton_append] at ht
    cases past with
    | nil =>
      obtain ⟨rfl, -⟩ := List.cons.inj ht
      simp [Effect.isAction] at he
    | cons e' past =>
      obtain ⟨rfl, -⟩ := List.cons.inj ht
      simp

/-- A frame that does not end the session leaves it connected. -/
theorem handleFrame_next (srv : Server) {s : Session} {f : Frame}
    (hf : endsSession s.connected (command f) ≠ true) :
    ∃ s', handleFrame srv s f = .next s' ∧ s'.connected = true := by
  cases hs : s.connected with
  | true =>
    obtain ⟨s', rs, hnext, hacts⟩ := handleFrame_live srv hs (by simpa [hs] using hf)
    exact ⟨s', hnext, hacts.connected⟩
  | false =>
    obtain ⟨-, hnext⟩ := handleFrame_connect srv hs (hs ▸ hf)
    exact ⟨_, hnext, rfl⟩

/-- A frame that is not live was preceded by one that ended the session. -/
theorem feed_ended (srv : Server) (frames : List Frame) (s : Session)
    (h : liveFrames s.connected frames ≠ frames) :
    ∃ r, feed (handleFrame srv) s frames = .halt r := by
  induction frames generalizing s with
  | nil => exact absurd rfl h
  | cons f fs ih =>
    by_cases hf : endsSession s.connected (command f) = true
    · obtain ⟨r, -, hhalt, -⟩ := handleFrame_ends srv s f hf
      exact ⟨r, by simp [feed, hhalt]⟩
    · obtain ⟨s', hnext, hs'⟩ := handleFrame_next srv hf
      have hlive : liveFrames s'.connected fs ≠ fs := by
        intro heq
        rw [hs'] at heq
        exact h (by rw [liveFrames, if_neg hf, heq])
      simpa only [feed, hnext] using ih s' hlive

/-- STOMP session protocol over whole runs. Whatever frames a connection receives, and whatever the
dispatcher and the peer's headers, the bytes it writes decode to a conversation whose messages
answer the live frames in order; the dispatcher is called once for each request among them, in
order; nothing but a write comes before `CONNECTED`; and nothing that follows a frame that ends the
session, or a malformed one, changes anything. -/
theorem session_protocol (srv : Server) (chunks : List (List UInt8)) (frames : List Frame)
    (err : Option ParseError) (h : Received chunks frames err) :
    let t := (serveStomp srv chunks).1.trace
    (∃ out replies, drain stompDecoder collect [] (written t) = .starved out [] ∧
        Conversation out replies.flatten ∧
        List.Forall₂ (Answered srv) (liveFrames false frames) replies) ∧
      calls t = (liveFrames false frames).flatMap (callsOf srv) ∧
      (∀ past e rest, t = past ++ e :: rest → e.isAction = true →
        ∃ c : Frame, c.command = "CONNECTED" ∧ Effect.write c.toBytes ∈ past) ∧
      (liveFrames false frames ≠ frames → ∀ chunks' frames' err',
        Received chunks' frames' err' → frames <+: frames' →
        serveStomp srv chunks' = serveStomp srv chunks) ∧
      (err ≠ none → ∀ more, serveStomp srv (chunks ++ more) = serveStomp srv chunks) := by
  have hcourse : Course srv frames (serveStomp srv chunks).1 := by
    rw [serveStomp_eq_serveReceived srv h]
    exact serveReceived_course srv frames err
  refine ⟨hcourse.conversation, hcourse.calls_eq,
    fun past e rest ht he => hcourse.action_after_connected ht he, ?_, ?_⟩
  · rintro hended chunks' frames' err' h' ⟨post, rfl⟩
    obtain ⟨r, hr⟩ := feed_ended srv frames Session.init hended
    have hpost : feed (handleFrame srv) Session.init (frames ++ post) = .halt r := by
      rw [feed_append, hr]
    rw [serveStomp_eq_serveReceived srv h, serveStomp_eq_serveReceived srv h', serveReceived,
      serveReceived, hr, hpost]
  · intro herr more
    obtain ⟨e, rfl⟩ := Option.ne_none_iff_exists'.mp herr
    have hmore : Received (chunks ++ more) frames (some e) :=
      readLoop_append_of_failed h more
    rw [serveStomp_eq_serveReceived srv h, serveStomp_eq_serveReceived srv hmore]

/-- Every list of representable frames can be received. -/
theorem received_toBytes {fs : List Frame} (hne : fs ≠ []) (h : ∀ f ∈ fs, f.Encodable) :
    Received [fs.flatMap Frame.toBytes] fs none := by
  have hbytes : fs.flatMap Frame.toBytes ≠ [] := by
    obtain ⟨f, fs', rfl⟩ := List.exists_cons_of_ne_nil hne
    simp [Frame.toBytes]
  refine ⟨[], ?_⟩
  rw [delivered, stomp_readLoop_eq_drain _ _ _ (by simpa using hbytes), List.flatten_singleton]
  exact drain_toBytes h

/-- A server with one verb, and JSON as `serde_json` reads and writes it on the session below. -/
def pingServer : Server where
  peer := "[::1]:54321"
  dispatcher := ⟨fun method => if method = "Host.ping2" then some fun _ _ => .ok (.bool true) else none⟩
  fromStr text :=
    if text = "\x7b\"jsonrpc\":\"2.0\",\"method\":\"Host.ping2\",\"params\":\x7b\x7d,\"id\":\"7\"\x7d" then
      .ok ⟨"2.0", "Host.ping2", .object [], some (.string "7")⟩
    else .error "expected value at line 1 column 1"
  toVec _ := ⟨asBytes "\x7b\"jsonrpc\":\"2.0\",\"id\":\"7\",\"result\":true\x7d", by decide⟩
  order _ m := m.toPairs
  order_perm _ _ := .refl _

/-- A handshake, a request with an LF in its `reply-to`, a second handshake, and a request that is
too late. -/
def pingFrames : List Frame :=
  let request := (Frame.new "SEND").withHeader "reply-to" "a\nMESSAGE" |>.withBody
    ⟨asBytes "\x7b\"jsonrpc\":\"2.0\",\"method\":\"Host.ping2\",\"params\":\x7b\x7d,\"id\":\"7\"\x7d",
      by decide⟩
  [Frame.new "CONNECT", request, Frame.new "STOMP", request]

/-- A client that connects, pings and leaves: one call. -/
theorem session_protocol_ping :
    Received [pingFrames.flatMap Frame.toBytes] pingFrames none ∧
      calls (serveStomp pingServer [pingFrames.flatMap Frame.toBytes]).1.trace
        = [("Host.ping2", .object [])] := by
  have hreceived : Received [pingFrames.flatMap Frame.toBytes] pingFrames none := by
    refine received_toBytes (by decide) fun f hf => ?_
    simp only [pingFrames, List.mem_cons, List.not_mem_nil, or_false] at hf
    rcases hf with rfl | rfl | rfl | rfl
    · exact ⟨by decide, by decide, by decide, by decide⟩
    · exact ⟨by decide, by decide, by decide, by decide⟩
    · exact ⟨by decide, by decide, by decide, by decide⟩
    · exact ⟨by decide, by decide, by decide, by decide⟩
  exact ⟨hreceived, (session_protocol pingServer _ pingFrames none hreceived).2.1⟩

end Vdsm.Rpc
