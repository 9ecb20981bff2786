import Vdsm.Rpc.Session

/-!
# Line framing (`process_one` in `vdsm-rpc/src/server.rs`)

In line framing a request is answered by `process_one`, over STOMP by `handle_stomp_send`. Both stay
silent on a notification, but the first looks at the id alone and the second also at the outcome of
the verb. `answers_alike_iff` compares what the two send: they differ on exactly the notifications
whose verb fails.
-/

namespace Vdsm.Rpc

open Rust Stomp Framing

/-- `process_one`: the response, and the trace with the dispatcher call. -/
def processOne (srv : Server) (past : List Effect) (line : String) :
    Option Response × List Effect :=
  match srv.fromStr line with
  | .error e => (some (.err none (.parseError s!"invalid JSON-RPC envelope: {e}")), past)
  | .ok req =>
    let result := srv.dispatcher.invoke past req.method req.params
    let past := past ++ [.invoke req.method req.params]
    if req.id.isNone then (none, past) else (some (responseTo req.id result), past)

/-! ## What the two framings send -/

/-- `handle_stomp_send` writes nothing, or one `MESSAGE` with the response as its body. -/
def Sends (srv : Server) (s : Session) (frame : Frame) (response : Option Response) : Prop :=
  ∃ s' effs, handleStompSend srv s frame = .next s' ∧ s'.trace = s.trace ++ effs ∧
    match response with
    | none => written effs = []
    | some r => ∃ dest sub, written effs = (Build.message dest sub (srv.toVec r.toJson)).toBytes

/-- Both framings stay silent on a text, or both send a response with the same id, result and error. -/
def AnswerAlike (srv : Server) (s : Session) (frame : Frame) (text : String) : Prop :=
  ((processOne srv s.trace text).1 = none ∧ Sends srv s frame none) ∨
    ∃ r r', (processOne srv s.trace text).1 = some r ∧ Sends srv s frame (some r') ∧
      r.id = r'.id ∧ r.result = r'.result ∧ r.error = r'.error

/-- The text is a request without an id whose verb is unknown or fails. -/
def FailedNotification (srv : Server) (past : List Effect) (text : String) : Prop :=
  ∃ req e, srv.fromStr text = .ok req ∧ req.id = none ∧
    srv.dispatcher.invoke past req.method req.params = .error e

/-- No frame is encoded as nothing. -/
theorem toBytes_ne_nil (f : Frame) : f.toBytes ≠ [] := by
  simp [Frame.toBytes]

/-- Nothing but a reply is written, and a reply is never empty: silence and a response exclude each
other. -/
theorem Sends.not_some {srv : Server} {s : Session} {frame : Frame} {r : Response}
    (h : Sends srv s frame none) : ¬ Sends srv s frame (some r) := by
  obtain ⟨s', effs, hnext, htrace, hnone⟩ := h
  rintro ⟨s'', effs', hnext', htrace', dest, sub, hsome⟩
  obtain rfl : s' = s'' := by simpa [hnext] using hnext'
  obtain rfl : effs = effs' := by simpa [htrace] using htrace'
  exact toBytes_ne_nil _ (hsome.symm.trans hnone)

/-- A reply to a session that has logged at most a call since. -/
theorem sends_reply {srv : Server} {s : Session} {frame : Frame} {r : Response} (s' : Session)
    (effs : List Effect) (h : handleStompSend srv s frame = sendReply srv s' frame r)
    (htrace : s'.trace = s.trace ++ effs) (hw : written effs = []) :
    Sends srv s frame (some r) := by
  rw [sendReply_eq] at h
  refine ⟨_, effs ++ [.write (replyFrame srv s' frame r).toBytes], h, ?_, ?_⟩
  · simp [Session.write, Session.log, htrace]
  · have hone : written (effs ++ [.write (replyFrame srv s' frame r).toBytes])
        = (replyFrame srv s' frame r).toBytes := by
      rw [written_append, hw]
      simp [written]
    exact ⟨_, _, hone⟩

/-- A body that is no request is answered alike. -/
theorem sends_of_parse_error {srv : Server} {s : Session} {frame : Frame} {text e : String}
    (hbody : fromUtf8 frame.body.1 = .ok text) (hparse : srv.fromStr text = .error e) :
    Sends srv s frame (some (.err none (.parseError s!"invalid JSON-RPC envelope: {e}"))) := by
  refine sends_reply s [] ?_ (by simp) (by simp [written])
  simp only [handleStompSend, hbody, hparse]

/-- A notification whose verb succeeds is not answered. -/
theorem sends_none {srv : Server} {s : Session} {frame : Frame} {text : String} {req : Request}
    {value : Value} (hbody : fromUtf8 frame.body.1 = .ok text) (hparse : srv.fromStr text = .ok req)
    (hid : req.id = none)
    (hok : srv.dispatcher.invoke s.trace req.method req.params = .ok value) :
    Sends srv s frame none := by
  refine ⟨s.log (.invoke req.method req.params), [.invoke req.method req.params], ?_, rfl,
    by simp [written]⟩
  simp [handleStompSend, finishSend, hbody, hparse, hid, hok, responseTo, Response.ok]

/-- Every other request is answered with what its verb returned. -/
theorem sends_response {srv : Server} {s : Session} {frame : Frame} {text : String} {req : Request}
    (hbody : fromUtf8 frame.body.1 = .ok text) (hparse : srv.fromStr text = .ok req)
    (h : req.id ≠ none ∨ ∃ e, srv.dispatcher.invoke s.trace req.method req.params = .error e) :
    Sends srv s frame
      (some (responseTo req.id (srv.dispatcher.invoke s.trace req.method req.params))) := by
  refine sends_reply (s.log (.invoke req.method req.params)) [.invoke req.method req.params] ?_ rfl
    (by simp [written])
  simp only [handleStompSend, finishSend, hbody, hparse]
  rw [if_neg]
  rintro ⟨hnone, hok⟩
  rcases h with hid | ⟨e, he⟩
  · exact hid (by simpa using hnone)
  · simp [he, responseTo, Response.err] at hok

/-- In line framing a request with an id is answered with what its verb returned. -/
theorem processOne_of_ok {srv : Server} {past : List Effect} {text : String} {req : Request}
    (h : srv.fromStr text = .ok req) :
    (processOne srv past text).1 = (if req.id.isNone then none else
        some (responseTo req.id (srv.dispatcher.invoke past req.method req.params))) ∧
      (processOne srv past text).2 = past ++ [.invoke req.method req.params] := by
  simp only [processOne, h]
  split <;> exact ⟨rfl, rfl⟩

/-- The two framings answer a text alike exactly when it is not a notification whose verb fails. Line
framing never answers a notification; STOMP stays silent exactly when the verb succeeds. -/
theorem answers_alike_iff (srv : Server) (s : Session) (frame : Frame) (text : String)
    (hbody : frame.body.1 = asBytes text) :
    (AnswerAlike srv s frame text ↔ ¬ FailedNotification srv s.trace text) ∧
      ∀ req, srv.fromStr text = .ok req → req.id = none →
        (processOne srv s.trace text).1 = none ∧
          (Sends srv s frame none ↔
            ∃ value, srv.dispatcher.invoke s.trace req.method req.params = .ok value) := by
  have hutf8 : fromUtf8 frame.body.1 = .ok text := by rw [hbody, fromUtf8_asBytes]
  refine ⟨⟨?_, ?_⟩, ?_⟩
  · rintro halike ⟨req, e, hparse, hid, herr⟩
    have hline : (processOne srv s.trace text).1 = none := by simp [processOne_of_ok hparse, hid]
    have hstomp := sends_response hutf8 hparse (.inr ⟨e, herr⟩)
    rcases halike with ⟨-, hnone⟩ | ⟨r, r', hr, -⟩
    · exact hnone.not_some hstomp
    · simp [hline] at hr
  · intro hnot
    cases hparse : srv.fromStr text with
    | error e =>
      exact .inr ⟨_, _, by simp only [processOne, hparse], sends_of_parse_error hutf8 hparse,
        rfl, rfl, rfl⟩
    | ok req =>
      cases hid : req.id with
      | some i =>
        refine .inr ⟨_, _, ?_, sends_response hutf8 hparse (.inl (by simp [hid])), rfl, rfl, rfl⟩
        simp [processOne_of_ok hparse, hid]
      | none =>
        cases hres : srv.dispatcher.invoke s.trace req.method req.params with
        | error e => exact absurd ⟨req, e, hparse, hid, hres⟩ hnot
        | ok value =>
          exact .inl ⟨by simp [processOne_of_ok hparse, hid], sends_none hutf8 hparse hid hres⟩
  · intro req hparse hid
    refine ⟨by simp [processOne_of_ok hparse, hid], ?_, ?_⟩
    · intro hnone
      cases hres : srv.dispatcher.invoke s.trace req.method req.params with
      | ok value => exact ⟨value, rfl⟩
      | error e => exact absurd (sends_response hutf8 hparse (.inr ⟨e, hres⟩)) hnone.not_some
    · rintro ⟨value, hok⟩
      exact sends_none hutf8 hparse hid hok

/-- A request without an id, for a verb the server does not have. -/
def lostNotification : String := "\x7b\"method\":\"Host.nope\"\x7d"

/-- The error for it, as `serde_json` writes it. -/
def lostReply : String :=
  "\x7b\"jsonrpc\":\"2.0\",\"error\":\x7b\"code\":-32601," ++
    "\"message\":\"Method not found: Host.nope\"\x7d\x7d"

/-- The text of a reply that could not be serialised fits into a buffer. -/
theorem lostReply_fits : (asBytes lostReply).length ≤ isizeMax := by decide

/-- A server without verbs, and JSON as `serde_json` reads and writes it below. -/
def noVerbs : Server :=
  { pingServer with
    dispatcher := ⟨fun _ => none⟩
    fromStr := fun text =>
      if text = lostNotification then .ok ⟨"", "Host.nope", .null, none⟩
      else .error "expected value at line 1 column 1"
    toVec := fun _ => ⟨asBytes lostReply, lostReply_fits⟩ }

/-- A `SEND` with that notification as its body. -/
def lostFrame : Frame := (Frame.new "SEND").withBody ⟨asBytes lostNotification, by decide⟩

/-- A request with an id. -/
def pingText : String :=
  "\x7b\"jsonrpc\":\"2.0\",\"method\":\"Host.ping2\",\"params\":\x7b\x7d,\"id\":\"7\"\x7d"

/-- A `SEND` with it as its body. -/
def pingFrame : Frame := (Frame.new "SEND").withBody ⟨asBytes pingText, by decide⟩

/-- A ping with an id gets its result on both transports. -/
theorem answers_alike_of_ping :
    (processOne pingServer [] pingText).1 = some (.ok (some (.string "7")) (.bool true)) ∧
      AnswerAlike pingServer .init pingFrame pingText := by
  have hparse : pingServer.fromStr pingText
      = .ok ⟨"2.0", "Host.ping2", .object [], some (.string "7")⟩ := rfl
  refine ⟨rfl, (answers_alike_iff pingServer .init pingFrame pingText rfl).1.mpr ?_⟩
  rintro ⟨req, e, hreq, hid, -⟩
  obtain rfl := Except.ok.inj (hparse.symm.trans hreq)
  cases hid

/-- Over STOMP an unknown verb is answered even without an id; in line framing it is not. -/
theorem lost_notification_answered : ¬ AnswerAlike noVerbs .init lostFrame lostNotification := by
  have hutf8 : fromUtf8 lostFrame.body.1 = .ok lostNotification :=
    fromUtf8_asBytes lostNotification
  have hparse : noVerbs.fromStr lostNotification = .ok ⟨"", "Host.nope", .null, none⟩ := by
    simp [noVerbs]
  have hline : (processOne noVerbs Session.init.trace lostNotification).1 = none := by
    simp [processOne_of_ok hparse]
  have hstomp := sends_response (s := .init) hutf8 hparse (.inr ⟨_, rfl⟩)
  rintro (⟨-, hnone⟩ | ⟨r, r', hr, -⟩)
  · exact hnone.not_some hstomp
  · simp [hline] at hr

end Vdsm.Rpc
