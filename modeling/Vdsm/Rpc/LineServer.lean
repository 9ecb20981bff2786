import Vdsm.Lib.ReadLine
import Vdsm.Rpc.Lines
import Mathlib.Data.List.TakeWhile
import Mathlib.Data.List.ReduceOption

/-!
# The line-framed connection (`serve_lines` in `vdsm-rpc/src/server.rs`)

`serveLines` is the loop of `serve_lines`: read a line, skip it when it is blank, answer it with
`process_one`, write the response as a line of its own. `serve_lines_protocol` is the protocol of a
whole connection: which lines are answered, with what, in which order, and that a client can cut the
responses out of the stream again.
-/

namespace Vdsm.Rpc

open Rust Framing ReadLine

/-- How `serve_lines` ends: at the end of the stream, or with the error of a line that is not UTF-8. -/
inductive LineExit where
  | returned
  | failed
deriving DecidableEq

/-- A response on the wire. -/
def responseLine (srv : Server) (r : Response) : List UInt8 := (srv.toVec r.toJson).1 ++ [newline]

/-- The body of the loop of `serve_lines`. -/
def handleLine (srv : Server) (t : List Effect) (bytes : List UInt8) :
    Flow (List Effect) (List Effect × LineExit) :=
  match fromUtf8 bytes with
  | .error _ => .halt (t, .failed)
  | .ok line =>
    let trimmed := trim line
    if trimmed = "" then .next t
    else
      let (response, t) := processOne srv t trimmed
      match response with
      | some resp => .next (t ++ [.write (responseLine srv resp)])
      | none => .next t

/-- `serve_lines`. -/
def serveLines (srv : Server) (chunks : List (List UInt8)) : List Effect × LineExit :=
  match readLines (handleLine srv) [] chunks with
  | .next t => (t, .returned)
  | .halt r => r

/-! ## Specification -/

/-- Is a line UTF-8? -/
def isText (bytes : List UInt8) : Bool := (fromUtf8 bytes).isOk

/-- What a line asks: nothing, if it is blank. -/
def lineText (bytes : List UInt8) : Option String :=
  (fromUtf8 bytes).toOption.bind fun line => if trim line = "" then none else some (trim line)

/-- The request of a line. -/
def lineRequest (srv : Server) (bytes : List UInt8) : Option Request :=
  (lineText bytes).bind fun text => (srv.fromStr text).toOption

/-- The response to a line, after what happened before it: none to a blank line or a notification, one
with its id and what its verb returned to a request, and one without an id to what is no request. -/
structure LineAnswered (srv : Server) (past : List Effect) (bytes : List UInt8)
    (reply : Option Response) : Prop where
  blank : lineText bytes = none → reply = none
  request : ∀ req i, lineRequest srv bytes = some req → req.id = some i →
    ∃ r, reply = some r ∧ Response.Carries r.toJson i ∧
      r = responseTo (some i) (srv.dispatcher.invoke past req.method req.params)
  notification : ∀ req, lineRequest srv bytes = some req → req.id = none → reply = none
  malformed : ∀ text, lineText bytes = some text → lineRequest srv bytes = none →
    ∃ r e, reply = some r ∧ r.id = none ∧ r.error = some e ∧ e.code = -32700

/-- The calls of a line. -/
def callsOfLine (srv : Server) (bytes : List UInt8) : List (String × Value) :=
  (lineRequest srv bytes).toList.map fun req => (req.method, req.params)

/-- What a line adds to the trace: its call, then its response. -/
def lineEffects (srv : Server) (bytes : List UInt8) (reply : Option Response) : List Effect :=
  ((callsOfLine srv bytes).map fun c => .invoke c.1 c.2) ++
    reply.toList.map fun r => .write (responseLine srv r)

/-- From one trace to another, lines are answered one after another, each after what happened before
it. -/
inductive LinesAnswered (srv : Server) :
    List Effect → List (List UInt8) → List (Option Response) → List Effect → Prop
  | nil {t} : LinesAnswered srv t [] [] t
  | cons {t bytes reply lines replies t'} (hline : LineAnswered srv t bytes reply)
      (hlines : LinesAnswered srv (t ++ lineEffects srv bytes reply) lines replies t') :
      LinesAnswered srv t (bytes :: lines) (reply :: replies) t'

/-- The response to a line. -/
def replyTo (srv : Server) (t : List Effect) (bytes : List UInt8) : Option Response :=
  (lineText bytes).bind fun text => (processOne srv t text).1

/-- A line of text is served trimmed, and not at all if nothing is left of it. -/
theorem lineText_of_ok {bytes : List UInt8} {line : String} (h : fromUtf8 bytes = .ok line) :
    lineText bytes = if trim line = "" then none else some (trim line) := by
  simp [lineText, h, Except.toOption]

/-- Bytes that decode are text. -/
theorem isText_of_ok {bytes : List UInt8} {line : String} (h : fromUtf8 bytes = .ok line) :
    isText bytes = true := by
  simp [isText, h, Except.isOk, Except.toBool]

/-- Bytes that do not decode are none. -/
theorem isText_of_error {bytes : List UInt8} {e : Utf8Error} (h : fromUtf8 bytes = .error e) :
    isText bytes = false := by
  simp [isText, h, Except.isOk, Except.toBool]

/-! ## One line -/

/-- The request of a line is what its text is read as. -/
theorem lineRequest_eq_some {srv : Server} {bytes : List UInt8} {req : Request} :
    lineRequest srv bytes = some req ↔
      ∃ text, lineText bytes = some text ∧ srv.fromStr text = .ok req := by
  rw [lineRequest, Option.bind_eq_some_iff]
  refine exists_congr fun text => and_congr_right fun _ => ?_
  cases srv.fromStr text <;> simp [Except.toOption]

/-- Every line is answered as it should be. -/
theorem lineAnswered_replyTo (srv : Server) (t : List Effect) (bytes : List UInt8) :
    LineAnswered srv t bytes (replyTo srv t bytes) where
  blank h := by simp [replyTo, h]
  request req i hreq hid := by
    obtain ⟨text, htext, hparse⟩ := lineRequest_eq_some.mp hreq
    refine ⟨_, ?_, carries_responseTo i (srv.dispatcher.invoke t req.method req.params), rfl⟩
    simp [replyTo, htext, processOne_of_ok hparse, hid]
  notification req hreq hid := by
    obtain ⟨text, htext, hparse⟩ := lineRequest_eq_some.mp hreq
    simp [replyTo, htext, processOne_of_ok hparse, hid]
  malformed text htext hnone := by
    cases hfrom : srv.fromStr text with
    | ok req => simp [lineRequest, htext, hfrom, Except.toOption] at hnone
    | error e =>
      have hreply : replyTo srv t bytes
          = some (.err none (.parseError s!"invalid JSON-RPC envelope: {e}")) := by
        simp only [replyTo, htext, Option.bind_some, processOne, hfrom]
      exact ⟨_, _, hreply, rfl, rfl, rfl⟩

/-- `process_one` makes the call of the line. -/
theorem processOne_trace (srv : Server) {bytes : List UInt8} {text : String} (t : List Effect)
    (h : lineText bytes = some text) :
    (processOne srv t text).2 = t ++ (callsOfLine srv bytes).map fun c => .invoke c.1 c.2 := by
  cases hfrom : srv.fromStr text with
  | error e => simp [processOne, callsOfLine, lineRequest, h, hfrom, Except.toOption]
  | ok req => simp [(processOne_of_ok hfrom).2, callsOfLine, lineRequest, h, hfrom, Except.toOption]

/-- The calls and the bytes among the effects of a line. -/
theorem calls_lineEffects (srv : Server) (bytes : List UInt8) (reply : Option Response) :
    calls (lineEffects srv bytes reply) = callsOfLine srv bytes ∧
      written (lineEffects srv bytes reply) = reply.toList.flatMap (responseLine srv) := by
  have hcalls : ∀ cs : List (String × Value),
      calls (cs.map fun c => Effect.invoke c.1 c.2) = cs ∧
        written (cs.map fun c => Effect.invoke c.1 c.2) = [] := by
    intro cs
    induction cs with
    | nil => exact ⟨rfl, rfl⟩
    | cons c cs ih => simpa [calls, written] using ih
  rw [lineEffects, calls_append, written_append, (hcalls _).1, (hcalls _).2]
  cases reply <;> simp [calls, written]

/-- A line that is UTF-8 makes its call and writes its response. -/
theorem handleLine_text (srv : Server) (t : List Effect) {bytes : List UInt8}
    (h : isText bytes = true) :
    handleLine srv t bytes = .next (t ++ lineEffects srv bytes (replyTo srv t bytes)) := by
  cases hline : fromUtf8 bytes with
  | error e => simp [isText_of_error hline] at h
  | ok line =>
    have htext := lineText_of_ok hline
    by_cases hblank : trim line = ""
    · rw [if_pos hblank] at htext
      simp [handleLine, hline, hblank, lineEffects, callsOfLine, lineRequest, replyTo, htext]
    · rw [if_neg hblank] at htext
      have hreply : replyTo srv t bytes = (processOne srv t (trim line)).1 := by
        rw [replyTo, htext, Option.bind_some]
      have htrace := processOne_trace srv t htext
      simp only [handleLine, hline, hblank, if_false]
      rw [lineEffects, hreply, ← List.append_assoc, ← htrace]
      cases (processOne srv t (trim line)).1 <;> simp

/-! ## The connection -/

/-- What is called and written for lines that are answered. -/
theorem LinesAnswered.traces {srv : Server} {t t' : List Effect} {lines : List (List UInt8)}
    {replies : List (Option Response)} (h : LinesAnswered srv t lines replies t') :
    calls t' = calls t ++ lines.flatMap (callsOfLine srv) ∧
      written t' = written t ++ replies.reduceOption.flatMap (responseLine srv) := by
  induction h with
  | nil => simp [List.reduceOption_nil]
  | @cons t bytes reply lines replies t' hline hlines ih =>
    obtain ⟨hcalls, hwritten⟩ := calls_lineEffects srv bytes reply
    rw [ih.1, ih.2, calls_append, written_append, hcalls, hwritten]
    cases reply <;> simp [List.reduceOption]

/-- A run of the loop over some lines. -/
theorem feed_lines (srv : Server) (lines : List (List UInt8)) (t : List Effect) :
    ∃ t' replies, LinesAnswered srv t (lines.takeWhile isText) replies t' ∧
      feed (handleLine srv) t lines =
        if lines.takeWhile isText = lines then .next t' else .halt (t', .failed) := by
  induction lines generalizing t with
  | nil => exact ⟨t, [], .nil, by simp [feed]⟩
  | cons bytes lines ih =>
    cases htext : isText bytes with
    | false =>
      obtain ⟨e, he⟩ : ∃ e, fromUtf8 bytes = .error e := by
        cases hb : fromUtf8 bytes with
        | ok line => simp [isText_of_ok hb] at htext
        | error e => exact ⟨e, rfl⟩
      refine ⟨t, [], ?_, by simp [htext, feed, handleLine, he]⟩
      rw [List.takeWhile_cons_of_neg (by simp [htext])]
      exact .nil
    | true =>
      obtain ⟨t', replies, hans, hfeed⟩ := ih (t ++ lineEffects srv bytes (replyTo srv t bytes))
      refine ⟨t', replyTo srv t bytes :: replies, ?_, ?_⟩
      · rw [List.takeWhile_cons_of_pos htext]
        exact .cons (lineAnswered_replyTo srv t bytes) hans
      · simp only [feed, handleLine_text srv t htext, hfeed, List.takeWhile_cons_of_pos htext,
          List.cons.injEq, true_and]

/-- The protocol of a line-framed connection, whatever the chunks. The lines before the first that is
not UTF-8 are answered in order, each as `LineAnswered` says: the dispatcher is called once for each
request among them, and its response is what the verb returned there. The responses are read back, one
a line, from the bytes written, if JSON texts hold no LF; and the connection fails exactly when some
line is not UTF-8. Two connections that deliver the same bytes go the same way. -/
theorem serve_lines_protocol (srv : Server) (chunks : List (List UInt8))
    (hjson : ∀ v, newline ∉ (srv.toVec v).1) :
    let lines := linesOf (stream chunks)
    let live := lines.takeWhile isText
    let t := (serveLines srv chunks).1
    (∃ replies, LinesAnswered srv [] live replies t ∧
        linesOf (written t) = replies.reduceOption.map (responseLine srv)) ∧
      calls t = live.flatMap (callsOfLine srv) ∧
      ((serveLines srv chunks).2 = .returned ↔ ∀ l ∈ lines, isText l = true) ∧
      ∀ chunks', stream chunks' = stream chunks → serveLines srv chunks' = serveLines srv chunks := by
  intro lines live t
  obtain ⟨t', replies, hans, hfeed⟩ := feed_lines srv lines []
  have hserve : serveLines srv chunks = (t', if live = lines then .returned else .failed) := by
    rw [serveLines, readLines_eq_feed, hfeed]
    by_cases hall : live = lines
    · rw [if_pos hall, if_pos hall]
    · rw [if_neg hall, if_neg hall]
  have ht : t = t' := congrArg Prod.fst hserve
  obtain ⟨hcalls, hwritten⟩ := hans.traces
  refine ⟨⟨replies, by rw [ht]; exact hans, ?_⟩, by rw [ht, hcalls]; rfl, ?_, fun chunks' hsame => ?_⟩
  · rw [ht, hwritten]
    exact linesOf_flatMap (fun r => (srv.toVec (Response.toJson r)).1) _ fun r _ => hjson _
  · rw [hserve]
    have hiff : live = lines ↔ ∀ l ∈ lines, isText l = true := List.takeWhile_eq_self_iff
    rw [← hiff]
    by_cases hall : live = lines <;> simp [hall]
  · rw [serveLines, serveLines, readLines_eq_feed, readLines_eq_feed, hsame]

/-- A ping on a line of its own: one call, and the server goes on to the end of the input. -/
theorem serve_lines_protocol_ping :
    calls (serveLines pingServer [asBytes (pingText ++ "\n")]).1 = [("Host.ping2", .object [])] ∧
      (serveLines pingServer [asBytes (pingText ++ "\n")]).2 = .returned := by
  have hjson : ∀ v, newline ∉ (pingServer.toVec v).1 := fun _ =>
    newline_not_mem_asBytes
      (s := "\x7b\"jsonrpc\":\"2.0\",\"id\":\"7\",\"result\":true\x7d") (by decide)
  have hline : linesOf (stream [asBytes (pingText ++ "\n")]) = [asBytes (pingText ++ "\n")] := by
    have hno : newline ∉ asBytes pingText := newline_not_mem_asBytes (by decide)
    rw [stream_of_not_mem (by decide), List.flatten_singleton, asBytes_line,
      linesOf_append_cons [] hno]
    rfl
  have hutf8 : fromUtf8 (asBytes (pingText ++ "\n")) = .ok (pingText ++ "\n") := fromUtf8_asBytes _
  have htrim : trim (pingText ++ "\n") = pingText := by decide
  have hcalls : callsOfLine pingServer (asBytes (pingText ++ "\n")) = [("Host.ping2", .object [])] := by
    rw [callsOfLine, lineRequest, lineText_of_ok hutf8, htrim]
    rfl
  obtain ⟨-, hcalled, hreturned, -⟩ := serve_lines_protocol pingServer [asBytes (pingText ++ "\n")] hjson
  constructor
  · rw [hcalled, hline, List.takeWhile_cons_of_pos (isText_of_ok hutf8)]
    simpa using hcalls
  · rw [hreturned, hline]
    simpa using isText_of_ok hutf8

end Vdsm.Rpc
