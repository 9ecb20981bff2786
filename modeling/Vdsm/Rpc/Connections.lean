import Vdsm.Lib.Interleave
import Vdsm.Rpc.Session

/-!
# Many connections (`Server::serve`, `handle_conn` in `vdsm-rpc/src/server.rs`)

The server runs one task per connection over one dispatcher. `connTurn` is a task of `serve_stomp` cut
into its polls: it cuts a frame off its buffer and handles it, or takes the next chunk that has arrived.
A request takes two polls: in one its verb is called, in another, when the verb has returned, it is
answered. The verbs share the state of the daemon, so that what a handler returns may depend on all that
happened on all connections until then.

`connections_protocol` is the session protocol for each connection under every interleaving of their
tasks.
-/

namespace Vdsm.Rpc

open Rust Stomp Framing Interleave

variable {κ : Type}

/-- What the connections share. A handler sees the history of all of them. -/
structure Shared (κ : Type) where
  peer : κ → String
  handlers : String → Option (List (κ × Effect) → Value → Except JsonRpcError Value)
  fromStr : String → Except String Request
  toVec : Value → Vec8
  order : List (κ × Effect) → Subscriptions → List (String × String)
  order_perm : ∀ history m, (order history m).Perm m.toPairs

/-- What a connection finds at a turn. -/
def Shared.server (sh : Shared κ) (history : List (κ × Effect)) (k : κ) : Server where
  peer := sh.peer k
  dispatcher := ⟨fun method => (sh.handlers method).map fun handler _ params => handler history params⟩
  fromStr := sh.fromStr
  toVec := sh.toVec
  order _ m := sh.order history m
  order_perm _ m := sh.order_perm history m

/-- What a verb returns depends on the history of all, not on the session's own past. -/
theorem invoke_server (sh : Shared κ) (history : List (κ × Effect)) (k : κ) (past past' : List Effect)
    (method : String) (params : Value) :
    (sh.server history k).dispatcher.invoke past method params
      = (sh.server history k).dispatcher.invoke past' method params := by
  simp only [Shared.server, Dispatcher.invoke]
  cases sh.handlers method <;> rfl

/-- What happens to a connection: a chunk arrives, or its task is polled. -/
inductive Tick where
  | arrive (chunk : List UInt8)
  | poll

/-- A connection: its session, the bytes it has read and not yet parsed, and the chunks that wait to be
read; and the request whose verb has not returned yet, with its frame. -/
inductive Conn where
  | running (s : Session) (buf : List UInt8) (inbox : List (List UInt8))
  | calling (s : Session) (frame : Frame) (req : Request) (buf : List UInt8)
      (inbox : List (List UInt8))
  | ended (r : Session × Exit)

/-- What a turn has added to the trace of a session. -/
def added (s s' : Session) : List Effect := s'.trace.drop s.trace.length

/-- The request that a frame makes the session call a verb for. -/
def callFor (srv : Server) (s : Session) (f : Frame) : Option Request :=
  if s.connected then requestOf srv f else none

/-- Where the task stands after a frame. -/
def proceed (s : Session) (buf : List UInt8) (inbox : List (List UInt8)) :
    Flow Session (Session × Exit) → Conn × List Effect
  | .next s' => (.running s' buf inbox, added s s')
  | .halt r => (.ended r, added s r.1)

/-- The task of `serve_stomp`. -/
def connTurn (sh : Shared κ) : Turn κ Tick Conn Effect
  | _, _, .running s buf inbox, .arrive chunk => (.running s buf (inbox ++ [chunk]), [])
  | _, _, .calling s f req buf inbox, .arrive chunk =>
    (.calling s f req buf (inbox ++ [chunk]), [])
  | history, k, .running s buf inbox, .poll =>
    let srv := sh.server history k
    match stompDecoder.cut buf with
    | .ok (some (f, rest)) =>
      match callFor srv s f with
      | some req =>
        let call := Effect.invoke req.method req.params
        (.calling (s.log call) f req rest inbox, [call])
      | none => proceed s rest inbox (handleFrame srv s f)
    | .ok none =>
      match inbox with
      | [] => (.running s buf [], [])
      | chunk :: inbox =>
        if chunk = [] then (.ended (s, .returned), []) else (.running s (buf ++ chunk) inbox, [])
    | .err e =>
      let r := refuse s "malformed frame" e.display
      (.ended r, added s r.1)
    | .panic => (.ended (s, .panicked), [])
  | history, k, .calling s f req buf inbox, .poll =>
    let srv := sh.server history k
    -- what the verb returns may depend on all that happened while it ran
    let result := srv.dispatcher.invoke s.trace req.method req.params
    proceed s buf inbox (finishSend srv s f req result)
  | _, _, .ended r, _ => (.ended r, [])

/-- The chunks that have arrived. -/
def arrived (ticks : List Tick) : List (List UInt8) :=
  ticks.filterMap fun t => match t with
    | .arrive chunk => some chunk
    | .poll => none

/-! ## Sessions in progress -/

/-- A session in progress, after the frames it has handled. -/
inductive Live (srv : Server) : List Frame → Session → Prop
  | new : Live srv [] Session.init
  | connected {hello : Frame} {live : List Frame} {s : Session} (replies : List (List Frame))
      (hhello : command hello = .connect) (hlive : liveFrames true live = live)
      (hran : Ran srv live (helloSession srv) s replies) (hs : s.connected = true) :
      Live srv (hello :: live) s

/-- A session that has answered some frames answers one more. -/
theorem Ran.concat {srv : Server} {f : Frame} {fs : List Frame} {s s' s'' : Session}
    {rs : List Frame} {replies : List (List Frame)} (h : Ran srv fs s s' replies)
    (h' : Acts srv f s' s'' rs) : Ran srv (fs ++ [f]) s s'' (replies ++ [rs]) where
  effects := by
    obtain ⟨effs, ht, hw, hc⟩ := h.effects
    obtain ⟨effs', ht', hw', hc'⟩ := h'.effects
    refine ⟨effs ++ effs', ?_, ?_, ?_⟩
    · rw [ht', ht, List.append_assoc]
    · rw [written_append, hw, hw', List.flatten_append, List.flatMap_append, List.flatten_singleton]
    · rw [calls_append, hc, hc', List.flatMap_append, List.flatMap_singleton]
  answered := List.rel_append h.answered (.cons h'.answered .nil)
  encodable m hm := by
    rw [List.flatten_append, List.flatten_singleton, List.mem_append] at hm
    rcases hm with hreplies | hrs
    · exact h.encodable m hreplies
    · exact h'.encodable m hrs

/-- A further frame counts unless it ends the session. -/
theorem liveFrames_concat {fs : List Frame} (h : liveFrames true fs = fs) (f : Frame) :
    liveFrames true (fs ++ [f]) = if endsSession true (command f) then fs else fs ++ [f] := by
  induction fs with
  | nil =>
    rw [List.nil_append, liveFrames]
    rfl
  | cons g fs ih =>
    by_cases hg : endsSession true (command g) = true
    · simp [liveFrames, hg] at h
    · have hfs : liveFrames true fs = fs := by simpa [liveFrames, hg] using h
      rw [List.cons_append, liveFrames, if_neg hg, ih hfs]
      split <;> rfl

/-- The servers of two turns read and write the same texts. -/
theorem acts_server {sh : Shared κ} {history : List (κ × Effect)} {k : κ} {f : Frame} {s s' : Session}
    {rs : List Frame} (h : Acts (sh.server history k) f s s' rs) : Acts (sh.server [] k) f s s' rs :=
  ⟨h.connected, h.effects, ⟨h.answered.at_most_one, h.answered.only_send, h.answered.message,
    h.answered.request⟩, h.encodable⟩

/-- What was added to a trace, behind what was there. -/
theorem trace_added {s s' : Session} (h : s.trace <+: s'.trace) : s.trace ++ added s s' = s'.trace := by
  obtain ⟨effs, he⟩ := h
  rw [added, ← he, List.drop_left]

/-- Closing a session adds to what it has done. -/
theorem Closes.prefix_trace {connected : Bool} {s s' : Session} {closing : List Frame}
    (h : Closes connected s s' closing) : s.trace <+: s'.trace :=
  ⟨_, h.trace.symm⟩

/-- A session is connected from its first frame on. -/
theorem Live.connected_eq {srv : Server} {frames : List Frame} {s : Session} (h : Live srv frames s) :
    s.connected = !frames.isEmpty := by
  cases h with
  | new => rfl
  | connected replies hhello hlive hran hs => simpa using hs

/-- A session in progress that closes has run its course. -/
theorem Live.course {srv : Server} {frames : List Frame} {s s' : Session} {closing : List Frame}
    (h : Live srv frames s) (hclose : Closes s.connected s s' closing) : Course srv frames s' := by
  have hconn := h.connected_eq
  cases h with
  | new => exact .refused closing rfl hclose
  | @connected hello live _ replies hhello hlive hran hs =>
    have hall : liveFrames false (hello :: live) = hello :: live := by
      simp [liveFrames, hhello, endsSession, hlive]
    exact .served hello live s replies closing hall hhello hran (hs ▸ hclose)

/-- One more frame: the session goes on, or it has run its course. -/
theorem Live.step {sh : Shared κ} {k : κ} {frames : List Frame} {s : Session}
    (h : Live (sh.server [] k) frames s) (history : List (κ × Effect)) (f : Frame) :
    (∃ s', handleFrame (sh.server history k) s f = .next s' ∧
        Live (sh.server [] k) (frames ++ [f]) s' ∧ s.trace <+: s'.trace) ∨
      ∃ r, handleFrame (sh.server history k) s f = .halt r ∧
        Course (sh.server [] k) (frames ++ [f]) r.1 ∧ s.trace <+: r.1.trace := by
  cases h with
  | new =>
    by_cases hf : endsSession false (command f) = true
    · obtain ⟨r, closing, hhalt, hclose⟩ := handleFrame_ends (sh.server history k) Session.init f hf
      refine .inr ⟨r, hhalt, .refused closing ?_ hclose, hclose.prefix_trace⟩
      simp [liveFrames, hf]
    · obtain ⟨hcmd, hnext⟩ := handleFrame_connect (sh.server history k) (s := Session.init) rfl hf
      exact .inl ⟨helloSession (sh.server [] k), hnext,
        .connected [] hcmd rfl (Ran.nil _ _) rfl, List.nil_prefix⟩
  | @connected hello live _ replies hhello hlive hran hs =>
    have hconcat := liveFrames_concat hlive f
    by_cases hf : endsSession true (command f) = true
    · rw [if_pos hf] at hconcat
      obtain ⟨r, closing, hhalt, hclose⟩ := handleFrame_ends (sh.server history k) s f (hs ▸ hf)
      refine .inr ⟨r, hhalt, ?_, hclose.prefix_trace⟩
      have hall : liveFrames false (hello :: live ++ [f]) = hello :: live := by
        simp [liveFrames, hhello, endsSession, hconcat]
      exact .served hello live s replies closing hall hhello hran (hs ▸ hclose)
    · rw [if_neg hf] at hconcat
      obtain ⟨s', rs, hnext, hacts⟩ := handleFrame_live (sh.server history k) hs (by simpa using hf)
      obtain ⟨effs, ht, -, -⟩ := hacts.effects
      exact .inl ⟨s', hnext, .connected (replies ++ [rs]) hhello hconcat
        (hran.concat (acts_server hacts)) hacts.connected, ⟨effs, ht.symm⟩⟩

/-- A request is handled by the call of its verb and what follows. -/
theorem handleFrame_of_callFor {srv : Server} {s : Session} {f : Frame} {req : Request}
    (h : callFor srv s f = some req) :
    s.connected = true ∧ command f = .send ∧ requestOf srv f = some req ∧
      handleFrame srv s f = finishSend srv (s.log (.invoke req.method req.params)) f req
        (srv.dispatcher.invoke s.trace req.method req.params) := by
  rw [callFor] at h
  split_ifs at h with hs
  have hsend : command f = .send := by
    by_contra hne
    simp [requestOf_of_not_send hne] at h
  refine ⟨hs, hsend, h, ?_⟩
  have hpast : ¬ (!s.connected ∧ command f ≠ .connect) := by simp [hs]
  rw [handleFrame, if_neg hpast, hsend]
  rw [requestOf, if_pos hsend] at h
  cases hbody : fromUtf8 f.body.1 with
  | error e => simp [hbody] at h
  | ok body =>
    cases hparse : srv.fromStr body with
    | error e => simp [hbody, hparse, Except.toOption] at h
    | ok req' =>
      obtain rfl : req' = req := by simpa [hbody, hparse, Except.toOption] using h
      simp only [handleStompSend, hbody, hparse]

/-- What follows the call of a verb adds to the trace, and does not end the session. -/
theorem finishSend_next (srv : Server) (s : Session) (f : Frame) (req : Request)
    (result : Except JsonRpcError Value) :
    ∃ s', finishSend srv s f req result = .next s' ∧ ∃ effs, s'.trace = s.trace ++ effs ∧
      ∀ e ∈ effs, e.isAction = false := by
  rw [finishSend]
  split
  · exact ⟨s, rfl, [], by simp, by simp⟩
  · rw [sendReply_eq]
    exact ⟨_, rfl, [_], rfl, by simp [Effect.isAction]⟩

/-- A session whose verb has been called goes on when it returns, whatever has happened until then. -/
theorem Live.answer {sh : Shared κ} {k : κ} {frames : List Frame} {s : Session} {f : Frame}
    {req : Request} (h : Live (sh.server [] k) frames s)
    (hcall : callFor (sh.server [] k) s f = some req) (history : List (κ × Effect)) :
    let called := s.log (.invoke req.method req.params)
    let result := (sh.server history k).dispatcher.invoke called.trace req.method req.params
    ∃ s', finishSend (sh.server history k) called f req result = .next s' ∧
      Live (sh.server [] k) (frames ++ [f]) s' ∧ ∃ effs, s'.trace = called.trace ++ effs ∧
        ∀ e ∈ effs, e.isAction = false := by
  intro called result
  obtain ⟨s', hnext, heffs⟩ := finishSend_next (sh.server history k) called f req result
  refine ⟨s', hnext, ?_, heffs⟩
  have hsame : callFor (sh.server history k) s f = some req := hcall
  obtain ⟨-, -, -, hframe⟩ := handleFrame_of_callFor hsame
  have hhandled : handleFrame (sh.server history k) s f = .next s' := by
    rw [hframe, invoke_server sh history k s.trace called.trace]
    exact hnext
  rcases h.step history f with ⟨s'', hnext', hlive, -⟩ | ⟨r, hhalt, -⟩
  · rw [hhandled] at hnext'
    obtain rfl : s' = s'' := by simpa using hnext'
    exact hlive
  · simp [hhandled] at hhalt

variable [DecidableEq κ]

/-- A connection has read `got`, which starts with these frames. -/
def Parsed (got : List (List UInt8)) (frames : List Frame) (rest : List UInt8) : Prop :=
  [] ∉ got ∧ cutMany stompDecoder frames.length got.flatten = some (frames, rest)

/-- How a connection stands, from what has happened to it and the history of all. -/
inductive Stands (sh : Shared κ) (k : κ) : Conn → List Tick → List (κ × Effect) → Prop
  | running {s : Session} {buf : List UInt8} {inbox : List (List UInt8)} {ticks h}
      (got : List (List UInt8)) (frames : List Frame) (hgot : arrived ticks = got ++ inbox)
      (hparsed : Parsed got frames buf) (hlive : Live (sh.server [] k) frames s)
      (hown : own k h = s.trace) : Stands sh k (.running s buf inbox) ticks h
  | calling {s : Session} {f : Frame} {req : Request} {buf : List UInt8} {inbox : List (List UInt8)}
      {ticks h} (got : List (List UInt8)) (frames : List Frame) (hgot : arrived ticks = got ++ inbox)
      (hparsed : Parsed got (frames ++ [f]) buf) (hlive : Live (sh.server [] k) frames s)
      (hcall : callFor (sh.server [] k) s f = some req)
      (hown : own k h = (s.log (.invoke req.method req.params)).trace) :
      Stands sh k (.calling (s.log (.invoke req.method req.params)) f req buf inbox) ticks h
  | ended {r : Session × Exit} {ticks h} (got later : List (List UInt8)) (frames : List Frame)
      (rest : List UInt8) (hgot : arrived ticks = got ++ later) (hparsed : Parsed got frames rest)
      (hcourse : Course (sh.server [] k) frames r.1) (hown : own k h = r.1.trace) :
      Stands sh k (.ended r) ticks h

/-- What has arrived, one tick later. -/
theorem arrived_append (ticks : List Tick) (t : Tick) :
    arrived (ticks ++ [t]) = arrived ticks ++ match t with
      | .arrive chunk => [chunk]
      | .poll => [] := by
  cases t <;> simp [arrived]

/-- What a connection adds to the history of all is what it adds to its own. -/
theorem own_added {k : κ} {h : List (κ × Effect)} {s s' : Session} (hown : own k h = s.trace)
    (ht : s.trace <+: s'.trace) : own k (h ++ (added s s').map fun a => (k, a)) = s'.trace := by
  rw [own_append, own_tagged, hown, trace_added ht]

/-- A poll of the task. -/
theorem stands_poll {sh : Shared κ} {k : κ} {s : Session} {buf : List UInt8}
    {inbox : List (List UInt8)} {ticks : List Tick} {h : List (κ × Effect)}
    (got : List (List UInt8)) (frames : List Frame) (hgot : arrived ticks = got ++ inbox)
    (hparsed : Parsed got frames buf) (hlive : Live (sh.server [] k) frames s)
    (hown : own k h = s.trace) :
    let out := connTurn sh h k (.running s buf inbox) .poll
    Stands sh k out.1 (ticks ++ [.poll]) (h ++ out.2.map fun a => (k, a)) := by
  have hsame : arrived (ticks ++ [.poll]) = got ++ inbox := by
    rw [arrived_append, hgot, List.append_nil]
  obtain ⟨hne, hcut⟩ := hparsed
  simp only [connTurn]
  cases hc : stompDecoder.cut buf with
  | panic =>
    exact .ended got inbox frames buf hsame ⟨hne, hcut⟩ (hlive.course (.refl _ s)) (by simpa using hown)
  | err e =>
    obtain ⟨closing, hclose⟩ := refuse_closes s.connected s "malformed frame" e.display
    exact .ended got inbox frames buf hsame ⟨hne, hcut⟩ (hlive.course hclose)
      (own_added hown hclose.prefix_trace)
  | ok o =>
    cases o with
    | some p =>
      obtain ⟨f, rest⟩ := p
      have hcut' : Parsed got (frames ++ [f]) rest :=
        ⟨hne, by rw [List.length_append]; exact cutMany_concat hcut hc⟩
      cases hcall : callFor (sh.server h k) s f with
      | some req =>
        simp only [hcall]
        refine .calling got frames hsame hcut' hlive hcall ?_
        rw [own_append, own_tagged, hown]
        rfl
      | none =>
        simp only [hcall, proceed]
        rcases hlive.step h f with ⟨s', hnext, hlive', ht⟩ | ⟨r, hhalt, hcourse, ht⟩
        · simp only [hnext]
          exact .running got _ hsame hcut' hlive' (own_added hown ht)
        · simp only [hhalt]
          exact .ended got inbox _ rest hsame hcut' hcourse (own_added hown ht)
    | none =>
      cases inbox with
      | nil => exact .running got frames hsame ⟨hne, hcut⟩ hlive (by simpa using hown)
      | cons c cs =>
        by_cases hcn : c = []
        · simp only [if_pos hcn]
          exact .ended got (c :: cs) frames buf hsame ⟨hne, hcut⟩ (hlive.course (.refl _ s))
            (by simpa using hown)
        · simp only [if_neg hcn]
          refine .running (got ++ [c]) frames (by simpa using hsame) ⟨?_, ?_⟩ hlive (by simpa using hown)
          · simp [hne, Ne.symm hcn]
          · rw [List.flatten_append, List.flatten_singleton]
            exact cutMany_append parseFrame_stable hcut c

/-- The poll in which a verb has returned. -/
theorem stands_answer {sh : Shared κ} {k : κ} {s : Session} {f : Frame} {req : Request}
    {buf : List UInt8} {inbox : List (List UInt8)} {ticks : List Tick} {h : List (κ × Effect)}
    (got : List (List UInt8)) (frames : List Frame) (hgot : arrived ticks = got ++ inbox)
    (hparsed : Parsed got (frames ++ [f]) buf) (hlive : Live (sh.server [] k) frames s)
    (hcall : callFor (sh.server [] k) s f = some req)
    (hown : own k h = (s.log (.invoke req.method req.params)).trace) :
    let out := connTurn sh h k (.calling (s.log (.invoke req.method req.params)) f req buf inbox) .poll
    Stands sh k out.1 (ticks ++ [.poll]) (h ++ out.2.map fun a => (k, a)) := by
  have hsame : arrived (ticks ++ [.poll]) = got ++ inbox := by
    rw [arrived_append, hgot, List.append_nil]
  obtain ⟨s', hnext, hlive', effs, ht, -⟩ := hlive.answer hcall h
  simp only [connTurn, hnext, proceed]
  exact .running got _ hsame hparsed hlive' (own_added hown ⟨effs, ht.symm⟩)

/-- The invariant of a connection is kept by each of its turns, arrivals, calls and replies
alike. -/
theorem Stands.step {sh : Shared κ} {k : κ} {c : Conn} {ticks : List Tick} {h : List (κ × Effect)}
    (hs : Stands sh k c ticks h) (t : Tick) :
    Stands sh k (connTurn sh h k c t).1 (ticks ++ [t])
      (h ++ (connTurn sh h k c t).2.map fun a => (k, a)) := by
  cases hs with
  | running got frames hgot hparsed hlive hown =>
    cases t with
    | poll => exact stands_poll got frames hgot hparsed hlive hown
    | arrive chunk =>
      refine .running got frames ?_ hparsed hlive (by simpa [connTurn] using hown)
      rw [arrived_append, hgot, List.append_assoc]
  | calling got frames hgot hparsed hlive hcall hown =>
    cases t with
    | poll => exact stands_answer got frames hgot hparsed hlive hcall hown
    | arrive chunk =>
      refine .calling got frames ?_ hparsed hlive hcall (by simpa [connTurn] using hown)
      rw [arrived_append, hgot, List.append_assoc]
  | ended got later frames rest hgot hparsed hcourse hown =>
    have hnone : ∀ r, connTurn sh h k (.ended r) t = (.ended r, []) := fun r => by cases t <;> rfl
    obtain ⟨more, hmore⟩ : ∃ more, arrived (ticks ++ [t]) = arrived ticks ++ more :=
      ⟨_, arrived_append ticks t⟩
    rw [hnone]
    refine .ended got (later ++ more) frames rest ?_ hparsed hcourse (by simpa using hown)
    rw [hmore, hgot, List.append_assoc]

/-- And not disturbed by what the others do. -/
theorem Stands.frame {sh : Shared κ} {k : κ} {c : Conn} {ticks : List Tick} {h : List (κ × Effect)}
    (hs : Stands sh k c ticks h) {j : κ} (hj : j ≠ k) (effs : List Effect) :
    Stands sh k c ticks (h ++ effs.map fun a => (j, a)) := by
  have hsame : own k (h ++ effs.map fun a => (j, a)) = own k h := by
    rw [own_append, own_tagged_ne hj, List.append_nil]
  cases hs with
  | running got frames hgot hparsed hlive hown =>
    exact .running got frames hgot hparsed hlive (hsame.trans hown)
  | calling got frames hgot hparsed hlive hcall hown =>
    exact .calling got frames hgot hparsed hlive hcall (hsame.trans hown)
  | ended got later frames rest hgot hparsed hcourse hown =>
    exact .ended got later frames rest hgot hparsed hcourse (hsame.trans hown)

/-- The server after a schedule of its connections' ticks. -/
def serveAll (sh : Shared κ) (schedule : List (κ × Tick)) : State κ Conn Effect :=
  Interleave.run (connTurn sh) (State.start (.running Session.init [] [])) schedule

/-- How every connection stands after every schedule. -/
theorem stands (sh : Shared κ) (schedule : List (κ × Tick)) (k : κ) :
    Stands sh k ((serveAll sh schedule).states k) (own k schedule) (serveAll sh schedule).history :=
  run_invariant (I := Stands sh)
    (fun _ => .running [] [] rfl ⟨by simp, rfl⟩ .new rfl)
    (fun _ _ _ _ t hs => hs.step t) (fun _ _ _ _ _ effs hj hs => hs.frame hj effs) schedule k

/-- The frame whose verb has been called and has not returned. -/
def Conn.unanswered : Conn → List Frame
  | .calling _ f _ _ _ => [f]
  | _ => []

/-- Without an action there is no call. -/
theorem calls_eq_nil {effs : List Effect} (h : ∀ e ∈ effs, e.isAction = false) : calls effs = [] := by
  rw [calls, List.filterMap_eq_nil_iff]
  intro e he
  cases e with
  | invoke method params => exact absurd (h _ he) (by simp [Effect.isAction])
  | _ => rfl

/-- The session protocol under every interleaving. Whatever arrives on any number of connections, in
whatever order their tasks are polled, however long the verbs run, and whatever they make of all that
happened: what a connection writes decodes to a conversation that answers, in order, the live ones of
the frames it has read, but for one whose verb has not returned; the dispatcher is called for it once
for each request among them, in order; nothing but a write comes before `CONNECTED`. When its task has
nothing left to do, these are all the frames that have arrived. -/
theorem connections_protocol (sh : Shared κ) (schedule : List (κ × Tick)) (k : κ) :
    let t := own k (serveAll sh schedule).history
    let conn := (serveAll sh schedule).states k
    ∃ got later frames rest, arrived (own k schedule) = got ++ later ∧
      Parsed got (frames ++ conn.unanswered) rest ∧
      (∃ out replies, drain stompDecoder collect [] (written t) = .starved out [] ∧
        Conversation out replies.flatten ∧
        List.Forall₂ (Answered (sh.server [] k)) (liveFrames false frames) replies) ∧
      calls t = (liveFrames false (frames ++ conn.unanswered)).flatMap (callsOf (sh.server [] k)) ∧
      (∀ past e rest, t = past ++ e :: rest → e.isAction = true →
        ∃ c : Frame, c.command = "CONNECTED" ∧ Effect.write c.toBytes ∈ past) ∧
      ∀ s buf, conn = .running s buf [] → stompDecoder.cut buf = .ok none →
        delivered (arrived (own k schedule)) = .starved frames buf := by
  intro t conn
  have hstands := stands sh schedule k
  change Stands sh k conn _ _ at hstands
  generalize conn = conn at hstands ⊢
  cases hstands with
  | running got frames hgot hparsed hlive hown =>
    have hcourse := hlive.course (.refl _ _)
    change t = _ at hown
    rw [hown]
    simp only [Conn.unanswered, List.append_nil]
    refine ⟨got, _, frames, _, hgot, hparsed, hcourse.conversation, hcourse.calls_eq,
      fun past e rest ht he => hcourse.action_after_connected ht he, ?_⟩
    intro s buf hconn hwait
    obtain ⟨rfl, rfl, rfl⟩ := Conn.running.inj hconn
    obtain ⟨hne, hcut⟩ := hparsed
    rw [hgot, List.append_nil, delivered,
      readLoop_eq_drain parseFrame_stable got (fun c hc hnil => hne (hnil ▸ hc)) [] [] rfl,
      List.nil_append]
    exact drain_collect_of_cutMany hcut hwait
  | @calling s f req buf inbox _ _ got frames hgot hparsed hlive hcall hown =>
    change t = _ at hown
    -- the session as it will be when the verb returns
    obtain ⟨s', -, hlive', effs, ht, heffs⟩ := hlive.answer hcall []
    have hcourse := hlive'.course (.refl _ _)
    have hwritten : written t = written s.trace := by
      rw [hown, Session.log, written_append]
      exact List.append_nil _
    refine ⟨got, _, frames, _, hgot, hparsed, ?_, ?_, fun past e rest hpast he => ?_,
      fun _ _ h => by cases h⟩
    · rw [hwritten]
      exact (hlive.course (.refl _ _)).conversation
    · have hcalls := hcourse.calls_eq
      rwa [ht, calls_append, calls_eq_nil heffs, List.append_nil, ← hown] at hcalls
    · have htrace : s'.trace = past ++ e :: (rest ++ effs) := by
        rw [ht, ← hown, hpast, List.append_assoc, List.cons_append]
      exact hcourse.action_after_connected htrace he
  | ended got later frames rest hgot hparsed hcourse hown =>
    change t = _ at hown
    rw [hown]
    simp only [Conn.unanswered, List.append_nil]
    exact ⟨got, later, frames, rest, hgot, hparsed, hcourse.conversation, hcourse.calls_eq,
      fun past e rest ht he => hcourse.action_after_connected ht he, fun _ _ h => by cases h⟩

end Vdsm.Rpc
