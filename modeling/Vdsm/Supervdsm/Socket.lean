import Vdsm.Lib.Interleave
import Vdsm.Lib.ReadLine
import Vdsm.Supervdsm.Exec

/-!
# The privileged daemon's socket (`supervdsm/src/main.rs`, `vdsm-common/src/supervdsm.rs`)

One task per connection: check the peer's credentials, read one line, execute the op it asks for,
write one line. `handle` is such a task, cut at its `await` points, and `Interleave.run` lets any
number of them take turns; the host an op finds may depend on everything that happened before.

`Served` says how one connection stands after any schedule. From it follow `supervdsmd_safety`, what
root can be made to do by any peers at all, and `call_executes_once`, what a client of the daemon
gets. What `serde_json` and the derived code make of ops and results is a parameter, writes succeed, and
an op is executed at one moment between its request and its reply.
-/

namespace Vdsm.Supervdsm

open Rust ReadLine Interleave

/-- `serde_json::from_str` and `to_string` for `PrivOp` and `PrivResult`, with the error for a text that
is no op. -/
structure Json where
  readOp : String → Except String PrivOp
  printOp : PrivOp → String
  readResult : String → Option PrivResult
  printResult : PrivResult → String

/-- A text as `to_string` prints structs and tagged enums: on one line and in braces. -/
structure Printed (text : String) : Prop where
  one_line : '\n' ∉ text.toList
  braces : ∃ inner, text = "\x7b" ++ inner ++ "\x7d"

/-- An op is read back from what it is printed as. -/
structure Json.FaithfulOp (json : Json) (op : PrivOp) : Prop extends Printed (json.printOp op) where
  read_print : json.readOp (json.printOp op) = .ok op

/-- A result is read back from what it is printed as. -/
structure Json.FaithfulResult (json : Json) (r : PrivResult) : Prop
    extends Printed (json.printResult r) where
  read_print : json.readResult (json.printResult r) = some r

/-- A text and an LF. -/
def line (text : String) : List UInt8 := asBytes (text ++ "\n")

/-! ## A connection -/

/-- Where the task of a connection stands. -/
inductive Phase where
  | accepted
  | reading (buf : List UInt8)
  | executing (op : PrivOp)
  | closed

/-- What the task waits for: its start, a read (an empty one is the end of the stream), the end of its
op. -/
inductive Event where
  | start
  | recv (chunk : List UInt8)
  | finish
deriving DecidableEq

/-- What a connection does. -/
inductive Effect where
  | act (a : Action)
  | reply (bytes : List UInt8)

/-- The daemon and its surroundings. `peerCred` is `SO_PEERCRED`, if it can be read. -/
structure Daemon (κ : Type) where
  allowedUid : UInt32
  peerCred : κ → Option UInt32
  json : Json
  host : List (κ × Effect) → Host

variable {κ : Type}

/-- The line for a peer with another uid. -/
def denied (json : Json) : List UInt8 :=
  line (json.printResult (PrivResult.failure "unauthorized: peer uid not permitted"))

/-- A request line. -/
def request (json : Json) (bytes : List UInt8) : Phase × List Effect :=
  match fromUtf8 bytes with
  | .error _ => (.closed, [])
  | .ok req =>
    if trim req = "" then (.closed, [])
    else match json.readOp (trim req) with
      | .ok op => (.executing op, [])
      | .error e =>
        (.closed, [.reply (line (json.printResult (PrivResult.failure s!"malformed request: {e}")))])

/-- What is done and answered for an op. -/
def outcome (json : Json) (host : Host) (op : PrivOp) : List Effect :=
  (execute host op).2.map .act ++ [.reply (line (json.printResult (execute host op).1))]

/-- `handle`. An event the task does not wait for does nothing. -/
def handle (d : Daemon κ) : Turn κ Event Phase Effect
  | _, k, .accepted, .start =>
    match d.peerCred k with
    | none => (.closed, [])
    | some uid =>
      if uid ≠ d.allowedUid then (.closed, [.reply (denied d.json)]) else (.reading [], [])
  | _, _, .reading buf, .recv chunk =>
    match pollLine buf chunk with
    | some line => request d.json line
    | none => (.reading (buf ++ chunk), [])
  | history, _, .executing op, .finish => (.closed, outcome d.json (d.host history) op)
  | _, _, phase, _ => (phase, [])

/-- The chunks a task reads: those that arrive once it has started. -/
def chunksRead : List Event → List (List UInt8)
  | [] => []
  | .start :: es => es.filterMap fun e => match e with
    | .recv chunk => some chunk
    | _ => none
  | _ :: es => chunksRead es

/-- What a connection has read after one more event. -/
theorem chunksRead_append {es : List Event} (h : .start ∈ es) (e : Event) :
    chunksRead (es ++ [e]) = chunksRead es ++ match e with
      | .recv chunk => [chunk]
      | _ => [] := by
  induction es with
  | nil => simp at h
  | cons x es ih =>
    cases x with
    | start =>
      simp only [List.cons_append, chunksRead, List.filterMap_append]
      cases e <;> rfl
    | recv c => simpa [chunksRead] using ih (by simpa using h)
    | finish => simpa [chunksRead] using ih (by simpa using h)

/-- Nothing is read before the start. -/
theorem chunksRead_start {es : List Event} (h : .start ∉ es) : chunksRead (es ++ [.start]) = [] := by
  induction es with
  | nil => rfl
  | cons x es ih =>
    cases x with
    | start => simp at h
    | recv c => simpa [chunksRead] using ih (by simpa using h)
    | finish => simpa [chunksRead] using ih (by simpa using h)

variable [DecidableEq κ]

/-- How a connection stands, from the events of its task and the history of all. -/
inductive Served (d : Daemon κ) (k : κ) : Phase → List Event → List (κ × Effect) → Prop
  | accepted {es h} (hstart : .start ∉ es) (hown : own k h = []) : Served d k .accepted es h
  | refused {es h} (hstart : .start ∈ es) (hcred : d.peerCred k ≠ some d.allowedUid)
      (hown : own k h = [] ∨ own k h = [.reply (denied d.json)]) : Served d k .closed es h
  | reading {es h} (hstart : .start ∈ es) (hcred : d.peerCred k = some d.allowedUid)
      (hwait : readLine (chunksRead es) = none) (hown : own k h = []) :
      Served d k (.reading (stream (chunksRead es))) es h
  | answered {es h line} (hstart : .start ∈ es) (hcred : d.peerCred k = some d.allowedUid)
      (hline : readLine (chunksRead es) = some line) (hreq : (request d.json line).1 = .closed)
      (hown : own k h = (request d.json line).2) : Served d k .closed es h
  | executing {es h line op} (hstart : .start ∈ es) (hcred : d.peerCred k = some d.allowedUid)
      (hline : readLine (chunksRead es) = some line) (hreq : request d.json line = (.executing op, []))
      (hown : own k h = []) : Served d k (.executing op) es h
  | executed {es h line op} (past : List (κ × Effect)) (hstart : .start ∈ es)
      (hcred : d.peerCred k = some d.allowedUid) (hline : readLine (chunksRead es) = some line)
      (hreq : request d.json line = (.executing op, [])) (hpast : past <+: h) (hnone : own k past = [])
      (hown : own k h = outcome d.json (d.host past) op) : Served d k .closed es h

/-- A line is refused and the connection closed, or its operation is to be executed. -/
theorem request_cases (json : Json) (line : List UInt8) :
    (request json line).1 = .closed ∨ ∃ op, request json line = (.executing op, []) := by
  unfold request
  split
  · exact .inl rfl
  · split
    · exact .inl rfl
    · split
      · exact .inr ⟨_, rfl⟩
      · exact .inl rfl

/-- A complete line is answered, or its op is executed. -/
theorem served_request {d : Daemon κ} {k : κ} {es : List Event} {h : List (κ × Effect)}
    {line : List UInt8} (hstart : .start ∈ es) (hcred : d.peerCred k = some d.allowedUid)
    (hline : readLine (chunksRead es) = some line) (hown : own k h = []) :
    Served d k (request d.json line).1 es (h ++ (request d.json line).2.map fun a => (k, a)) := by
  rcases request_cases d.json line with hclosed | ⟨op, hop⟩
  · rw [hclosed]
    exact .answered hstart hcred hline hclosed (by simp [hown])
  · simp only [hop, List.map_nil, List.append_nil]
    exact .executing hstart hcred hline hop hown

/-- A turn of the connection itself. -/
theorem Served.step {d : Daemon κ} {k : κ} {s : Phase} {es : List Event} {h : List (κ × Effect)}
    (hs : Served d k s es h) (e : Event) :
    Served d k (handle d h k s e).1 (es ++ [e])
      (h ++ (handle d h k s e).2.map fun a => (k, a)) := by
  have hmem : .start ∈ es → .start ∈ es ++ [e] := fun hm => List.mem_append_left _ hm
  -- a complete line is not changed by what arrives later
  have hkeep : .start ∈ es → ∀ line, readLine (chunksRead es) = some line →
      readLine (chunksRead (es ++ [e])) = some line := by
    intro hm line hline
    rw [chunksRead_append hm]
    exact readLine_append hline _
  cases hs with
  | accepted hstart hown =>
    cases e with
    | start =>
      simp only [handle]
      cases hcred : d.peerCred k with
      | none => exact .refused (by simp) (by simp [hcred]) (.inl (by simpa using hown))
      | some uid =>
        by_cases huid : uid = d.allowedUid
        · subst huid
          have hstarted : .start ∈ es ++ [.start] := by simp
          have hread : Served d k _ (es ++ [.start]) h :=
            .reading hstarted hcred (by rw [chunksRead_start hstart]; rfl) hown
          rw [chunksRead_start hstart] at hread
          simpa [stream] using hread
        · simp only [if_pos huid]
          refine .refused (by simp) (by simp [hcred, huid]) (.inr ?_)
          rw [own_append, hown, own_tagged, List.nil_append]
    | recv c => exact .accepted (by simpa using hstart) (by simpa [handle] using hown)
    | finish => exact .accepted (by simpa using hstart) (by simpa [handle] using hown)
  | refused hstart hcred hown =>
    exact .refused (hmem hstart) hcred (by cases e <;> simpa [handle] using hown)
  | reading hstart hcred hwait hown =>
    cases e with
    | recv c =>
      obtain ⟨hread, hstream⟩ := readLine_concat hwait c
      have hchunks : chunksRead (es ++ [.recv c]) = chunksRead es ++ [c] := chunksRead_append hstart _
      rw [← hchunks] at hread hstream
      simp only [handle]
      rw [← hread, ← hstream]
      cases hline : readLine (chunksRead (es ++ [.recv c])) with
      | some line => exact served_request (hmem hstart) hcred hline hown
      | none => exact .reading (hmem hstart) hcred hline (by simpa using hown)
    | start =>
      have hchunks : chunksRead (es ++ [.start]) = chunksRead es := by
        simpa using chunksRead_append hstart .start
      rw [← hchunks] at hwait ⊢
      exact .reading (hmem hstart) hcred hwait (by simpa [handle] using hown)
    | finish =>
      have hchunks : chunksRead (es ++ [.finish]) = chunksRead es := by
        simpa using chunksRead_append hstart .finish
      rw [← hchunks] at hwait ⊢
      exact .reading (hmem hstart) hcred hwait (by simpa [handle] using hown)
  | answered hstart hcred hline hreq hown =>
    exact .answered (hmem hstart) hcred (hkeep hstart _ hline) hreq
      (by cases e <;> simpa [handle] using hown)
  | executing hstart hcred hline hreq hown =>
    cases e with
    | finish =>
      exact .executed h (hmem hstart) hcred (hkeep hstart _ hline) hreq (List.prefix_append h _) hown
        (by simp [handle, hown])
    | start =>
      exact .executing (hmem hstart) hcred (hkeep hstart _ hline) hreq (by simpa [handle] using hown)
    | recv c =>
      exact .executing (hmem hstart) hcred (hkeep hstart _ hline) hreq (by simpa [handle] using hown)
  | executed past hstart hcred hline hreq hpast hnone hown =>
    exact .executed past (hmem hstart) hcred (hkeep hstart _ hline) hreq
      (hpast.trans (List.prefix_append h _)) hnone (by cases e <;> simpa [handle] using hown)

/-- A turn of another connection. -/
theorem Served.frame {d : Daemon κ} {k : κ} {s : Phase} {es : List Event} {h : List (κ × Effect)}
    (hs : Served d k s es h) {j : κ} (hj : j ≠ k) (effs : List Effect) :
    Served d k s es (h ++ effs.map fun a => (j, a)) := by
  have hsame : own k (h ++ effs.map fun a => (j, a)) = own k h := by
    rw [own_append, own_tagged_ne hj, List.append_nil]
  cases hs with
  | accepted hstart hown => exact .accepted hstart (hsame.trans hown)
  | refused hstart hcred hown => exact .refused hstart hcred (hsame ▸ hown)
  | reading hstart hcred hwait hown => exact .reading hstart hcred hwait (hsame.trans hown)
  | answered hstart hcred hline hreq hown =>
    exact .answered hstart hcred hline hreq (hsame.trans hown)
  | executing hstart hcred hline hreq hown =>
    exact .executing hstart hcred hline hreq (hsame.trans hown)
  | executed past hstart hcred hline hreq hpast hnone hown =>
    exact .executed past hstart hcred hline hreq (hpast.trans (List.prefix_append h _)) hnone
      (hsame.trans hown)

/-- The daemon after a schedule of its connections' events. -/
def serve (d : Daemon κ) (schedule : List (κ × Event)) : State κ Phase Effect :=
  Interleave.run (handle d) (State.start .accepted) schedule

/-- How every connection stands after every schedule. -/
theorem served (d : Daemon κ) (schedule : List (κ × Event)) (k : κ) :
    Served d k ((serve d schedule).states k) (own k schedule) (serve d schedule).history :=
  run_invariant (I := Served d) (fun k => .accepted (by simp) rfl)
    (fun _ _ _ _ e hs => hs.step e) (fun _ _ _ _ _ effs hj hs => hs.frame hj effs) schedule k

/-! ## Safety -/

/-- An action that an op can lead to: its own binary with an argv that fits its template, or the fixed
write of a rescan. -/
def ActionOf (op : PrivOp) (a : Action) : Prop :=
  (∃ bin args, op.shape.binary = some bin ∧ a = .spawn bin args ∧
      List.Forall₂ (Slot.Fits op) op.shape.template args) ∨
    op = .fcScan ∧ ∃ ent : FileName,
      a = .write ("/sys/class/scsi_host/" ++ ent.1 ++ "/scan") "- - -\n"

/-- What an operation does is one of its actions. -/
theorem actionOf_execute {host : Host} {op : PrivOp} {a : Action} (h : a ∈ (execute host op).2) :
    ActionOf op a := by
  by_cases hop : op = .fcScan
  · subst hop
    exact .inr ⟨rfl, fcScan_writes host h⟩
  · rcases execute_safe host hop with ⟨field, hrefused⟩ | ⟨bin, args, hbin, hact, hfits⟩
    · simp [hrefused, invalid] at h
    · rw [hact, List.mem_singleton] at h
      exact .inl ⟨bin, args, hbin, h, hfits⟩

/-- Reading a line does nothing at the host. -/
theorem act_not_mem_request (json : Json) (line : List UInt8) (a : Action) :
    .act a ∉ (request json line).2 := by
  unfold request
  split
  · simp
  · split
    · simp
    · split <;> simp

/-- What root can be made to do. Whatever any number of peers send, in whatever order their tasks take
turns: a peer with another uid gets at most the line that denies it, and has nothing done for it; a
peer with the allowed uid has at most one op executed, the one its first line asks for, and gets one
line, the result of that very execution; and every process spawned and every file written belongs to
such an op and fits its template. -/
theorem supervdsmd_safety (d : Daemon κ) (schedule : List (κ × Event)) (k : κ) :
    let history := (serve d schedule).history
    let asked := readLine (chunksRead (own k schedule))
    (d.peerCred k ≠ some d.allowedUid →
        own k history = [] ∨ own k history = [.reply (denied d.json)]) ∧
      (d.peerCred k = some d.allowedUid →
        own k history = [] ∨
          ∃ line, asked = some line ∧
            (own k history = (request d.json line).2 ∨
              ∃ op past, request d.json line = (.executing op, []) ∧ past <+: history ∧
                own k past = [] ∧ own k history = outcome d.json (d.host past) op)) ∧
      ∀ a, (k, .act a) ∈ history →
        d.peerCred k = some d.allowedUid ∧ ∃ line op, asked = some line ∧
          request d.json line = (.executing op, []) ∧ ActionOf op a := by
  have hserved := served d schedule k
  intro history asked
  have hmem : ∀ a, (k, .act a) ∈ history ↔ .act a ∈ own k history := fun a => mem_own.symm
  simp only [hmem]
  clear hmem
  generalize (serve d schedule).states k = phase at hserved
  cases hserved with
  | accepted hstart hown => exact ⟨fun _ => .inl hown, fun _ => .inl hown, by simp [history, hown]⟩
  | refused hstart hcred hown =>
    refine ⟨fun _ => hown, fun h => absurd h hcred, fun a ha => ?_⟩
    rcases hown with hown | hown <;> simp [history, hown] at ha
  | reading hstart hcred hwait hown =>
    exact ⟨fun h => absurd hcred h, fun _ => .inl hown, by simp [history, hown]⟩
  | answered hstart hcred hline hreq hown =>
    refine ⟨fun h => absurd hcred h, fun _ => .inr ⟨_, hline, .inl hown⟩, fun a ha => ?_⟩
    rw [show own k history = _ from hown] at ha
    exact absurd ha (act_not_mem_request _ _ a)
  | executing hstart hcred hline hreq hown =>
    exact ⟨fun h => absurd hcred h, fun _ => .inl hown, by simp [history, hown]⟩
  | executed past hstart hcred hline hreq hpast hnone hown =>
    refine ⟨fun h => absurd hcred h, fun _ => .inr ⟨_, hline, .inr ⟨_, past, hreq, hpast, hnone, hown⟩⟩,
      fun a ha => ⟨hcred, _, _, hline, hreq, ?_⟩⟩
    rw [show own k history = _ from hown, outcome] at ha
    exact actionOf_execute (by simpa using ha)

/-! ## The client -/

/-- The bytes sent to a peer. -/
def replied (effs : List Effect) : List UInt8 :=
  effs.flatMap fun e => match e with
    | .reply bytes => bytes
    | .act _ => []

/-- What was done for a peer. -/
def acted (effs : List Effect) : List Action :=
  effs.filterMap fun e => match e with
    | .act a => some a
    | .reply _ => none

/-- `call_at`, once its request is written, on the chunks of the reply. `none` is an `io::Error`. -/
def callAt (json : Json) (reply : List (List UInt8)) : Option PrivResult := do
  let bytes ← readLine reply
  let resp ← (fromUtf8 bytes).toOption
  json.readResult (trim resp)

/-- `supervdsm::run`. -/
def runAt (json : Json) (reply : List (List UInt8)) : Option String :=
  match callAt json reply with
  | some r => if r.ok then some r.stdout else none
  | none => none

namespace Printed

variable {text : String}

/-- A printed text is a line of its own. -/
theorem readLine_line (h : Printed text) {chunks : List (List UInt8)} (hne : [] ∉ chunks)
    (hsent : chunks.flatten = line text) : readLine chunks = some (line text) := by
  have hbytes : line text = asBytes text ++ [newline] := asBytes_line _
  rw [hbytes]
  refine readLine_of_mem (r := []) (newline_not_mem_asBytes h.one_line) ?_
  rw [stream_of_not_mem hne, hsent, hbytes]

/-- Only the LF is trimmed off it. -/
theorem trim_print (h : Printed text) : trim (text ++ "\n") = text := by
  obtain ⟨inner, hb⟩ := h.braces
  have hopen : "\x7b".toList = ['\x7b'] := rfl
  have hclose : "\x7d".toList = ['\x7d'] := rfl
  refine trim_line (fun c hc => ?_) fun c hc => ?_
  · obtain rfl : '\x7b' = c := by simpa [hb, hopen] using hc
    rfl
  · rw [hb, String.toList_append, hclose, List.getLast?_concat] at hc
    obtain rfl : '\x7d' = c := by simpa using hc
    rfl

/-- It is not empty. -/
theorem ne_empty (h : Printed text) : text ≠ "" := by
  obtain ⟨inner, hb⟩ := h.braces
  rintro rfl
  have hnil := congrArg String.toList hb
  simp at hnil

end Printed

/-- The daemon reads the op a client writes. -/
theorem request_line {json : Json} {op : PrivOp} (h : json.FaithfulOp op) :
    request json (line (json.printOp op)) = (.executing op, []) := by
  have hprinted := h.toPrinted
  simp [request, line, fromUtf8_asBytes, hprinted.trim_print, hprinted.ne_empty, h.read_print]

/-- The client reads the result the daemon writes. -/
theorem callAt_line {json : Json} {r : PrivResult} (h : json.FaithfulResult r)
    {reply : List (List UInt8)} (hne : [] ∉ reply)
    (hreply : reply.flatten = line (json.printResult r)) : callAt json reply = some r := by
  have hprinted := h.toPrinted
  rw [callAt, hprinted.readLine_line hne hreply]
  simp [line, fromUtf8_asBytes, Except.toOption, hprinted.trim_print, h.read_print]

/-- An op whose end has been awaited is not executing any more. -/
theorem not_executing (d : Daemon κ) (schedule : List (κ × Event)) (k : κ) :
    (own k schedule).getLast? = some .finish → ∀ op, (serve d schedule).states k ≠ .executing op := by
  refine run_invariant
    (I := fun _ (s : Phase) (es : List Event) _ =>
      es.getLast? = some .finish → ∀ op, s ≠ .executing op)
    (fun _ h => by simp at h) (fun k s es h e _ hlast op => ?_) (fun _ _ _ _ _ _ _ hinv => hinv)
    schedule k
  obtain rfl : e = .finish := by simpa using hlast
  cases s <;> simp [handle]

/-- The turns of a whole call read all of its chunks. -/
theorem chunksRead_turns (chunks : List (List UInt8)) :
    chunksRead (.start :: chunks.map .recv ++ [.finish]) = chunks := by
  have hrecv : (chunks.map Event.recv).filterMap (fun e => match e with
      | .recv chunk => some chunk
      | _ => none) = chunks := by
    rw [List.filterMap_map]
    exact List.filterMap_some
  simp [chunksRead, hrecv]

/-- What is done for a request is what its operation does. -/
theorem acted_outcome (json : Json) (host : Host) (op : PrivOp) :
    acted (outcome json host op) = (execute host op).2 := by
  have hact : ∀ as : List Action, (as.map Effect.act).filterMap (fun e => match e with
      | .act a => some a
      | .reply _ => none) = as := by
    intro as
    rw [List.filterMap_map]
    exact List.filterMap_some
  simp [acted, outcome, hact]

/-- What is replied is the result of that execution. -/
theorem replied_outcome (json : Json) (host : Host) (op : PrivOp) :
    replied (outcome json host op) = line (json.printResult (execute host op).1) := by
  have hact : ∀ as : List Action, (as.map Effect.act).flatMap (fun e => match e with
      | .reply bytes => bytes
      | .act _ => []) = [] := by
    intro as
    simp [List.flatMap_map]
  simp [replied, outcome, hact]

/-- A connection whose task starts, reads an op in whatever chunks and awaits it has had it executed. -/
theorem own_eq_outcome {d : Daemon κ} {op : PrivOp} {schedule : List (κ × Event)} {k : κ}
    {chunks : List (List UInt8)} (hcred : d.peerCred k = some d.allowedUid)
    (hturns : own k schedule = .start :: chunks.map .recv ++ [.finish])
    (hchunks : [] ∉ chunks) (hsent : chunks.flatten = line (d.json.printOp op))
    (hop : d.json.FaithfulOp op) :
    ∃ past, past <+: (serve d schedule).history ∧ own k past = [] ∧
      own k (serve d schedule).history = outcome d.json (d.host past) op := by
  have hread : readLine (chunksRead (own k schedule)) = some (line (d.json.printOp op)) := by
    rw [hturns, chunksRead_turns]
    exact hop.toPrinted.readLine_line hchunks hsent
  have hreq := request_line hop
  have hdone := not_executing d schedule k (by rw [hturns, List.getLast?_concat])
  have hserved := served d schedule k
  generalize (serve d schedule).states k = phase at hserved hdone
  -- of the ways to stand, only one is left: the op has been executed
  cases hserved with
  | accepted hstart hown => exact absurd (by simp [hturns]) hstart
  | refused hstart hne hown => exact absurd hcred hne
  | reading hstart _ hwait hown => simp [hread] at hwait
  | answered hstart _ hline hclosed hown =>
    obtain rfl := Option.some.inj (hread.symm.trans hline)
    simp [hreq] at hclosed
  | executing hstart _ hline hexec hown => exact absurd rfl (hdone _)
  | executed past hstart _ hline hexec hpast hnone hown =>
    obtain rfl := Option.some.inj (hread.symm.trans hline)
    obtain rfl : op = _ := by simpa [hreq] using hexec
    exact ⟨past, hpast, hnone, hown⟩

/-- What a client gets. A peer with the allowed uid sends an op, its task starts, reads the line in
whatever chunks and awaits the op, and the other connections take any turns in between. Then the op is
executed exactly once, and `call` and `run` return the result of that execution. -/
theorem call_executes_once (d : Daemon κ) (op : PrivOp) (schedule : List (κ × Event)) (k : κ)
    (chunks reply : List (List UInt8)) (hcred : d.peerCred k = some d.allowedUid)
    (hturns : own k schedule = .start :: chunks.map .recv ++ [.finish])
    (hchunks : [] ∉ chunks) (hsent : chunks.flatten = line (d.json.printOp op))
    (hop : d.json.FaithfulOp op)
    (hres : ∀ past, d.json.FaithfulResult (execute (d.host past) op).1) (hreply : [] ∉ reply)
    (hgot : reply.flatten = replied (own k (serve d schedule).history)) :
    ∃ past, past <+: (serve d schedule).history ∧ own k past = [] ∧
      acted (own k (serve d schedule).history) = (execute (d.host past) op).2 ∧
      callAt d.json reply = some (execute (d.host past) op).1 ∧
      runAt d.json reply =
        if (execute (d.host past) op).1.ok then some (execute (d.host past) op).1.stdout else none := by
  obtain ⟨past, hpast, hnone, hown⟩ := own_eq_outcome hcred hturns hchunks hsent hop
  have hcall : callAt d.json reply = some (execute (d.host past) op).1 := by
    refine callAt_line (hres past) hreply ?_
    rw [hgot, hown, replied_outcome]
  refine ⟨past, hpast, hnone, ?_, hcall, ?_⟩
  · rw [hown, acted_outcome]
  · simp only [runAt, hcall]

/-- The texts of a rescan, its result and the denial, as `serde_json` has them. -/
def rescanText : String := "\x7b\"op\":\"iscsi_rescan\"\x7d"

def rescannedText : String := "\x7b\"ok\":true,\"code\":0,\"stdout\":\"\",\"stderr\":\"\"\x7d"

def deniedText : String :=
  "\x7b\"ok\":false,\"code\":-1,\"stdout\":\"\"," ++
    "\"stderr\":\"unauthorized: peer uid not permitted\"\x7d"

/-- The result of a rescan on a quiet host. -/
def rescanned : PrivResult := ⟨true, 0, "", ""⟩

/-- Two peers: one of the allowed uid, one not. -/
def twoPeers : Daemon Bool where
  allowedUid := 36
  peerCred k := some (if k then 36 else 1000)
  json :=
    { readOp := fun s =>
        if s = rescanText then .ok .iscsiRescan else .error "expected value at line 1 column 1"
      printOp := fun _ => rescanText
      readResult := fun s => if s = rescannedText then some rescanned else none
      printResult := fun r => if r.ok then rescannedText else deniedText }
  host _ := quietHost

/-- The allowed peer's turns, with the other's in between. -/
def twoPeersTurns : List (Bool × Event) :=
  [(false, .start), (true, .start), (true, .recv ((asBytes rescanText).take 5)),
    (false, .recv (asBytes rescanText)), (true, .recv ((asBytes rescanText).drop 5 ++ [newline])),
    (false, .finish), (true, .finish)]

/-- The operation of an allowed peer is executed beside that of another one. -/
theorem call_executes_once_rescan :
    runAt twoPeers.json [line rescannedText] = some "" ∧
      acted (own true (serve twoPeers twoPeersTurns).history)
        = [.spawn "/usr/sbin/iscsiadm" ["-m", "session", "--rescan"]] := by
  have hexec : execute quietHost .iscsiRescan
      = (rescanned, [.spawn "/usr/sbin/iscsiadm" ["-m", "session", "--rescan"]]) := rfl
  have hop : twoPeers.json.FaithfulOp .iscsiRescan :=
    ⟨⟨by decide, "\"op\":\"iscsi_rescan\"", by decide⟩, rfl⟩
  have hres : twoPeers.json.FaithfulResult rescanned :=
    ⟨⟨by decide, "\"ok\":true,\"code\":0,\"stdout\":\"\",\"stderr\":\"\"", by decide⟩, rfl⟩
  have hturns : own true twoPeersTurns
      = .start :: [(asBytes rescanText).take 5, (asBytes rescanText).drop 5 ++ [newline]].map .recv
        ++ [.finish] := rfl
  have hsent : [(asBytes rescanText).take 5, (asBytes rescanText).drop 5 ++ [newline]].flatten
      = line (twoPeers.json.printOp .iscsiRescan) := by decide
  have hgot : [line rescannedText].flatten
      = replied (own true (serve twoPeers twoPeersTurns).history) := by
    obtain ⟨past, -, -, hown⟩ := own_eq_outcome rfl hturns (by decide) hsent hop
    rw [hown, replied_outcome]
    simp [twoPeers, hexec, rescanned]
  obtain ⟨past, -, -, hacted, -, hrun⟩ := call_executes_once twoPeers .iscsiRescan twoPeersTurns true
    _ _ rfl hturns (by decide) hsent hop (fun _ => hres) (by decide) hgot
  exact ⟨hrun, hacted⟩

end Vdsm.Supervdsm
