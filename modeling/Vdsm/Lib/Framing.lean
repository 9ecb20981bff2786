import Vdsm.Lib.RustBytes

/-!
# Incremental frame decoders

A `Decoder` looks at the front of a buffer and cuts one frame off it, asks for more input, or gives
up. A connection drives it with two nested loops: `readLoop` appends each chunk the transport
delivers to the buffer, `drain` cuts frames until the decoder asks for more and hands each to the
protocol's `handle`.

Where the transport cuts the stream is not the protocol's business. `StableCut` is the condition
under which it is not: a decision taken on a prefix stands when more input follows.
`readLoop_eq_drain` is the consequence: whatever the protocol does with the frames, every chunking
of a stream ends as the whole stream in one buffer does. Decoders are built from parsing steps by
`andThen`, which keeps both stability and the shrinking of the buffer.

`drain_eq_feed` separates the two layers: the frames a stream delivers depend on the decoder alone,
and the protocol sees only their list.
-/

namespace Framing

open Rust

variable {α φ ε σ ρ : Type}

/-- A frame decoder over buffers of `α`. A frame takes at least one element, so that cutting frames
off a buffer ends. -/
structure Decoder (α φ ε : Type) where
  cut : List α → Rs ε (Option (φ × List α))
  shrinks : ∀ {b f r}, cut b = .ok (some (f, r)) → r.length < b.length

/-- What a protocol does with a frame: go on in a new state, or end the connection. -/
inductive Flow (σ ρ : Type) where
  | next (s : σ)
  | halt (r : ρ)

/-- How a connection's loop stands when it stops cutting frames: out of input with the unparsed
tail in the buffer, refused by the decoder, unwound by a panic of the decoder, or ended by the
protocol. -/
inductive End (α ε σ ρ : Type) where
  | starved (s : σ) (buf : List α)
  | failed (s : σ) (e : ε)
  | panicked (s : σ)
  | halted (r : ρ)

/-- Continue a loop that ran out of input. -/
def End.resume (e : End α ε σ ρ) (k : σ → List α → End α ε σ ρ) : End α ε σ ρ :=
  match e with
  | starved s buf => k s buf
  | other => other

/-- The inner loop: cut frames off the buffer until the decoder asks for more. -/
def drain (d : Decoder α φ ε) (handle : σ → φ → Flow σ ρ) (s : σ) (buf : List α) :
    End α ε σ ρ :=
  match _h : d.cut buf with
  | .ok (some (f, rest)) =>
    match handle s f with
    | .next s' => drain d handle s' rest
    | .halt r => .halted r
  | .ok none => .starved s buf
  | .err e => .failed s e
  | .panic => .panicked s
termination_by buf.length
decreasing_by exact d.shrinks _h

/-- The outer loop: append each chunk and drain. An empty read is the end of the stream. -/
def readLoop (d : Decoder α φ ε) (handle : σ → φ → Flow σ ρ) :
    σ → List α → List (List α) → End α ε σ ρ
  | s, buf, [] => .starved s buf
  | s, buf, chunk :: chunks =>
    if chunk = [] then .starved s buf
    else (drain d handle s (buf ++ chunk)).resume fun s' buf' =>
      readLoop d handle s' buf' chunks

/-! ## Independence of the chunking -/

/-- Append `x` to what a cut leaves. -/
def extendRest (x : List α) : Rs ε (Option (φ × List α)) → Rs ε (Option (φ × List α))
  | .ok (some (f, r)) => .ok (some (f, r ++ x))
  | .ok none => .ok none
  | .err e => .err e
  | .panic => .panic

/-- Decisions on a prefix stand when more input follows. -/
def StableCut (cut : List α → Rs ε (Option (φ × List α))) : Prop :=
  ∀ b x, cut b ≠ .ok none → cut (b ++ x) = extendRest x (cut b)

variable {d : Decoder α φ ε} {handle : σ → φ → Flow σ ρ}

/-- A buffer with a frame at its front goes to the handler, and the rest is drained. -/
theorem drain_of_frame {s : σ} {b r : List α} {f : φ} (h : d.cut b = .ok (some (f, r))) :
    drain d handle s b = match handle s f with
      | .next s' => drain d handle s' r
      | .halt r => .halted r := by
  rw [drain]
  split
  · rename_i f' r' h'
    obtain ⟨rfl, rfl⟩ : f' = f ∧ r' = r := by simpa [h] using h'.symm
    rfl
  all_goals simp_all

/-- A buffer without a whole frame waits. -/
theorem drain_of_none {s : σ} {b : List α} (h : d.cut b = .ok none) :
    drain d handle s b = .starved s b := by
  rw [drain]
  split <;> simp_all

/-- A buffer that is refused ends the connection. -/
theorem drain_of_err {s : σ} {b : List α} {e : ε} (h : d.cut b = .err e) :
    drain d handle s b = .failed s e := by
  rw [drain]
  split <;> simp_all

/-- A cutter that panics ends the task. -/
theorem drain_of_panic {s : σ} {b : List α} (h : d.cut b = .panic) :
    drain d handle s b = .panicked s := by
  rw [drain]
  split <;> simp_all

/-- When the inner loop runs out of input, the decoder asks for more on what is left. -/
theorem cut_of_drain_starved {s s' : σ} {b b' : List α}
    (h : drain d handle s b = .starved s' b') : d.cut b' = .ok none := by
  fun_induction drain d handle s b with
  | case1 s b f rest hc s'' hh ih => exact ih h
  | case2 => simp at h
  | case3 s b hc =>
    obtain ⟨-, rfl⟩ : s = s' ∧ b = b' := by simpa using h
    exact hc
  | case4 => simp at h
  | case5 => simp at h

/-- Draining a longer buffer is draining its prefix and then resuming with the rest. -/
theorem drain_append (hd : StableCut d.cut) (s : σ) (b x : List α) :
    drain d handle s (b ++ x)
      = (drain d handle s b).resume fun s' b' => drain d handle s' (b' ++ x) := by
  fun_induction drain d handle s b with
  | case1 s b f rest hc s' hh ih =>
    have hx := hd b x (by simp [hc])
    rw [hc] at hx
    rw [drain_of_frame hx, hh]
    exact ih
  | case2 s b f rest hc r hh =>
    have hx := hd b x (by simp [hc])
    rw [hc] at hx
    rw [drain_of_frame hx, hh]
    rfl
  | case3 s b hc => rfl
  | case4 s b e hc =>
    have hx := hd b x (by simp [hc])
    rw [hc] at hx
    rw [drain_of_err hx]
    rfl
  | case5 s b hc =>
    have hx := hd b x (by simp [hc])
    rw [hc] at hx
    rw [drain_of_panic hx]
    rfl

/-- From a buffer on which the decoder waits, every chunking of what follows ends as the whole of
it in one buffer. -/
theorem readLoop_eq_drain (hd : StableCut d.cut) (chunks : List (List α)) (hne : ∀ c ∈ chunks, c ≠ [])
    (s : σ) (buf : List α) (hwait : d.cut buf = .ok none) :
    readLoop d handle s buf chunks = drain d handle s (buf ++ chunks.flatten) := by
  induction chunks generalizing s buf with
  | nil => simp [readLoop, drain_of_none hwait]
  | cons c cs ih =>
    have hc : c ≠ [] := hne c (by simp)
    have hcs : ∀ c' ∈ cs, c' ≠ [] := fun c' hc' => hne c' (by simp [hc'])
    rw [readLoop, if_neg hc, List.flatten_cons, ← List.append_assoc,
      drain_append hd s (buf ++ c)]
    cases hdr : drain d handle s (buf ++ c) with
    -- what the first chunk leaves is a buffer on which the decoder waits again
    | starved s' buf' => exact ih hcs s' buf' (cut_of_drain_starved hdr)
    | failed s' e => rfl
    | panicked s' => rfl
    | halted r => rfl

/-! ## Decoders from parsing steps -/

variable {ψ : Type}

/-- Parse with `p`, then with `q` on what `p` leaves; either may ask for more. -/
def andThen (p : List α → Rs ε (Option (φ × List α)))
    (q : φ → List α → Rs ε (Option (ψ × List α))) (b : List α) : Rs ε (Option (ψ × List α)) :=
  p b >>= fun o => match o with
    | some (a, r) => q a r
    | none => .ok none

/-- What a parsing step leaves is a suffix of its input. -/
def LeavesSuffix (p : List α → Rs ε (Option (φ × List α))) : Prop :=
  ∀ b f r, p b = .ok (some (f, r)) → r <:+ b

variable {p : List α → Rs ε (Option (φ × List α))} {q : φ → List α → Rs ε (Option (ψ × List α))}

/-- Cutting in two stages is stable if each stage is. -/
theorem StableCut.andThen (hp : StableCut p) (hq : ∀ a, StableCut (q a)) :
    StableCut (andThen p q) := by
  intro b x h
  have hpb : p b ≠ .ok none := by
    intro hn
    exact h (by simp [Framing.andThen, hn])
  have hpx := hp b x hpb
  cases hc : p b with
  | err e => simp [Framing.andThen, hc, hpx, extendRest]
  | panic => simp [Framing.andThen, hc, hpx, extendRest]
  | ok o =>
    cases o with
    | none => exact absurd hc hpb
    | some ar =>
      obtain ⟨a, r⟩ := ar
      -- `p` has decided on `b`, so `q` is the one that may still wait
      have hqr : q a r ≠ .ok none := by simpa [Framing.andThen, hc] using h
      simpa [Framing.andThen, hc, hpx, extendRest] using hq a r x hqr

/-- How a composed step comes to a frame. -/
theorem andThen_eq_some {b : List α} {f : ψ} {r : List α}
    (h : andThen p q b = .ok (some (f, r))) :
    ∃ a r', p b = .ok (some (a, r')) ∧ q a r' = .ok (some (f, r)) := by
  cases hc : p b with
  | err e => simp [andThen, hc] at h
  | panic => simp [andThen, hc] at h
  | ok o =>
    cases o with
    | none => simp [andThen, hc] at h
    | some ar => exact ⟨ar.1, ar.2, rfl, by simpa [andThen, hc] using h⟩

/-- Two stages leave a suffix of what they get. -/
theorem LeavesSuffix.andThen (hp : LeavesSuffix p) (hq : ∀ a, LeavesSuffix (q a)) :
    LeavesSuffix (andThen p q) := by
  intro b f r h
  obtain ⟨a, r', hpb, hqr⟩ := andThen_eq_some h
  exact (hq a r' f r hqr).trans (hp b a r' hpb)

/-- A cut at the first delimiter does not depend on what comes later. -/
theorem splitAtByte_stable (needle : UInt8) : StableCut (splitAtByte (ε := ε) needle) := by
  intro b x h
  obtain ⟨-, hn⟩ | ⟨l, r, rfl, hl, hs⟩ := splitAtByte_cases ε needle b
  · exact absurd hn h
  · rw [hs, List.append_assoc, List.cons_append, splitAtByte_append_cons hl]
    rfl

/-! ## Frames, then the protocol -/

/-- The protocol that keeps the frames and never ends the connection. -/
def collect (fs : List φ) (f : φ) : Flow (List φ) Empty := .next (fs ++ [f])

/-- The protocol alone, over a list of frames. -/
def feed (handle : σ → φ → Flow σ ρ) : σ → List φ → Flow σ ρ
  | s, [] => .next s
  | s, f :: fs =>
    match handle s f with
    | .next s' => feed handle s' fs
    | .halt r => .halt r

/-- The end of a connection, from the frames its stream delivers and how the stream ends. -/
def End.after (handle : σ → φ → Flow σ ρ) (s : σ) (e : End α ε (List φ) Empty) :
    End α ε σ ρ :=
  match e with
  | starved fs buf =>
    match feed handle s fs with
    | .next s' => .starved s' buf
    | .halt r => .halted r
  | failed fs e =>
    match feed handle s fs with
    | .next s' => .failed s' e
    | .halt r => .halted r
  | panicked fs =>
    match feed handle s fs with
    | .next s' => .panicked s'
    | .halt r => .halted r

/-- Frames handed over in two lots. -/
theorem feed_append (s : σ) (fs gs : List φ) :
    feed handle s (fs ++ gs) = match feed handle s fs with
      | .next s' => feed handle s' gs
      | .halt r => .halt r := by
  induction fs generalizing s with
  | nil => rfl
  | cons f fs ih =>
    simp only [List.cons_append, feed]
    cases handle s f with
    | next s' => exact ih s'
    | halt r => rfl

/-- The collecting loop only appends to the frames it starts with. -/
theorem drain_collect_append (fs : List φ) (b : List α) :
    (drain d collect fs b : End α ε (List φ) Empty) = match drain d collect [] b with
      | .starved gs buf => .starved (fs ++ gs) buf
      | .failed gs e => .failed (fs ++ gs) e
      | .panicked gs => .panicked (fs ++ gs) := by
  -- on the length of the buffer: a cut leaves less than it found
  induction hn : b.length using Nat.strongRecOn generalizing fs b with
  | _ n ih =>
    subst hn
    cases hc : d.cut b with
    | panic => simp [drain_of_panic hc]
    | err e => simp [drain_of_err hc]
    | ok o =>
      cases o with
      | none => simp [drain_of_none hc]
      | some p =>
        obtain ⟨f, r⟩ := p
        have hlt := d.shrinks hc
        rw [drain_of_frame hc, drain_of_frame hc]
        simp only [collect, List.nil_append]
        rw [ih _ hlt (fs ++ [f]) r rfl, ih _ hlt [f] r rfl]
        cases drain d collect [] r with
        | halted e => exact e.elim
        | _ => simp

/-- The frames come from the decoder alone; the protocol sees their list. -/
theorem drain_eq_feed (s : σ) (b : List α) :
    drain d handle s b = (drain d collect [] b).after handle s := by
  induction hn : b.length using Nat.strongRecOn generalizing s b with
  | _ n ih =>
    subst hn
    cases hc : d.cut b with
    | panic => simp [drain_of_panic hc, End.after, feed]
    | err e => simp [drain_of_err hc, End.after, feed]
    | ok o =>
      cases o with
      | none => simp [drain_of_none hc, End.after, feed]
      | some p =>
        obtain ⟨f, r⟩ := p
        rw [drain_of_frame hc, drain_of_frame hc]
        simp only [collect, List.nil_append]
        -- the frames behind the first are collected from its remainder
        rw [drain_collect_append [f] r]
        cases hh : handle s f with
        | halt r' =>
          cases drain d collect [] r with
          | halted e => exact e.elim
          | _ => simp [End.after, feed, hh]
        | next s' =>
          simp only
          rw [ih _ (d.shrinks hc) s' r rfl]
          cases drain d collect [] r with
          | halted e => exact e.elim
          | _ => simp [End.after, feed, hh]

/-- Nothing is read after an empty chunk. -/
theorem readLoop_takeWhile (s : σ) (buf : List α) (chunks : List (List α)) :
    readLoop d handle s buf chunks = readLoop d handle s buf (chunks.takeWhile (!·.isEmpty)) := by
  induction chunks generalizing s buf with
  | nil => rfl
  | cons c cs ih =>
    by_cases hc : c = []
    · simp [readLoop, hc]
    · have htake : (c :: cs).takeWhile (!·.isEmpty) = c :: cs.takeWhile (!·.isEmpty) := by
        simp [hc]
      rw [htake, readLoop, readLoop, if_neg hc, if_neg hc]
      congr 1
      funext s' buf'
      exact ih s' buf'

/-- The two layers of a whole connection: the decoder and the chunks give the frames, the protocol
handles their list. -/
theorem readLoop_eq_after (hd : StableCut d.cut) (hwait : d.cut [] = .ok none) (s : σ)
    (chunks : List (List α)) :
    readLoop d handle s [] chunks = (readLoop d collect [] [] chunks).after handle s := by
  have hne : ∀ c ∈ chunks.takeWhile (!·.isEmpty), c ≠ [] := by
    intro c hc
    have hall := List.all_eq_true.mp (List.all_takeWhile (p := (!·.isEmpty)) (l := chunks)) c hc
    simpa using hall
  rw [readLoop_takeWhile s, readLoop_takeWhile ([] : List φ),
    readLoop_eq_drain hd _ hne s [] hwait, readLoop_eq_drain hd _ hne [] [] hwait, drain_eq_feed]

/-- Nothing is read after the decoder gave up. -/
theorem readLoop_append_of_failed {s s' : σ} {buf : List α} {chunks : List (List α)} {e : ε}
    (h : readLoop d handle s buf chunks = .failed s' e) (more : List (List α)) :
    readLoop d handle s buf (chunks ++ more) = .failed s' e := by
  induction chunks generalizing s buf with
  | nil => simp [readLoop] at h
  | cons c cs ih =>
    rw [readLoop] at h
    rw [List.cons_append, readLoop]
    split at h
    · simp at h
    · rename_i hc
      rw [if_neg hc]
      cases hdr : drain d handle s (buf ++ c) with
      | starved s'' buf'' =>
        rw [hdr] at h
        exact ih h
      | failed s'' e' =>
        rw [hdr] at h
        exact h
      | panicked s'' => simp [hdr, End.resume] at h
      | halted r => simp [hdr, End.resume] at h

/-! ## Encoders -/

/-- Call the decoder `n` times: the frames, and what is left. -/
def cutMany (d : Decoder α φ ε) : ℕ → List α → Option (List φ × List α)
  | 0, b => some ([], b)
  | n + 1, b =>
    match d.cut b with
    | .ok (some (f, r)) => (cutMany d n r).map fun p => (f :: p.1, p.2)
    | _ => none

/-- A decoder that inverts an encoder on each item inverts it on a stream of them, whatever
follows. -/
theorem cutMany_flatMap {ι : Type} (enc : ι → List α) (frame : ι → φ) (xs : List ι)
    (h : ∀ x ∈ xs, ∀ r, d.cut (enc x ++ r) = .ok (some (frame x, r))) (rest : List α) :
    cutMany d xs.length (xs.flatMap enc ++ rest) = some (xs.map frame, rest) := by
  induction xs with
  | nil => rfl
  | cons x xs ih =>
    have hx := h x (by simp) (xs.flatMap enc ++ rest)
    have hxs := ih fun y hy => h y (by simp [hy])
    rw [List.flatMap_cons, List.append_assoc, List.length_cons, cutMany, hx]
    simp [hxs]

/-- The next frame. -/
theorem cutMany_concat {n : ℕ} {b r r' : List α} {fs : List φ} {f : φ}
    (h : cutMany d n b = some (fs, r)) (hf : d.cut r = .ok (some (f, r'))) :
    cutMany d (n + 1) b = some (fs ++ [f], r') := by
  induction n generalizing b fs with
  | zero =>
    obtain ⟨rfl, rfl⟩ : [] = fs ∧ b = r := by simpa [cutMany] using h
    simp [cutMany, hf]
  | succ n ih =>
    rw [cutMany] at h
    split at h
    · rename_i g s hc
      obtain ⟨gs, hs, rfl⟩ : ∃ gs, cutMany d n s = some (gs, r) ∧ g :: gs = fs := by simpa using h
      rw [cutMany, hc]
      simp [ih hs]
    · simp at h

/-- Frames that have been cut off stay as they are when more input follows. -/
theorem cutMany_append (hd : StableCut d.cut) {n : ℕ} {b r : List α} {fs : List φ}
    (h : cutMany d n b = some (fs, r)) (x : List α) :
    cutMany d n (b ++ x) = some (fs, r ++ x) := by
  induction n generalizing b fs with
  | zero =>
    obtain ⟨rfl, rfl⟩ : [] = fs ∧ b = r := by simpa [cutMany] using h
    rfl
  | succ n ih =>
    rw [cutMany] at h
    split at h
    · rename_i g s hc
      obtain ⟨gs, hs, rfl⟩ : ∃ gs, cutMany d n s = some (gs, r) ∧ g :: gs = fs := by simpa using h
      have hx := hd b x (by simp [hc])
      rw [hc] at hx
      rw [cutMany, hx]
      simp [extendRest, ih hs]
    · simp at h

/-- Frames cut one by one are what the loop delivers, when the decoder waits on what is left. -/
theorem drain_collect_of_cutMany {n : ℕ} {b rest : List α} {fs : List φ}
    (h : cutMany d n b = some (fs, rest)) (hwait : d.cut rest = .ok none) :
    (drain d collect [] b : End α ε (List φ) Empty) = .starved fs rest := by
  induction n generalizing b fs with
  | zero =>
    obtain ⟨rfl, rfl⟩ : [] = fs ∧ b = rest := by simpa [cutMany] using h
    exact drain_of_none hwait
  | succ n ih =>
    rw [cutMany] at h
    split at h
    · rename_i f r hc
      obtain ⟨gs, hr, rfl⟩ : ∃ gs, cutMany d n r = some (gs, rest) ∧ f :: gs = fs := by
        simpa using h
      rw [drain_of_frame hc]
      simp only [collect, List.nil_append]
      rw [drain_collect_append [f] r, ih hr]
      rfl
    · simp at h

end Framing
