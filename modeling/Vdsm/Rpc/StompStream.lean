import Vdsm.Lib.Framing
import Vdsm.Rpc.Stomp

/-!
# The STOMP parser as an incremental decoder

`parseFrame` decides on a prefix only what no further byte can change: a returned frame, an error
and a panic stand under extension of the buffer (`stompDecoder_stable`), and a returned remainder is
a strictly shorter suffix of the input (`parseFrame_suffix`). The read loop of `serve_stomp` is then
independent of how the transport cuts the stream.

Each parsing function has one extension lemma, in the form "if it did not ask for more on `b`, then
on `b ++ x` it returns the same, with `x` appended to what it leaves".
-/

namespace Vdsm.Stomp

open Rust Framing

/-! ## Equations -/

/-- The header loop never panics on its own: it waits, or it has a line in front. -/
theorem parseHeaders_of_not_mem {c : List UInt8} (hs : List (String × String)) (cl : Option ℕ)
    (h : lf ∉ c) : parseHeaders c hs cl = .ok none := by
  rw [parseHeaders]
  split <;> simp_all [splitAtByte_of_not_mem h]

/-- One turn of the loop over the header lines. -/
theorem parseHeaders_line {line rest : List UInt8} (hs : List (String × String)) (cl : Option ℕ)
    (h : lf ∉ line) :
    parseHeaders (line ++ lf :: rest) hs cl =
      if stripCr line = [] then .ok (some ((hs, cl), rest))
      else parseHeaderLine (stripCr line) cl >>= fun p => parseHeaders rest (hs ++ [p.1]) p.2 := by
  have hsplit := splitAtByte_append_cons (ε := ParseError) (r := rest) h
  rw [parseHeaders]
  split
  · simp_all
  · simp_all
  · simp_all
  · rename_i line' rest' h'
    obtain ⟨rfl, rfl⟩ : line = line' ∧ rest = rest' := by simpa [hsplit] using h'
    rfl

/-- The body of declared length in front of its terminator. -/
theorem parseBody_declared {n : ℕ} {body rest : List UInt8} (t : UInt8) (hn : n + 1 ≤ usizeMax)
    (hbody : body.length = n) :
    parseBody (some n) (body ++ t :: rest) =
      if t ≠ nul then .err (.contentLengthMismatch n ((memchr nul body).getD n))
      else Rs.ofOption (toVec body) >>= fun v => .ok (some (v, rest)) := by
  have hadd : checkedAdd n 1 = some (n + 1) := if_pos hn
  have hlen : ¬ (body ++ t :: rest).length < n + 1 := by simp; omega
  have hto : sliceTo (body ++ t :: rest) n = some body := by
    rw [sliceTo, if_pos (by simp; omega), ← hbody, List.take_left']
    rfl
  have hget : (body ++ t :: rest)[n]? = some t := by simp [← hbody]
  have hfrom : sliceFrom (body ++ t :: rest) (n + 1) = some rest := by
    rw [sliceFrom, if_pos (by simp; omega), ← hbody]
    simp
  simp only [parseBody, hadd, hto, hget, hfrom, Rs.ofOption_some, Rs.ok_bind, if_neg hlen]
  rfl

/-- With a declared length, the parser overflows, waits, or has the body and one more byte in
front. -/
theorem parseBody_declared_cases (n : ℕ) (c : List UInt8) :
    (usizeMax < n + 1 ∧ parseBody (some n) c = .panic) ∨
      (n + 1 ≤ usizeMax ∧ parseBody (some n) c = .ok none) ∨
      (n + 1 ≤ usizeMax ∧ ∃ body t rest, c = body ++ t :: rest ∧ body.length = n) := by
  by_cases hn : n + 1 ≤ usizeMax
  · have hadd : checkedAdd n 1 = some (n + 1) := if_pos hn
    by_cases hlen : c.length < n + 1
    · exact .inr (.inl ⟨hn, by simp [parseBody, hadd, hlen]⟩)
    · have hlt : n < c.length := by omega
      refine .inr (.inr ⟨hn, c.take n, c.get ⟨n, hlt⟩, c.drop (n + 1), ?_, by simp; omega⟩)
      rw [List.get_eq_getElem, List.getElem_cons_drop, List.take_append_drop]
  · have hadd : checkedAdd n 1 = none := if_neg hn
    exact .inl ⟨by omega, by simp [parseBody, hadd]⟩

/-- Without one, the body ends at the first NUL. -/
theorem parseBody_undeclared :
    parseBody none = andThen (splitAtByte nul) fun body r =>
      Rs.ofOption (toVec body) >>= fun v => .ok (some (v, r)) := by
  funext c
  simp only [parseBody, andThen]
  congr 1
  funext o
  cases o <;> rfl

/-- Where a body ends: after the length in force, else at its first NUL. -/
def BodyEnds (cl : Option ℕ) (body : List UInt8) : Prop :=
  match cl with
  | some n => body.length = n
  | none => nul ∉ body

/-- The body the parser cuts off, and what it leaves. -/
theorem parseBody_eq_some {cl : Option ℕ} {c rest : List UInt8} {v : Vec8} :
    parseBody cl c = .ok (some (v, rest)) ↔ c = v.1 ++ nul :: rest ∧ BodyEnds cl v.1 := by
  have hcopy : ∀ {body r : List UInt8},
      (Rs.ofOption (toVec body) >>= fun w => .ok (some (w, r)) : Rs ParseError _)
        = .ok (some (v, rest)) → body = v.1 ∧ r = rest := by
    intro body r h
    rw [toVec] at h
    split at h
    · obtain ⟨rfl, rfl⟩ : _ = v ∧ r = rest := by simpa using h
      exact ⟨rfl, rfl⟩
    · simp at h
  constructor
  · intro h
    cases cl with
    | some n =>
      obtain ⟨-, hp⟩ | ⟨-, hw⟩ | ⟨hn, body, t, r, rfl, hbody⟩ := parseBody_declared_cases n c
      · simp [hp] at h
      · simp [hw] at h
      · rw [parseBody_declared t hn hbody] at h
        split at h
        · simp at h
        · rename_i ht
          obtain ⟨rfl, rfl⟩ := hcopy h
          exact ⟨by rw [not_not.mp ht], hbody⟩
    | none =>
      rw [parseBody_undeclared] at h
      obtain ⟨body, r, hs, hcut⟩ := andThen_eq_some h
      obtain ⟨rfl, hnul⟩ := splitAtByte_eq_some hs
      obtain ⟨rfl, rfl⟩ := hcopy hcut
      exact ⟨rfl, hnul⟩
  · rintro ⟨rfl, hends⟩
    cases cl with
    | some n =>
      obtain rfl : v.1.length = n := hends
      rw [parseBody_declared nul (succ_le_usizeMax v.2) rfl]
      simp [toVec_val]
    | none =>
      rw [parseBody_undeclared]
      simp [andThen, splitAtByte_append_cons hends, toVec_val]

/-! ## Extension -/

/-- Bytes behind the headers do not change what they are read as. -/
theorem parseHeaders_stable (hs : List (String × String)) (cl : Option ℕ) :
    StableCut (parseHeaders · hs cl) := by
  intro c x h
  -- on the length of the cursor: each line is cut off before the loop goes on
  induction hn : c.length using Nat.strongRecOn generalizing c hs cl with
  | _ n ih =>
    subst hn
    obtain ⟨hlf, -⟩ | ⟨line, rest, rfl, hline, -⟩ := splitAtByte_cases ParseError lf c
    · exact absurd (parseHeaders_of_not_mem hs cl hlf) h
    · simp only [List.append_assoc, List.cons_append, parseHeaders_line hs cl hline] at h ⊢
      split
      · rfl
      · rename_i hne
        rw [if_neg hne] at h
        cases hp : parseHeaderLine (stripCr line) cl with
        | err e => rfl
        | panic => rfl
        | ok p =>
          rw [hp] at h
          exact ih _ (by simp; omega) _ _ rest h rfl

/-- Nor do bytes behind the body. -/
theorem parseBody_stable (cl : Option ℕ) : StableCut (parseBody cl) := by
  cases cl with
  | none =>
    rw [parseBody_undeclared]
    refine (splitAtByte_stable nul).andThen fun body r x h => ?_
    cases toVec body <;> rfl
  | some n =>
    intro c x h
    obtain ⟨hn, hp⟩ | ⟨-, hw⟩ | ⟨hn, body, t, rest, rfl, hbody⟩ := parseBody_declared_cases n c
    -- the overflow depends on the declared length alone
    · have hadd : checkedAdd n 1 = none := if_neg (by omega)
      simp [parseBody, hadd, extendRest]
    · exact absurd hw h
    · rw [List.append_assoc, List.cons_append, parseBody_declared t hn hbody,
        parseBody_declared t hn hbody]
      split
      · rfl
      · cases toVec body <;> rfl

/-- After the command line: headers, then body. -/
def afterCommand (line cursor : List UInt8) : Rs ParseError (Option (Frame × List UInt8)) :=
  if stripCr line = [] then .err (.malformed "empty command line")
  else Rs.ofExcept .utf8 (fromUtf8 (stripCr line)) >>= fun command =>
    andThen (parseHeaders · [] none) (fun block =>
      andThen (parseBody block.2) fun body r => .ok (some (⟨command, block.1, body⟩, r))) cursor

/-- `parseFrame` as a composition of parsing steps. -/
theorem parseFrame_eq (input : List UInt8) :
    parseFrame input = andThen (splitAtByte lf) afterCommand (skipHeartbeats input) := by
  by_cases hnil : skipHeartbeats input = []
  · simp [parseFrame, hnil, andThen, splitAtByte_of_not_mem]
  · simp only [parseFrame, hnil, if_false, andThen, afterCommand, Rs.pure_eq]
    congr 1
    funext o
    cases o with
    | none => rfl
    | some p =>
      simp only
      split
      · rfl
      · congr 1
        funext command
        congr 1
        funext o
        cases o with
        | none => rfl
        | some q =>
          simp only
          congr 1
          funext o
          cases o <;> rfl

/-- So what is read of a frame behind its command does not change. -/
theorem afterCommand_stable (line : List UInt8) : StableCut (afterCommand line) := by
  intro c x h
  unfold afterCommand at h ⊢
  split
  · rfl
  · rename_i hne
    rw [if_neg hne] at h
    cases hu : fromUtf8 (stripCr line) with
    | error e => rfl
    | ok command =>
      rw [hu] at h
      refine StableCut.andThen (parseHeaders_stable [] none) (fun block => ?_) c x h
      exact (parseBody_stable block.2).andThen fun body r x _ => rfl

/-- Heartbeats are skipped alike in a longer buffer, once a line follows them. A lone CR at the end
could still be half of a heartbeat. -/
theorem skipHeartbeats_append {b : List UInt8} (x : List UInt8) (h : lf ∈ skipHeartbeats b) :
    skipHeartbeats (b ++ x) = skipHeartbeats b ++ x := by
  fun_induction skipHeartbeats b with
  | case1 rest ih => exact ih h
  | case2 rest ih => exact ih h
  | case3 input h1 h2 =>
    match input, h, h1, h2 with
    -- a single byte that contains an LF is one, and would have been skipped
    | [y], h, h1, h2 =>
      obtain rfl : lf = y := by simpa using h
      exact (h1 [] rfl).elim
    | y :: z :: rest, h, h1, h2 =>
      rw [List.cons_append, List.cons_append, skipHeartbeats]
      · intro rest' heq
        exact h1 (z :: rest) (by simp_all)
      · intro rest' heq
        exact h2 rest (by simp_all)

/-- The parser as a whole: what arrives later does not change a frame or an error. -/
theorem parseFrame_stable : StableCut parseFrame := by
  intro b x h
  rw [parseFrame_eq] at h
  -- a decision needs a complete command line
  have hlf : lf ∈ skipHeartbeats b := by
    by_contra hn
    exact h (by simp [andThen, splitAtByte_of_not_mem hn])
  rw [parseFrame_eq, parseFrame_eq, skipHeartbeats_append x hlf]
  exact ((splitAtByte_stable lf).andThen afterCommand_stable) _ x h

/-! ## What a frame leaves -/

/-- A cut leaves a part of what it got, a shorter one. -/
theorem splitAtByte_leavesSuffix (needle : UInt8) :
    LeavesSuffix (splitAtByte (ε := ParseError) needle) := by
  intro b l r h
  obtain ⟨rfl, -⟩ := splitAtByte_eq_some h
  exact (List.suffix_cons needle r).trans (List.suffix_append l _)

/-- So do the headers. -/
theorem parseHeaders_leavesSuffix (hs : List (String × String)) (cl : Option ℕ) :
    LeavesSuffix (parseHeaders · hs cl) := by
  intro c block r h
  induction hn : c.length using Nat.strongRecOn generalizing c hs cl with
  | _ n ih =>
    subst hn
    obtain ⟨hlf, -⟩ | ⟨line, rest, rfl, hline, -⟩ := splitAtByte_cases ParseError lf c
    · simp [parseHeaders_of_not_mem hs cl hlf] at h
    · have hrest : rest <:+ line ++ lf :: rest :=
        (List.suffix_cons lf rest).trans (List.suffix_append line _)
      simp only [parseHeaders_line hs cl hline] at h
      split at h
      · obtain rfl : rest = r := by simp_all
        exact hrest
      · cases hp : parseHeaderLine (stripCr line) cl with
        | err e => simp [hp] at h
        | panic => simp [hp] at h
        | ok p =>
          rw [hp] at h
          exact (ih rest.length (by simp; omega) _ _ rest h rfl).trans hrest

/-- So does the body. -/
theorem parseBody_leavesSuffix (cl : Option ℕ) : LeavesSuffix (parseBody cl) := by
  intro c v r h
  obtain ⟨rfl, -⟩ := parseBody_eq_some.mp h
  exact ⟨v.1 ++ [nul], by simp⟩

/-- So do the two together. -/
theorem afterCommand_leavesSuffix (line : List UInt8) : LeavesSuffix (afterCommand line) := by
  intro c f r h
  unfold afterCommand at h
  split at h
  · simp at h
  · cases hu : fromUtf8 (stripCr line) with
    | error e => simp [hu] at h
    | ok command =>
      rw [hu] at h
      refine LeavesSuffix.andThen (parseHeaders_leavesSuffix [] none) (fun block => ?_) c f r h
      refine (parseBody_leavesSuffix block.2).andThen fun body => ?_
      intro c f r h
      obtain ⟨-, rfl⟩ : _ ∧ c = r := by simpa using h
      exact List.suffix_rfl

/-- Skipping heartbeats takes bytes from the front. -/
theorem skipHeartbeats_suffix (b : List UInt8) : skipHeartbeats b <:+ b := by
  fun_induction skipHeartbeats b with
  | case1 rest ih => exact ih.trans (List.suffix_cons _ _)
  | case2 rest ih => exact ih.trans ((List.suffix_cons _ _).trans (List.suffix_cons _ _))
  | case3 => exact List.suffix_rfl

/-- A returned remainder is a strictly shorter suffix of the input. -/
theorem parseFrame_suffix {b r : List UInt8} {f : Frame}
    (h : parseFrame b = .ok (some (f, r))) : r <:+ b ∧ r.length < b.length := by
  rw [parseFrame_eq] at h
  obtain ⟨line, rest, hsplit, hafter⟩ := andThen_eq_some h
  obtain ⟨hskip, -⟩ := splitAtByte_eq_some hsplit
  have hr : r <:+ rest := afterCommand_leavesSuffix line rest f r hafter
  have hb : skipHeartbeats b <:+ b := skipHeartbeats_suffix b
  have hrest : rest <:+ skipHeartbeats b := splitAtByte_leavesSuffix lf _ line rest hsplit
  refine ⟨(hr.trans hrest).trans hb, ?_⟩
  have h1 := hr.length_le
  have h2 := hb.length_le
  rw [hskip] at h2
  simp at h2
  omega

/-- `parse_frame` as a frame decoder. -/
def stompDecoder : Decoder UInt8 Frame ParseError where
  cut := parseFrame
  shrinks h := (parseFrame_suffix h).2

/-! ## The read loop -/

/-- What the read loop of `serve_stomp` delivers from a stream read chunk by chunk: the frames, and
how it ends (waiting on an unparsed tail, or with a parse error). -/
def delivered (chunks : List (List UInt8)) : End UInt8 ParseError (List Frame) Empty :=
  readLoop stompDecoder collect [] [] chunks

/-- From the start of a connection, reading chunk by chunk is draining the whole stream. -/
theorem stomp_readLoop_eq_drain {σ ρ : Type} (handle : σ → Frame → Flow σ ρ) (s : σ)
    (chunks : List (List UInt8)) (hne : ∀ c ∈ chunks, c ≠ []) :
    readLoop stompDecoder handle s [] chunks = drain stompDecoder handle s chunks.flatten := by
  have hwait : stompDecoder.cut [] = .ok none := rfl
  have h : readLoop stompDecoder handle s [] chunks
      = drain stompDecoder handle s ([] ++ chunks.flatten) :=
    readLoop_eq_drain parseFrame_stable chunks hne s [] hwait
  simpa using h

/-- The same, with the whole stream as the only chunk; an empty stream is the end of input. -/
theorem stomp_readLoop_flatten {σ ρ : Type} (handle : σ → Frame → Flow σ ρ) (s : σ)
    (chunks : List (List UInt8)) (hne : ∀ c ∈ chunks, c ≠ []) :
    readLoop stompDecoder handle s [] chunks
      = readLoop stompDecoder handle s [] [chunks.flatten] := by
  by_cases hnil : chunks.flatten = []
  · have hchunks : chunks = [] := by
      rw [List.eq_nil_iff_forall_not_mem]
      intro c hc
      exact hne c hc (List.flatten_eq_nil_iff.mp hnil c hc)
    subst hchunks
    simp [readLoop]
  · rw [stomp_readLoop_eq_drain handle s chunks hne,
      stomp_readLoop_eq_drain handle s [chunks.flatten] (by simpa using hnil)]
    simp

/-- Chunking independence of the STOMP reader. However a stream is cut into chunks, the read loop
delivers the same frames and ends the same way as on the whole stream, and so does a connection
that handles the frames in any way; what `parse_frame` decides on a buffer stands when more bytes
follow; and what it leaves is a strictly shorter suffix. -/
theorem reader_chunking_independent (chunks : List (List UInt8)) (hne : ∀ c ∈ chunks, c ≠ []) :
    delivered chunks = delivered [chunks.flatten] ∧
      (∀ (σ ρ : Type) (handle : σ → Frame → Flow σ ρ) (s : σ),
        readLoop stompDecoder handle s [] chunks
          = readLoop stompDecoder handle s [] [chunks.flatten]) ∧
      (∀ b x f r, parseFrame b = .ok (some (f, r)) →
        parseFrame (b ++ x) = .ok (some (f, r ++ x))) ∧
      (∀ b x e, parseFrame b = .err e → parseFrame (b ++ x) = .err e) ∧
      (∀ b f r, parseFrame b = .ok (some (f, r)) → r <:+ b ∧ r.length < b.length) := by
  refine ⟨stomp_readLoop_flatten collect [] chunks hne,
    fun σ ρ handle s => stomp_readLoop_flatten handle s chunks hne, ?_, ?_, ?_⟩
  · intro b x f r h
    rw [parseFrame_stable b x (by simp [h]), h]
    rfl
  · intro b x e h
    rw [parseFrame_stable b x (by simp [h]), h]
    rfl
  · intro b f r h
    exact parseFrame_suffix h

/-- A frame cut inside its command, before its blank line and before its NUL, with a byte of the
next frame behind it. -/
theorem reader_chunking_independent_split :
    (∀ c ∈ [[65], [66, 10], [10], [0, 67]], c ≠ ([] : List UInt8)) ∧
      delivered [[65], [66, 10], [10], [0, 67]] = delivered [[65, 66, 10, 10, 0, 67]] :=
  ⟨by decide, (reader_chunking_independent [[65], [66, 10], [10], [0, 67]] (by decide)).1⟩

end Vdsm.Stomp
