import Vdsm.Rpc.StompRoundTrip

/-!
# Panics of the STOMP parser

`parseFrameChecked` is `parse_frame` with every addition on `usize`, every index and every slice
checked. On a byte string that fits in memory it is `parseFrame`, so of all these operations only the
`n + 1` of the body length can panic. `DeclaresMaximum` is the shape of the input where it does.
-/

namespace Vdsm.Stomp

open Rust Framing

/-! ## The parser with every operation checked -/

/-- One turn of the loop of `skip_heartbeats`: how many bytes the heartbeat at an index has. -/
def heartbeatLength (input : List UInt8) (i : ℕ) : Option ℕ := do
  let b ← input[i]?
  if b = lf then return 1
  else if b = cr then
    let j ← checkedAdd i 1
    if j < input.length then
      let c ← input[j]?
      return if c = lf then 2 else 0
    else return 0
  else return 0

/-- The loop, which takes at most as many turns as there are bytes. -/
def skipIndex (input : List UInt8) : ℕ → ℕ → Option ℕ
  | 0, i => some i
  | turns + 1, i =>
    if i < input.length then do
      let n ← heartbeatLength input i
      if n = 0 then some i
      else
        let i ← checkedAdd i n
        skipIndex input turns i
    else some i

/-- `skip_heartbeats`. -/
def skipHeartbeatsChecked (input : List UInt8) : Option (List UInt8) := do
  let i ← skipIndex input input.length 0
  sliceFrom input i

/-- `strip_cr`. -/
def stripCrChecked (line : List UInt8) : Option (List UInt8) :=
  if line.getLast? = some cr then do
    let i ← checkedSub line.length 1
    sliceTo line i
  else some line

/-- `memchr`, `&b[..i]` and `&b[i + 1..]`. -/
def splitChecked {ε : Type} (needle : UInt8) (b : List UInt8) :
    Rs ε (Option (List UInt8 × List UInt8)) :=
  match memchr needle b with
  | none => .ok none
  | some i => do
    let before ← Rs.ofOption (sliceTo b i)
    let next ← Rs.ofOption (checkedAdd i 1)
    let after ← Rs.ofOption (sliceFrom b next)
    return some (before, after)

/-- One header line. -/
def parseHeaderLineChecked (rawLine : List UInt8) (contentLength : Option ℕ) :
    Rs ParseError ((String × String) × Option ℕ) := do
  let some (keyRaw, valRaw) ← splitChecked colon rawLine
    | .err (.malformed "header line missing ':'")
  let key := unescapeHeader (← Rs.ofExcept .utf8 (fromUtf8 keyRaw))
  let val := unescapeHeader (← Rs.ofExcept .utf8 (fromUtf8 valRaw))
  if key = "content-length" ∧ contentLength = none then
    match parseUnsigned usizeMax val with
    | some n => return ((key, val), some n)
    | none => .err (.badContentLength val)
  else
    return ((key, val), contentLength)

/-- The cut with checked indices, where there is a delimiter. -/
theorem splitChecked_append_cons {ε : Type} {needle : UInt8} {l r : List UInt8} (h : needle ∉ l) :
    (splitChecked needle (l ++ needle :: r) : Rs ε _) =
      if l.length + 1 ≤ usizeMax then .ok (some (l, r)) else .panic := by
  rw [splitChecked, memchr_append_cons h]
  by_cases hfits : l.length + 1 ≤ usizeMax
  · simp [checkedAdd, hfits, sliceTo, sliceFrom]
  · simp [checkedAdd, hfits, sliceTo]

/-- Without a delimiter nothing is indexed. -/
theorem splitChecked_of_not_mem {ε : Type} {needle : UInt8} {b : List UInt8} (h : needle ∉ b) :
    (splitChecked needle b : Rs ε _) = .ok none := by
  rw [splitChecked, memchr_of_not_mem h]

/-- What is left is shorter. -/
theorem splitChecked_length {ε : Type} {needle : UInt8} {b l r : List UInt8}
    (h : (splitChecked needle b : Rs ε _) = .ok (some (l, r))) : r.length < b.length := by
  by_cases hmem : needle ∈ b
  · obtain ⟨l', r', rfl, hl'⟩ := List.eq_append_cons_of_mem hmem
    rw [splitChecked_append_cons hl'] at h
    split at h
    · obtain ⟨-, rfl⟩ : l' = l ∧ r' = r := by simpa using h
      simp
      omega
    · cases h
  · simp [splitChecked_of_not_mem hmem] at h

/-- The header loop. -/
def parseHeadersChecked (cursor : List UInt8) (headers : List (String × String))
    (contentLength : Option ℕ) : Rs ParseError (Option (HeaderBlock × List UInt8)) :=
  match _h : splitChecked lf cursor with
  | .panic => .panic
  | .err e => .err e
  | .ok none => .ok none
  | .ok (some (line, rest)) => do
    let rawLine ← Rs.ofOption (stripCrChecked line)
    if rawLine = [] then .ok (some ((headers, contentLength), rest))
    else
      let (header, contentLength) ← parseHeaderLineChecked rawLine contentLength
      parseHeadersChecked rest (headers ++ [header]) contentLength
termination_by cursor.length
decreasing_by exact splitChecked_length _h

/-- The body. -/
def parseBodyChecked (contentLength : Option ℕ) (cursor : List UInt8) :
    Rs ParseError (Option (Vec8 × List UInt8)) :=
  match contentLength with
  | some n => do
    let needed ← Rs.ofOption (checkedAdd n 1)
    if cursor.length < needed then return none
    let body ← Rs.ofOption (sliceTo cursor n)
    let terminator ← Rs.ofOption cursor[n]?
    if terminator ≠ nul then
      .err (.contentLengthMismatch n ((memchr nul body).getD n))
    else
      let body ← Rs.ofOption (toVec body)
      let next ← Rs.ofOption (checkedAdd n 1)
      let remaining ← Rs.ofOption (sliceFrom cursor next)
      return some (body, remaining)
  | none => do
    let some (body, remaining) ← splitChecked nul cursor | return none
    let body ← Rs.ofOption (toVec body)
    return some (body, remaining)

/-- `parse_frame`. -/
def parseFrameChecked (input : List UInt8) : Rs ParseError (Option (Frame × List UInt8)) := do
  let cursor ← Rs.ofOption (skipHeartbeatsChecked input)
  if cursor = [] then return none
  let some (line, cursor) ← splitChecked lf cursor | return none
  let commandLine ← Rs.ofOption (stripCrChecked line)
  if commandLine = [] then .err (.malformed "empty command line")
  else
    let command ← Rs.ofExcept .utf8 (fromUtf8 commandLine)
    let some ((headers, contentLength), cursor) ← parseHeadersChecked cursor [] none | return none
    let some (body, remaining) ← parseBodyChecked contentLength cursor | return none
    return some (⟨command, headers, body⟩, remaining)

/-! ## On what fits in memory it is the parser -/

/-- In a buffer that fits into memory no index overflows, and the cut is the unchecked one. -/
theorem splitChecked_eq {ε : Type} {needle : UInt8} {b : List UInt8} (h : b.length ≤ isizeMax) :
    (splitChecked needle b : Rs ε _) = splitAtByte needle b := by
  by_cases hmem : needle ∈ b
  · obtain ⟨l, r, rfl, hl⟩ := List.eq_append_cons_of_mem hmem
    have hlen : l.length ≤ isizeMax := by
      refine le_trans ?_ h
      simp
    rw [splitChecked_append_cons hl, splitAtByte_append_cons hl, if_pos (succ_le_usizeMax hlen)]
  · rw [splitChecked_of_not_mem hmem, splitAtByte_of_not_mem hmem]

/-- The index of the last byte of a line is in its bounds. -/
theorem stripCrChecked_eq (line : List UInt8) : stripCrChecked line = some (stripCr line) := by
  rw [stripCrChecked, stripCr]
  split
  · rename_i hlast
    have hpos : 1 ≤ line.length := List.length_pos_of_mem (List.mem_of_getLast? hlast)
    simp [checkedSub, hpos, sliceTo, List.dropLast_eq_take]
  · rfl

/-- A byte that begins no heartbeat ends the skipping. -/
theorem skipHeartbeats_of_ne {b : UInt8} {rest : List UInt8} (hlf : b ≠ lf)
    (hcr : b = cr → ∀ tail, rest ≠ lf :: tail) : skipHeartbeats (b :: rest) = b :: rest := by
  rw [skipHeartbeats]
  · rintro rest' heq
    exact hlf (List.cons.inj heq).1
  · rintro rest' heq
    obtain ⟨hb, htail⟩ := List.cons.inj heq
    exact hcr hb rest' htail

/-- A turn of the loop finds the heartbeat that `skipHeartbeats` drops, or none. -/
theorem heartbeatLength_spec {before rest : List UInt8} {b : UInt8}
    (h : (before ++ b :: rest).length ≤ isizeMax) :
    heartbeatLength (before ++ b :: rest) before.length = some 0 ∧
        skipHeartbeats (b :: rest) = b :: rest ∨
      ∃ n, n ≠ 0 ∧ n ≤ (b :: rest).length ∧
        heartbeatLength (before ++ b :: rest) before.length = some n ∧
        skipHeartbeats (b :: rest) = skipHeartbeats ((b :: rest).drop n) := by
  have hlen : before.length ≤ isizeMax := by
    refine le_trans ?_ h
    simp
  have hadd : checkedAdd before.length 1 = some (before.length + 1) := if_pos (succ_le_usizeMax hlen)
  by_cases hlf : b = lf
  · subst hlf
    exact .inr ⟨1, by decide, by simp, by simp [heartbeatLength], rfl⟩
  by_cases hcr : b = cr
  · subst hcr
    cases rest with
    | nil =>
      left
      exact ⟨by simp [heartbeatLength, hadd, cr, lf], rfl⟩
    | cons c tail =>
      by_cases hc : c = lf
      · subst hc
        refine .inr ⟨2, by decide, by simp, ?_, rfl⟩
        simp [heartbeatLength, hadd, cr, lf]
      · left
        refine ⟨?_, skipHeartbeats_of_ne hlf fun _ tail' heq => hc (List.cons.inj heq).1⟩
        have hc' : ¬c = 10 := hc
        simp [heartbeatLength, hadd, hc', cr, lf]
  · left
    exact ⟨by simp [heartbeatLength, hlf, hcr], skipHeartbeats_of_ne hlf fun h => absurd h hcr⟩

/-- The loop moves on as `skipHeartbeats` does. -/
theorem skipIndex_eq {input : List UInt8} (h : input.length ≤ isizeMax) (turns i : ℕ)
    (hi : i ≤ input.length) (hturns : input.length - i ≤ turns) :
    ∃ j, skipIndex input turns i = some j ∧ j ≤ input.length ∧
      input.drop j = skipHeartbeats (input.drop i) := by
  induction turns generalizing i with
  | zero =>
    obtain rfl : i = input.length := by omega
    exact ⟨_, rfl, le_rfl, by simp [skipHeartbeats]⟩
  | succ turns ih =>
    by_cases hlt : i < input.length
    · obtain ⟨before, b, rest, rfl, rfl⟩ : ∃ before b rest,
          input = before ++ b :: rest ∧ before.length = i :=
        ⟨input.take i, input.get ⟨i, hlt⟩, input.drop (i + 1), by simp, by simp; omega⟩
      rw [skipIndex, if_pos hlt, List.drop_left]
      rcases heartbeatLength_spec h with ⟨hstop, hskip⟩ | ⟨n, hn, hle, hmove, hskip⟩
      · exact ⟨before.length, by simp [hstop], hi, by rw [List.drop_left, hskip]⟩
      · have hadd : checkedAdd before.length n = some (before.length + n) := by
          have hbound : before.length + n ≤ isizeMax := by
            refine le_trans ?_ h
            simp at hle ⊢
            omega
          exact if_pos ((Nat.le_succ _).trans (succ_le_usizeMax hbound))
        have hdrop : (before ++ b :: rest).drop (before.length + n) = (b :: rest).drop n := by
          rw [List.drop_append]
          simp
        obtain ⟨j, hj, hjle, hrest⟩ := ih (before.length + n) (by simp at hle ⊢; omega)
          (by simp at hturns ⊢; omega)
        refine ⟨j, ?_, hjle, by rw [hrest, hdrop, hskip]⟩
        simpa [hmove, hn, hadd] using hj
    · obtain rfl : i = input.length := by omega
      exact ⟨_, by simp [skipIndex], le_rfl, by simp [skipHeartbeats]⟩

/-- Skipping heartbeats indexes within its input. -/
theorem skipHeartbeatsChecked_eq {input : List UInt8} (h : input.length ≤ isizeMax) :
    skipHeartbeatsChecked input = some (skipHeartbeats input) := by
  obtain ⟨j, hj, hle, hdrop⟩ := skipIndex_eq h input.length 0 (Nat.zero_le _) (by omega)
  rw [List.drop_zero] at hdrop
  simp [skipHeartbeatsChecked, hj, sliceFrom, hle, hdrop]

/-- So does the reader of a header line. -/
theorem parseHeaderLineChecked_eq {rawLine : List UInt8} (h : rawLine.length ≤ isizeMax)
    (cl : Option ℕ) : parseHeaderLineChecked rawLine cl = parseHeaderLine rawLine cl := by
  rw [parseHeaderLineChecked, splitChecked_eq h]
  rfl

theorem stripCr_length (line : List UInt8) : (stripCr line).length ≤ line.length := by
  rw [stripCr]
  split
  · simp
  · exact le_rfl

/-- Without a line feed the headers wait. -/
theorem parseHeadersChecked_of_not_mem {c : List UInt8} (hs : List (String × String)) (cl : Option ℕ)
    (h : lf ∉ c) : parseHeadersChecked c hs cl = .ok none := by
  rw [parseHeadersChecked]
  split <;> simp_all [splitChecked_of_not_mem h]

/-- One turn of the loop with checked indices. -/
theorem parseHeadersChecked_line {line rest : List UInt8} (hs : List (String × String)) (cl : Option ℕ)
    (h : lf ∉ line) (hlen : line.length ≤ isizeMax) :
    parseHeadersChecked (line ++ lf :: rest) hs cl =
      if stripCr line = [] then .ok (some ((hs, cl), rest))
      else parseHeaderLine (stripCr line) cl >>= fun p =>
        parseHeadersChecked rest (hs ++ [p.1]) p.2 := by
  have hsplit : (splitChecked lf (line ++ lf :: rest) : Rs ParseError _) = .ok (some (line, rest)) := by
    rw [splitChecked_append_cons h, if_pos (succ_le_usizeMax hlen)]
  have hraw : (stripCr line).length ≤ isizeMax := (stripCr_length line).trans hlen
  rw [parseHeadersChecked]
  split
  · simp_all
  · simp_all
  · simp_all
  · rename_i line' rest' h'
    obtain ⟨rfl, rfl⟩ : line = line' ∧ rest = rest' := by simpa [hsplit] using h'
    rw [stripCrChecked_eq, Rs.ofOption_some, Rs.ok_bind, parseHeaderLineChecked_eq hraw]

/-- The loop over the header lines indexes within its input. -/
theorem parseHeadersChecked_eq {c : List UInt8} (h : c.length ≤ isizeMax)
    (hs : List (String × String)) (cl : Option ℕ) :
    parseHeadersChecked c hs cl = parseHeaders c hs cl := by
  induction hn : c.length using Nat.strongRecOn generalizing c hs cl with
  | _ n ih =>
    subst hn
    obtain ⟨hlf, -⟩ | ⟨line, rest, rfl, hline, -⟩ := splitAtByte_cases ParseError lf c
    · rw [parseHeadersChecked_of_not_mem hs cl hlf, parseHeaders_of_not_mem hs cl hlf]
    · have hlens : line.length + (rest.length + 1) ≤ isizeMax := by simpa using h
      rw [parseHeadersChecked_line hs cl hline (by omega), parseHeaders_line hs cl hline]
      split
      · rfl
      · congr 1
        funext p
        exact ih rest.length (by simp; omega) (by omega) _ _ rfl

/-- And so does the body: the two parsers agree. -/
theorem parseBodyChecked_eq {c : List UInt8} (h : c.length ≤ isizeMax) (cl : Option ℕ) :
    parseBodyChecked cl c = parseBody cl c := by
  cases cl with
  | none =>
    rw [parseBodyChecked, splitChecked_eq h]
    rfl
  | some n =>
    by_cases hn : n + 1 ≤ usizeMax
    · have hadd : checkedAdd n 1 = some (n + 1) := if_pos hn
      simp only [parseBodyChecked, parseBody, hadd, Rs.ofOption_some, Rs.ok_bind]
    · have hadd : checkedAdd n 1 = none := if_neg hn
      simp [parseBodyChecked, parseBody, hadd]

/-- With every operation checked, the parser is the same on what fits in memory. -/
theorem parseFrameChecked_eq (input : Vec8) : parseFrameChecked input.1 = parseFrame input.1 := by
  have hskip : (skipHeartbeats input.1).length ≤ isizeMax :=
    (skipHeartbeats_suffix input.1).length_le.trans input.2
  rw [parseFrameChecked, parseFrame, skipHeartbeatsChecked_eq input.2, Rs.ofOption_some, Rs.ok_bind]
  split
  · rfl
  rw [splitChecked_eq hskip]
  obtain ⟨-, hs⟩ | ⟨line, rest, heq, -, hs⟩ := splitAtByte_cases ParseError lf (skipHeartbeats input.1)
  · rw [hs]
    rfl
  · have hrest : rest.length ≤ isizeMax := by
      rw [heq] at hskip
      simp at hskip
      omega
    rw [hs, Rs.ok_bind, Rs.ok_bind]
    simp only [stripCrChecked_eq, Rs.ofOption_some, Rs.ok_bind, parseHeadersChecked_eq hrest]
    split
    · rfl
    congr 1
    funext command
    cases hp : parseHeaders rest [] none with
    | err e => rfl
    | panic => rfl
    | ok o =>
      cases o with
      | none => rfl
      | some q =>
        have hsuffix : q.2 <:+ rest := parseHeaders_leavesSuffix [] none rest q.1 q.2 hp
        rw [Rs.ok_bind]
        simp only [parseBodyChecked_eq (hsuffix.length_le.trans hrest)]
        rfl

/-! ## The one input that panics -/

/-- No header line panics the reader. -/
theorem parseHeaderLine_ne_panic (rawLine : List UInt8) (cl : Option ℕ) :
    parseHeaderLine rawLine cl ≠ .panic := by
  by_cases hno : ∀ h, ¬HeaderText rawLine h
  · obtain ⟨e, he⟩ := parseHeaderLine_of_not_text hno cl
    simp [he]
  · push Not at hno
    obtain ⟨h, ht⟩ := hno
    rw [parseHeaderLine_text ht]
    split
    · split <;> simp
    · simp

/-- Nor do the headers. -/
theorem parseHeaders_ne_panic (c : List UInt8) (hs : List (String × String)) (cl : Option ℕ) :
    parseHeaders c hs cl ≠ .panic := by
  induction hn : c.length using Nat.strongRecOn generalizing c hs cl with
  | _ n ih =>
    subst hn
    obtain ⟨hlf, -⟩ | ⟨line, rest, rfl, hline, -⟩ := splitAtByte_cases ParseError lf c
    · simp [parseHeaders_of_not_mem hs cl hlf]
    · rw [parseHeaders_line hs cl hline]
      split
      · simp
      · cases hp : parseHeaderLine (stripCr line) cl with
        | err e => simp
        | panic => exact absurd hp (parseHeaderLine_ne_panic _ cl)
        | ok p => exact ih rest.length (by simp; omega) rest _ _ rfl

/-- A declared length panics where one more byte is past `usize::MAX`. -/
theorem parseBody_eq_panic {c : List UInt8} (h : c.length ≤ isizeMax) (cl : Option ℕ) :
    parseBody cl c = .panic ↔ ∃ n, cl = some n ∧ usizeMax ≤ n := by
  have hcopy : ∀ body : List UInt8, body.length ≤ c.length → ∃ v, toVec body = some v :=
    fun body hle => ⟨_, dif_pos (hle.trans h)⟩
  cases cl with
  | none =>
    rw [parseBody_undeclared]
    obtain ⟨-, hs⟩ | ⟨body, rest, rfl, -, hs⟩ := splitAtByte_cases ParseError nul c
    · simp [andThen, hs]
    · obtain ⟨v, hv⟩ := hcopy body (by simp)
      simp [andThen, hs, hv]
  | some n =>
    have hcond : (∃ m, some n = some m ∧ usizeMax ≤ m) ↔ usizeMax < n + 1 := by
      rw [Nat.lt_succ_iff]
      exact ⟨fun h => Option.some.inj h.choose_spec.1 ▸ h.choose_spec.2, fun h => ⟨n, rfl, h⟩⟩
    rw [hcond]
    obtain ⟨hover, hp⟩ | ⟨hfits, hw⟩ | ⟨hfits, body, t, rest, rfl, hbody⟩ :=
      parseBody_declared_cases n c
    · simp [hp, hover]
    · simpa [hw] using hfits
    · obtain ⟨v, hv⟩ := hcopy body (by simp)
      rw [parseBody_declared t hfits hbody, hv]
      split
      · simpa using hfits
      · simpa using hfits

/-- A complete header block whose first `content-length` is `usize::MAX`, behind a command line. -/
def DeclaresMaximum (input : List UInt8) : Prop :=
  ∃ line cursor rest command headers v,
    skipHeartbeats input = line ++ lf :: cursor ∧ lf ∉ line ∧
      stripCr line = asBytes command ∧ command ≠ "" ∧
      HeaderLines cursor headers rest ∧
      firstLength headers = some v ∧ parseUnsigned usizeMax v = some usizeMax

/-- The length after the headers is at the maximum only if a header declares it. -/
theorem lengthAfter_max {hs : List (String × String)} {n : ℕ} (hn : usizeMax ≤ n) :
    lengthAfter none hs = some n ↔
      n = usizeMax ∧ ∃ v, firstLength hs = some v ∧ parseUnsigned usizeMax v = some usizeMax := by
  simp only [lengthAfter, Option.none_or, Option.bind_eq_some_iff]
  constructor
  · rintro ⟨v, hv, hparse⟩
    obtain rfl : n = usizeMax := le_antisymm (parseUnsigned_le hparse) hn
    exact ⟨rfl, v, hv, hparse⟩
  · rintro ⟨rfl, hv⟩
    exact hv

/-- After the headers only the body can panic. -/
theorem headersThenBody_eq_panic {c : List UInt8} (h : c.length ≤ isizeMax) (command : String) :
    andThen (parseHeaders · [] none) (fun block =>
        andThen (parseBody block.2) fun body r => .ok (some ((⟨command, block.1, body⟩ : Frame), r))) c
        = (.panic : Rs ParseError _) ↔
      ∃ rest headers v, HeaderLines c headers rest ∧ firstLength headers = some v ∧
        parseUnsigned usizeMax v = some usizeMax := by
  constructor
  · intro hp
    cases hheaders : parseHeaders c [] none with
    | err e => simp [andThen, hheaders] at hp
    | panic => exact absurd hheaders (parseHeaders_ne_panic c [] none)
    | ok o =>
      cases o with
      | none => simp [andThen, hheaders] at hp
      | some q =>
        obtain ⟨headers, hlines, -, hblock⟩ := parseHeaders_eq_some.mp hheaders
        have hrest : q.2.length ≤ isizeMax :=
          (parseHeaders_leavesSuffix [] none c q.1 q.2 hheaders).length_le.trans h
        have hbody : parseBody q.1.2 q.2 = .panic := by
          cases hb : parseBody q.1.2 q.2 with
          | panic => rfl
          | err e => simp [andThen, hheaders, hb] at hp
          | ok o => cases o <;> simp [andThen, hheaders, hb] at hp
        obtain ⟨n, hn, hmax⟩ := (parseBody_eq_panic hrest q.1.2).mp hbody
        rw [hblock] at hn
        obtain ⟨-, v, hv, hparse⟩ := (lengthAfter_max hmax).mp hn
        exact ⟨q.2, headers, v, hlines, hv, hparse⟩
  · rintro ⟨rest, headers, v, hlines, hv, hparse⟩
    have hreads : LengthReads none headers := by
      intro _ w hw
      obtain rfl : v = w := by simpa [hv] using hw
      simp [hparse]
    have hheaders : parseHeaders c [] none = .ok (some ((headers, lengthAfter none headers), rest)) :=
      parseHeaders_eq_some.mpr ⟨headers, hlines, hreads, rfl⟩
    have hlength : lengthAfter none headers = some usizeMax :=
      (lengthAfter_max le_rfl).mpr ⟨rfl, v, hv, hparse⟩
    have hrest : rest.length ≤ isizeMax :=
      (parseHeaders_leavesSuffix [] none c _ rest hheaders).length_le.trans h
    have hbody : parseBody (some usizeMax) rest = .panic :=
      (parseBody_eq_panic hrest _).mpr ⟨usizeMax, rfl, le_rfl⟩
    simp [andThen, hheaders, hlength, hbody]

/-- What panics is a first `content-length` of `usize::MAX`, and nothing else. -/
theorem afterCommand_eq_panic {line c : List UInt8} (h : c.length ≤ isizeMax) :
    afterCommand line c = .panic ↔
      ∃ rest command headers v, stripCr line = asBytes command ∧ command ≠ "" ∧
        HeaderLines c headers rest ∧ firstLength headers = some v ∧
        parseUnsigned usizeMax v = some usizeMax := by
  rw [afterCommand]
  constructor
  · intro hp
    split at hp
    · cases hp
    · rename_i hne
      cases hu : fromUtf8 (stripCr line) with
      | error e => simp [hu] at hp
      | ok command =>
        rw [hu, Rs.ofExcept_ok, Rs.ok_bind, headersThenBody_eq_panic h] at hp
        obtain ⟨rest, headers, v, hdeclares⟩ := hp
        have hline : stripCr line = asBytes command := fromUtf8_eq_ok.mp hu
        exact ⟨rest, command, headers, v, hline, fun hc => hne (by simp [hline, hc]), hdeclares⟩
  · rintro ⟨rest, command, headers, v, hline, hc, hdeclares⟩
    have hne : ¬asBytes command = [] := fun hnil => hc (asBytes_eq_nil.mp hnil)
    rw [hline, if_neg hne, fromUtf8_asBytes, Rs.ofExcept_ok, Rs.ok_bind, headersThenBody_eq_panic h]
    exact ⟨rest, headers, v, hdeclares⟩

/-- The same of a whole frame. -/
theorem parseFrame_eq_panic (input : Vec8) : parseFrame input.1 = .panic ↔ DeclaresMaximum input.1 := by
  have hskip : (skipHeartbeats input.1).length ≤ isizeMax :=
    (skipHeartbeats_suffix input.1).length_le.trans input.2
  rw [parseFrame_eq, DeclaresMaximum]
  obtain ⟨hlf, hs⟩ | ⟨line, cursor, heq, hline, hs⟩ :=
    splitAtByte_cases ParseError lf (skipHeartbeats input.1)
  · refine iff_of_false (by simp [andThen, hs]) ?_
    rintro ⟨line, cursor, -, -, -, -, heq, -⟩
    exact hlf (by simp [heq])
  · have hcursor : cursor.length ≤ isizeMax := by
      rw [heq] at hskip
      simp at hskip
      omega
    have hafter : andThen (splitAtByte lf) afterCommand (skipHeartbeats input.1)
        = afterCommand line cursor := by simp [andThen, hs]
    rw [hafter, afterCommand_eq_panic hcursor]
    constructor
    · rintro ⟨rest, command, headers, v, hdeclares⟩
      exact ⟨line, cursor, rest, command, headers, v, heq, hline, hdeclares⟩
    · rintro ⟨line', cursor', rest, command, headers, v, heq', hline', hdeclares⟩
      -- the first LF ends the command line
      obtain ⟨rfl, rfl⟩ := append_cons_inj hline hline' (heq.symm.trans heq')
      exact ⟨rest, command, headers, v, hdeclares⟩

/-- Panics of `parse_frame`. It returns a frame, "incomplete" or an error on every input, unless the
header block is complete and its first `content-length` is `usize::MAX`. -/
theorem parse_frame_total (input : Vec8) :
    ((∃ o, parseFrameChecked input.1 = .ok o) ∨ ∃ e, parseFrameChecked input.1 = .err e) ↔
      ¬DeclaresMaximum input.1 := by
  rw [← parseFrame_eq_panic, parseFrameChecked_eq]
  cases parseFrame input.1 <;> simp

/-- `content-length:18446744073709551615` on a frame `A`. -/
def maximalFrame : Vec8 :=
  ⟨asBytes "A\ncontent-length:18446744073709551615\n\n", by decide⟩

/-- A frame that declares `usize::MAX` bytes gives neither a result nor an error. -/
theorem maximalFrame_panics :
    ¬((∃ o, parseFrameChecked maximalFrame.1 = .ok o) ∨
      ∃ e, parseFrameChecked maximalFrame.1 = .err e) := by
  have hpanic : parseFrameChecked maximalFrame.1 = .panic := by decide +kernel
  simp [hpanic]

end Vdsm.Stomp
