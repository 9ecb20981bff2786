import Vdsm.Rpc.StompStream

/-!
# Encoding and parsing of STOMP frames

`parseFrame` inverts `Frame.toBytes` on every frame the format can represent (`Frame.Encodable`),
behind any heartbeats and in front of any bytes. Header keys and values are arbitrary: escaping
leaves no CR, LF or `:` in them, so a header line never ends in CR and has its only `:` between key
and value. `parseHeaders_eq_some` and `parseFrame_eq_some` say what the parser accepts from any
sender.
-/

namespace Vdsm.Stomp

open Rust Framing

/-! ## Header text -/

/-- What is no backslash is left alone. -/
theorem unescapeChars_cons_of_ne {c : Char} (h : c ≠ '\\') (cs : List Char) :
    unescapeChars (c :: cs) = c :: unescapeChars cs := by
  rw [unescapeChars] <;> simp_all

/-- Each escaped character is read back. -/
theorem unescapeChars_escapeChar (c : Char) (cs : List Char) :
    unescapeChars (escapeChar c ++ cs) = c :: unescapeChars cs := by
  unfold escapeChar
  split
  · simp [unescapeChars]
  · simp [unescapeChars]
  · simp [unescapeChars]
  · simp [unescapeChars]
  · rename_i h _ _ _
    exact unescapeChars_cons_of_ne h cs

/-- Unescaping inverts escaping. -/
theorem unescapeHeader_escapeHeader (s : String) : unescapeHeader (escapeHeader s) = s := by
  have h : ∀ l : List Char, unescapeChars (l.flatMap escapeChar) = l := by
    intro l
    induction l with
    | nil => rfl
    | cons c cs ih => rw [List.flatMap_cons, unescapeChars_escapeChar, ih]
  simp [unescapeHeader, escapeHeader, h]

/-- An escaped character has no CR, no LF and no `:`. -/
theorem mem_escapeChar {c d : Char} (h : d ∈ escapeChar c) : d ≠ '\r' ∧ d ≠ '\n' ∧ d ≠ ':' := by
  unfold escapeChar at h
  split at h <;> simp_all
  · rcases h with rfl | rfl <;> decide
  · rcases h with rfl | rfl <;> decide
  · rcases h with rfl | rfl <;> decide

/-- An escaped header has none of the bytes that structure a frame. -/
theorem not_mem_asBytes_escapeHeader (s : String) :
    cr ∉ asBytes (escapeHeader s) ∧ lf ∉ asBytes (escapeHeader s) ∧
      colon ∉ asBytes (escapeHeader s) := by
  have h : ∀ d ∈ (escapeHeader s).toList, d ≠ '\r' ∧ d ≠ '\n' ∧ d ≠ ':' := by
    intro d hd
    simp only [escapeHeader, String.toList_ofList, List.mem_flatMap] at hd
    obtain ⟨c, -, hc⟩ := hd
    exact mem_escapeChar hc
  refine ⟨?_, ?_, ?_⟩
  · intro hm
    exact (h '\r' ((mem_asBytes_ascii (c := '\r') (by decide)).mp hm)).1 rfl
  · intro hm
    exact (h '\n' ((mem_asBytes_ascii (c := '\n') (by decide)).mp hm)).2.1 rfl
  · intro hm
    exact (h ':' ((mem_asBytes_ascii (c := ':') (by decide)).mp hm)).2.2 rfl

/-! ## The header block -/

/-- A header line without its LF. -/
def headerLine (h : String × String) : List UInt8 :=
  asBytes (escapeHeader h.1) ++ colon :: asBytes (escapeHeader h.2)

/-- A header is its line and a line feed. -/
theorem headerBytes_eq (h : String × String) (r : List UInt8) :
    headerBytes h ++ r = headerLine h ++ lf :: r := by
  simp [headerBytes, headerLine]

/-- A line without a carriage return loses nothing. -/
theorem stripCr_of_not_mem {line : List UInt8} (h : cr ∉ line) : stripCr line = line := by
  rw [stripCr, if_neg]
  intro hl
  exact h (List.mem_of_getLast? hl)

/-- A header line has neither CR nor LF. -/
theorem headerLine_spec (h : String × String) :
    lf ∉ headerLine h ∧ stripCr (headerLine h) = headerLine h := by
  obtain ⟨kcr, klf, -⟩ := not_mem_asBytes_escapeHeader h.1
  obtain ⟨vcr, vlf, -⟩ := not_mem_asBytes_escapeHeader h.2
  have hcl : colon ≠ lf ∧ colon ≠ cr := by decide
  refine ⟨?_, stripCr_of_not_mem ?_⟩
  · simp [headerLine, klf, vlf, hcl.1.symm]
  · simp [headerLine, kcr, vcr, hcl.2.symm]

/-- The content length in force after a header: the first declaration wins. -/
def nextLength (cl : Option ℕ) (h : String × String) : Option ℕ :=
  if h.1 = "content-length" ∧ cl = none then parseUnsigned usizeMax h.2 else cl

/-- The first `content-length` value of a header list. -/
def firstLength (hs : List (String × String)) : Option String :=
  (hs.find? fun h => h.1 == "content-length").map Prod.snd

/-- The text of one header line: the bytes of a key, the first `:`, the bytes of a value. -/
def HeaderText (rawLine : List UInt8) (h : String × String) : Prop :=
  ∃ key val, rawLine = asBytes key ++ colon :: asBytes val ∧ colon ∉ asBytes key ∧
    h = (unescapeHeader key, unescapeHeader val)

/-- A header that declares the body length, with no declaration before it, has to be a number. -/
def LengthReads (cl : Option ℕ) (hs : List (String × String)) : Prop :=
  cl = none → ∀ v, firstLength hs = some v → (parseUnsigned usizeMax v).isSome

/-- A header declares a length if it is named so. -/
theorem firstLength_singleton (h : String × String) :
    firstLength [h] = if h.1 = "content-length" then some h.2 else none := by
  by_cases hk : h.1 = "content-length" <;> simp [firstLength, hk]

/-- What a header line is read as, and what it does to the length known so far. -/
theorem parseHeaderLine_text {rawLine : List UInt8} {h : String × String} (ht : HeaderText rawLine h)
    (cl : Option ℕ) :
    parseHeaderLine rawLine cl =
      if h.1 = "content-length" ∧ cl = none then
        match parseUnsigned usizeMax h.2 with
        | some n => .ok (h, some n)
        | none => .err (.badContentLength h.2)
      else .ok (h, cl) := by
  obtain ⟨key, val, rfl, hkey, rfl⟩ := ht
  simp only [parseHeaderLine, splitAtByte_append_cons hkey, Rs.ok_bind, fromUtf8_asBytes]
  rfl

/-- Any other line is an error. -/
theorem parseHeaderLine_of_not_text {rawLine : List UInt8} (hno : ∀ h, ¬HeaderText rawLine h)
    (cl : Option ℕ) : ∃ e, parseHeaderLine rawLine cl = .err e := by
  obtain ⟨-, hs⟩ | ⟨k, v, rfl, hk, hs⟩ := splitAtByte_cases ParseError colon rawLine
  · exact ⟨.malformed "header line missing ':'", by simp [parseHeaderLine, hs]⟩
  · cases hkey : fromUtf8 k with
    | error e => exact ⟨.utf8 e, by simp [parseHeaderLine, hs, hkey]⟩
    | ok key =>
      cases hval : fromUtf8 v with
      | error e => exact ⟨.utf8 e, by simp [parseHeaderLine, hs, hkey, hval]⟩
      | ok val =>
        rw [fromUtf8_eq_ok] at hkey hval
        subst hkey hval
        exact absurd ⟨key, val, rfl, hk, rfl⟩ (hno _)

/-- What the parser makes of a header line. -/
theorem parseHeaderLine_eq_ok {rawLine : List UInt8} {cl : Option ℕ}
    {p : (String × String) × Option ℕ} :
    parseHeaderLine rawLine cl = .ok p ↔
      HeaderText rawLine p.1 ∧ LengthReads cl [p.1] ∧ nextLength cl p.1 = p.2 := by
  obtain ⟨h, cl'⟩ := p
  have hread : HeaderText rawLine h → (parseHeaderLine rawLine cl = .ok (h, cl') ↔
      LengthReads cl [h] ∧ nextLength cl h = cl') := by
    intro ht
    rw [parseHeaderLine_text ht, LengthReads, firstLength_singleton, nextLength]
    by_cases hk : h.1 = "content-length" ∧ cl = none
    · rw [if_pos hk, if_pos hk, if_pos hk.1]
      cases hv : parseUnsigned usizeMax h.2 <;> simp [hk.2, hv]
    · rw [if_neg hk, if_neg hk]
      have hfree : ¬(cl = none ∧ h.1 = "content-length") := fun hc => hk hc.symm
      simp_all
  constructor
  · intro hp
    by_cases hno : ∀ h, ¬HeaderText rawLine h
    · obtain ⟨e, he⟩ := parseHeaderLine_of_not_text hno cl
      simp [he] at hp
    · push Not at hno
      obtain ⟨h', ht⟩ := hno
      have hsame : h' = h := by
        rw [parseHeaderLine_text ht] at hp
        split at hp
        · split at hp <;> simp_all
        · simp_all
      subst hsame
      exact ⟨ht, (hread ht).mp hp⟩
  · rintro ⟨ht, hrest⟩
    exact (hread ht).mpr hrest

/-- A header block in front of `rest`: header lines, then a blank line. -/
inductive HeaderLines : List UInt8 → List (String × String) → List UInt8 → Prop where
  | blank {line rest : List UInt8} (hlf : lf ∉ line) (hblank : stripCr line = []) :
    HeaderLines (line ++ lf :: rest) [] rest
  | header {line cursor rest : List UInt8} {h : String × String} {hs : List (String × String)}
    (hlf : lf ∉ line) (htext : HeaderText (stripCr line) h) (hmore : HeaderLines cursor hs rest) :
    HeaderLines (line ++ lf :: cursor) (h :: hs) rest

/-- The line of a header is not empty. -/
theorem HeaderText.ne_nil {rawLine : List UInt8} {h : String × String} (ht : HeaderText rawLine h) :
    rawLine ≠ [] := by
  obtain ⟨key, val, rfl, -, -⟩ := ht
  simp

/-- The first declaration is the one of the first header, or else of the others. -/
theorem lengthReads_cons {cl : Option ℕ} {h : String × String} {hs : List (String × String)} :
    LengthReads cl (h :: hs) ↔ LengthReads cl [h] ∧ LengthReads (nextLength cl h) hs := by
  cases cl with
  | some n => simp [LengthReads, nextLength]
  | none =>
    by_cases hk : h.1 = "content-length"
    · cases hp : parseUnsigned usizeMax h.2 <;> simp [LengthReads, firstLength, nextLength, hk, hp]
    · simp [LengthReads, firstLength, nextLength, hk]

/-- The length in force after a header block. -/
def lengthAfter (cl : Option ℕ) (hs : List (String × String)) : Option ℕ :=
  cl.or ((firstLength hs).bind (parseUnsigned usizeMax))

/-- The length after some headers, from the first on. -/
theorem lengthAfter_cons {cl : Option ℕ} {h : String × String} {hs : List (String × String)}
    (hreads : LengthReads cl [h]) : lengthAfter cl (h :: hs) = lengthAfter (nextLength cl h) hs := by
  cases cl with
  | some n => simp [lengthAfter, nextLength]
  | none =>
    by_cases hk : h.1 = "content-length"
    · obtain ⟨n, hn⟩ := Option.isSome_iff_exists.mp (hreads rfl h.2 (by simp [firstLength, hk]))
      simp [lengthAfter, nextLength, firstLength, hk, hn]
    · simp [lengthAfter, nextLength, firstLength, hk]

/-- What the header loop accepts, and what it returns. -/
theorem parseHeaders_eq_some {c r : List UInt8} {acc : List (String × String)} {cl : Option ℕ}
    {block : HeaderBlock} :
    parseHeaders c acc cl = .ok (some (block, r)) ↔
      ∃ hs, HeaderLines c hs r ∧ LengthReads cl hs ∧ block = (acc ++ hs, lengthAfter cl hs) := by
  constructor
  · intro h
    induction hn : c.length using Nat.strongRecOn generalizing c acc cl with
    | _ n ih =>
      subst hn
      obtain ⟨hlf, -⟩ | ⟨line, rest, rfl, hline, -⟩ := splitAtByte_cases ParseError lf c
      · simp [parseHeaders_of_not_mem acc cl hlf] at h
      · rw [parseHeaders_line acc cl hline] at h
        split at h
        · rename_i hblank
          obtain ⟨rfl, rfl⟩ : (acc, cl) = block ∧ rest = r := by simpa using h
          exact ⟨[], .blank hline hblank, by simp [LengthReads, firstLength],
            by simp [lengthAfter, firstLength]⟩
        · cases hp : parseHeaderLine (stripCr line) cl with
          | err e => simp [hp] at h
          | panic => simp [hp] at h
          | ok p =>
            obtain ⟨ht, hreads, hnext⟩ := parseHeaderLine_eq_ok.mp hp
            rw [hp, Rs.ok_bind, ← hnext] at h
            obtain ⟨hs, hlines, hmore, rfl⟩ := ih rest.length (by simp; omega) h rfl
            refine ⟨p.1 :: hs, .header hline ht hlines, lengthReads_cons.mpr ⟨hreads, hmore⟩, ?_⟩
            rw [lengthAfter_cons hreads]
            simp
  · rintro ⟨hs, hlines, hreads, rfl⟩
    induction hlines generalizing acc cl with
    | blank hlf hblank =>
      rw [parseHeaders_line acc cl hlf, if_pos hblank]
      simp [lengthAfter, firstLength]
    | @header line cursor rest h hs hlf htext hmore ih =>
      obtain ⟨hhead, htail⟩ := lengthReads_cons.mp hreads
      have hp : parseHeaderLine (stripCr line) cl = .ok (h, nextLength cl h) :=
        parseHeaderLine_eq_ok.mpr ⟨htext, hhead, rfl⟩
      rw [parseHeaders_line acc cl hlf, if_neg htext.ne_nil, hp, Rs.ok_bind, ih htail,
        lengthAfter_cons hhead]
      simp

/-- `to_bytes` writes a header block. -/
theorem headerLines_headerBytes (hs : List (String × String)) (rest : List UInt8) :
    HeaderLines (hs.flatMap headerBytes ++ lf :: rest) hs rest := by
  induction hs with
  | nil => exact .blank List.not_mem_nil rfl
  | cons h hs ih =>
    obtain ⟨hlf, hstrip⟩ := headerLine_spec h
    rw [List.flatMap_cons, List.append_assoc, headerBytes_eq]
    refine .header hlf ?_ ih
    rw [hstrip]
    refine ⟨escapeHeader h.1, escapeHeader h.2, rfl, (not_mem_asBytes_escapeHeader h.1).2.2, ?_⟩
    rw [unescapeHeader_escapeHeader, unescapeHeader_escapeHeader]

/-! ## Frames and streams -/

/-- The frames `to_bytes` can represent: a command line that reads back as the command, and a body
whose end the parser can find. -/
structure Frame.Encodable (f : Frame) : Prop where
  command_ne : f.command ≠ ""
  command_lf : '\n' ∉ f.command.toList
  command_cr : f.command.toList.getLast? ≠ some '\r'
  body_end : f.header "content-length" = some (toString f.body.1.length) ∨
    (f.header "content-length" = none ∧ nul ∉ f.body.1)

/-- A heartbeat: LF or CR LF. -/
inductive Heartbeat where
  | lf
  | crLf

def Heartbeat.bytes : Heartbeat → List UInt8
  | .lf => [Stomp.lf]
  | .crLf => [cr, Stomp.lf]

/-- Heartbeats before a frame are skipped, however many and of either kind. -/
theorem skipHeartbeats_bytes (hbs : List Heartbeat) (b : List UInt8) :
    skipHeartbeats (hbs.flatMap Heartbeat.bytes ++ b) = skipHeartbeats b := by
  induction hbs with
  | nil => rfl
  | cons hb hbs ih =>
    cases hb <;>
      simpa [Heartbeat.bytes, Stomp.lf, cr, skipHeartbeats] using ih

/-- A line, in front of its LF, is not taken for heartbeats, unless it is blank. -/
theorem skipHeartbeats_line {line : List UInt8} (hne : line ≠ []) (hlf : lf ∉ line)
    (hcr : line ≠ [cr]) (r : List UInt8) : skipHeartbeats (line ++ lf :: r) = line ++ lf :: r := by
  match line, hne, hlf, hcr with
  | [b], _, hlf, hcr =>
    rw [List.singleton_append, skipHeartbeats]
    · rintro rest heq
      exact hlf (by simp_all [lf])
    · rintro rest heq
      exact hcr (by simp_all [cr])
  | b :: b' :: bs, _, hlf, _ =>
    rw [List.cons_append, List.cons_append, skipHeartbeats]
    · rintro rest heq
      exact hlf (by simp_all [lf])
    · rintro rest heq
      exact hlf (by simp_all [lf])

/-- The line feeds in the bytes of a text are those of the text. -/
theorem lf_mem_asBytes {s : String} : lf ∈ asBytes s ↔ '\n' ∈ s.toList :=
  mem_asBytes_ascii (c := '\n') (by decide)

/-- And so is a carriage return at its end. -/
theorem getLast?_asBytes_cr {s : String} :
    (asBytes s).getLast? = some cr ↔ s.toList.getLast? = some '\r' :=
  getLast?_asBytes_ascii (c := '\r') (by decide)

/-- What the parser accepts, from any sender, and the frame it makes of it. -/
theorem parseFrame_eq_some {b rest : List UInt8} {f : Frame} :
    parseFrame b = .ok (some (f, rest)) ↔
      ∃ line cursor, skipHeartbeats b = line ++ lf :: cursor ∧ lf ∉ line ∧
        stripCr line = asBytes f.command ∧ f.command ≠ "" ∧
        HeaderLines cursor f.headers (f.body.1 ++ nul :: rest) ∧ LengthReads none f.headers ∧
        BodyEnds (lengthAfter none f.headers) f.body.1 := by
  rw [parseFrame_eq]
  constructor
  · intro h
    obtain ⟨line, cursor, hs, hafter⟩ := andThen_eq_some h
    obtain ⟨hb, hlf⟩ := splitAtByte_eq_some hs
    rw [afterCommand] at hafter
    split at hafter
    · simp at hafter
    · rename_i hne
      cases hu : fromUtf8 (stripCr line) with
      | error e => simp [hu] at hafter
      | ok command =>
        rw [hu, Rs.ofExcept_ok, Rs.ok_bind] at hafter
        obtain ⟨block, c, hheaders, hbody⟩ := andThen_eq_some hafter
        obtain ⟨body, r, hcut, hframe⟩ := andThen_eq_some hbody
        obtain ⟨rfl, rfl⟩ : ⟨command, block.1, body⟩ = f ∧ r = rest := by simpa using hframe
        obtain ⟨hs, hlines, hreads, rfl⟩ := parseHeaders_eq_some.mp hheaders
        obtain ⟨rfl, hends⟩ := parseBody_eq_some.mp hcut
        have hline : stripCr line = asBytes command := fromUtf8_eq_ok.mp hu
        have hcommand : command ≠ "" := fun hc => hne (by simp [hline, hc])
        exact ⟨line, cursor, hb, hlf, hline, hcommand, hlines, hreads, hends⟩
  · rintro ⟨line, cursor, hb, hlf, hline, hcommand, hlines, hreads, hends⟩
    have hne : ¬asBytes f.command = [] := fun h => hcommand (asBytes_eq_nil.mp h)
    have hheaders : parseHeaders cursor [] none
        = .ok (some ((f.headers, lengthAfter none f.headers), f.body.1 ++ nul :: rest)) :=
      parseHeaders_eq_some.mpr ⟨f.headers, hlines, hreads, rfl⟩
    have hcut : parseBody (lengthAfter none f.headers) (f.body.1 ++ nul :: rest)
        = .ok (some (f.body, rest)) :=
      parseBody_eq_some.mpr ⟨rfl, hends⟩
    simp only [hb, andThen, splitAtByte_append_cons hlf, Rs.ok_bind, afterCommand, hline, if_neg hne,
      fromUtf8_asBytes, Rs.ofExcept_ok, hheaders, hcut]

/-- A frame whose encoding reads back: its command line does, and the length in force after its
headers, if any, is the length of its body. -/
structure Frame.ReadsBack (f : Frame) : Prop where
  command_ne : f.command ≠ ""
  command_lf : lf ∉ asBytes f.command
  command_cr : (asBytes f.command).getLast? ≠ some cr
  length_reads : LengthReads none f.headers
  body_ends : BodyEnds (lengthAfter none f.headers) f.body.1

/-- A length a representable frame declares is the length of its body. -/
theorem Frame.Encodable.parse_length {f : Frame} (hf : f.Encodable) {v : String}
    (hv : f.header "content-length" = some v) :
    parseUnsigned usizeMax v = some f.body.1.length := by
  rcases hf.body_end with hlen | ⟨hnone, -⟩
  · obtain rfl : toString f.body.1.length = v := by simpa [hlen] using hv
    exact parseUnsigned_toString (Nat.le_of_succ_le (succ_le_usizeMax f.body.2))
  · simp [hnone] at hv

/-- A frame that can be sent meets what the parser needs to read it back. -/
theorem Frame.Encodable.readsBack {f : Frame} (hf : f.Encodable) : f.ReadsBack where
  command_ne := hf.command_ne
  command_lf := fun h => hf.command_lf (lf_mem_asBytes.mp h)
  command_cr := fun h => hf.command_cr (getLast?_asBytes_cr.mp h)
  length_reads := fun _ _ hv => Option.isSome_of_mem (hf.parse_length hv)
  body_ends := by
    have hfirst : firstLength f.headers = f.header "content-length" := rfl
    rw [lengthAfter, hfirst, Option.none_or]
    rcases hf.body_end with hlen | ⟨hnone, hnul⟩
    · rw [hlen, Option.bind_some, hf.parse_length hlen]
      rfl
    · rw [hnone]
      exact hnul

/-- The encoding of a frame, in front of anything. -/
theorem toBytes_append (f : Frame) (rest : List UInt8) :
    f.toBytes ++ rest = asBytes f.command ++
      lf :: (f.headers.flatMap headerBytes ++ lf :: (f.body.1 ++ nul :: rest)) := by
  simp [Frame.toBytes]

/-- A frame that meets it is read back with the rest of the stream left over. -/
theorem parseFrame_readsBack {f : Frame} (hf : f.ReadsBack) (hbs : List Heartbeat)
    (rest : List UInt8) :
    parseFrame (hbs.flatMap Heartbeat.bytes ++ f.toBytes ++ rest) = .ok (some (f, rest)) := by
  have hne : asBytes f.command ≠ [] := fun h => hf.command_ne (asBytes_eq_nil.mp h)
  have hcr : asBytes f.command ≠ [cr] := fun h => hf.command_cr (by rw [h, List.getLast?_singleton])
  rw [parseFrame_eq_some, List.append_assoc, toBytes_append, skipHeartbeats_bytes,
    skipHeartbeats_line hne hf.command_lf hcr]
  exact ⟨asBytes f.command, _, rfl, hf.command_lf, if_neg hf.command_cr, hf.command_ne,
    headerLines_headerBytes f.headers _, hf.length_reads, hf.body_ends⟩

/-- One frame, behind heartbeats and in front of anything. -/
theorem parseFrame_toBytes {f : Frame} (hf : f.Encodable) (hbs : List Heartbeat)
    (rest : List UInt8) :
    parseFrame (hbs.flatMap Heartbeat.bytes ++ f.toBytes ++ rest) = .ok (some (f, rest)) :=
  parseFrame_readsBack hf.readsBack hbs rest

/-- STOMP stream round trip: repeated `parse_frame` reads back every stream of representable frames
with heartbeats between them, and leaves exactly the bytes that follow. -/
theorem stream_roundtrip (xs : List (List Heartbeat × Frame)) (h : ∀ x ∈ xs, x.2.Encodable)
    (rest : List UInt8) :
    cutMany stompDecoder xs.length
        (xs.flatMap (fun x => x.1.flatMap Heartbeat.bytes ++ x.2.toBytes) ++ rest)
      = some (xs.map Prod.snd, rest) :=
  cutMany_flatMap _ Prod.snd xs (fun x hx r => parseFrame_toBytes (h x hx) x.1 r) rest

/-- Two frames behind heartbeats: every escaped character in a header, an empty key, a NUL in a body
of declared length; then a bodiless frame. -/
def sampleStream : List (List Heartbeat × Frame) :=
  [([.lf, .crLf],
      ((Frame.new "SEND").withHeader "a:\r" "x\n\\y").withHeader "" ""
        |>.withHeader "content-length" "3" |>.withBody ⟨[7, 0, 10], by decide⟩),
    ([.crLf], Frame.new "\rDISCONNECT")]

/-- The frames of the sample can be sent. -/
theorem sampleStream_encodable : ∀ x ∈ sampleStream, x.2.Encodable := by
  intro x hx
  simp only [sampleStream, List.mem_cons, List.not_mem_nil, or_false] at hx
  rcases hx with rfl | rfl
  · exact ⟨by decide, by decide, by decide, by decide⟩
  · exact ⟨by decide, by decide, by decide, by decide⟩

/-- Two frames with heartbeats between them and the start of a third. -/
theorem stream_roundtrip_sample :
    (∀ x ∈ sampleStream, x.2.Encodable) ∧
      cutMany stompDecoder 2
          (sampleStream.flatMap (fun x => x.1.flatMap Heartbeat.bytes ++ x.2.toBytes) ++ [13])
        = some (sampleStream.map Prod.snd, [13]) :=
  ⟨sampleStream_encodable, stream_roundtrip sampleStream sampleStream_encodable [13]⟩

end Vdsm.Stomp
