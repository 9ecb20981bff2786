import Vdsm.Rpc.StompRoundTrip

/-!
# Re-encoding an accepted frame

The parser is more liberal than the encoder: it takes CR LF line ends, unknown escapes, repeated and
signed lengths. What it makes of such input is still a frame whose encoding it reads back, with one
exception: of a command line that ends in two CRs it drops one, and the command keeps the other.
-/

namespace Vdsm.Stomp

open Rust Framing

/-- Stripping the carriage return of a line adds no line feed. -/
theorem lf_not_mem_stripCr {line : List UInt8} (h : lf ∉ line) : lf ∉ stripCr line := by
  rw [stripCr]
  split
  · exact fun hm => h (List.mem_of_mem_dropLast hm)
  · exact h

/-- The command of a frame was a line. -/
theorem lf_not_mem_command {b rest : List UInt8} {f : Frame}
    (h : parseFrame b = .ok (some (f, rest))) : lf ∉ asBytes f.command := by
  obtain ⟨line, -, -, hlf, hline, -⟩ := parseFrame_eq_some.mp h
  exact hline ▸ lf_not_mem_stripCr hlf

/-- In an accepted frame the first `content-length` denotes the length of the body, and without one
the body has no NUL. -/
theorem parseFrame_length {b rest : List UInt8} {f : Frame}
    (h : parseFrame b = .ok (some (f, rest))) :
    (∀ v, f.header "content-length" = some v → parseUnsigned usizeMax v = some f.body.1.length) ∧
      (f.header "content-length" = none → nul ∉ f.body.1) := by
  obtain ⟨-, -, -, -, -, -, -, hreads, hends⟩ := parseFrame_eq_some.mp h
  have hfirst : firstLength f.headers = f.header "content-length" := rfl
  rw [lengthAfter, Option.none_or, hfirst] at hends
  constructor
  · intro v hv
    obtain ⟨n, hn⟩ := Option.isSome_iff_exists.mp (hreads rfl v (hfirst.trans hv))
    rw [hv, Option.bind_some, hn] at hends
    obtain rfl : f.body.1.length = n := hends
    exact hn
  · intro hv
    rw [hv] at hends
    exact hends

/-- Every accepted frame reads back, unless its command ends in CR. -/
theorem parseFrame_eq_some_readsBack {b rest : List UInt8} {f : Frame}
    (h : parseFrame b = .ok (some (f, rest))) (hcr : (asBytes f.command).getLast? ≠ some cr) :
    f.ReadsBack := by
  obtain ⟨-, -, -, -, -, hne, -, hreads, hends⟩ := parseFrame_eq_some.mp h
  exact ⟨hne, lf_not_mem_command h, hcr, hreads, hends⟩

/-! ## Commands that end in CR -/

/-- Header lines take up bytes. -/
theorem HeaderLines.length_lt {c rest : List UInt8} {hs : List (String × String)}
    (h : HeaderLines c hs rest) : rest.length < c.length := by
  induction h with
  | blank hlf hblank => simp; omega
  | header hlf htext hmore ih => simp; omega

/-- A carriage return that is stripped is one byte. -/
theorem length_of_getLast?_cr {line : List UInt8} (h : line.getLast? = some cr) :
    (stripCr line).length + 1 = line.length := by
  have hpos : 0 < line.length := List.length_pos_of_mem (List.mem_of_getLast? h)
  rw [stripCr, if_pos h, List.length_dropLast]
  omega

/-- The command `CR`: in its encoding it is a heartbeat, and what follows does not read back. -/
theorem parseFrame_toBytes_single_cr {f : Frame} (hc : asBytes f.command = [cr])
    (rest : List UInt8) : parseFrame (f.toBytes ++ rest) ≠ .ok (some (f, rest)) := by
  intro h
  obtain ⟨line, cursor, hb, hlf, hline, -, hlines, -⟩ := parseFrame_eq_some.mp h
  have hskip : skipHeartbeats (f.headers.flatMap headerBytes ++ lf :: (f.body.1 ++ nul :: rest))
      = line ++ lf :: cursor := by
    rw [toBytes_append, hc] at hb
    simpa [cr, lf, skipHeartbeats] using hb
  cases hh : f.headers with
  | nil =>
    -- the frame left for the parser is its own body, too short to hold that body and a command
    have hshort := (skipHeartbeats_suffix (f.body.1 ++ nul :: rest)).length_le
    have hlong := hlines.length_lt
    have hbody : skipHeartbeats (f.body.1 ++ nul :: rest) = line ++ lf :: cursor := by
      simpa [hh, lf, skipHeartbeats] using hskip
    rw [hbody] at hshort
    simp at hshort hlong
    omega
  | cons header hs =>
    -- the first header line is in the place of the command, and has no CR
    obtain ⟨hno, hstrip⟩ := headerLine_spec header
    have hcolon : colon ∈ headerLine header := by simp [headerLine]
    rw [hh, List.flatMap_cons, List.append_assoc, headerBytes_eq, skipHeartbeats_line
      (List.ne_nil_of_mem hcolon) hno (fun h => by simp [h, colon, cr] at hcolon)] at hskip
    obtain ⟨rfl, -⟩ := append_cons_inj hno hlf hskip
    rw [hstrip] at hline
    simp [hline, hc, colon, cr] at hcolon

/-- A command that ends in CR does not read back: with the LF behind it the CR is part of the line
end. -/
theorem parseFrame_toBytes_cr {f : Frame} (hlf : lf ∉ asBytes f.command)
    (hcr : (asBytes f.command).getLast? = some cr) (rest : List UInt8) :
    parseFrame (f.toBytes ++ rest) ≠ .ok (some (f, rest)) := by
  by_cases hone : asBytes f.command = [cr]
  · exact parseFrame_toBytes_single_cr hone rest
  · intro h
    obtain ⟨line, cursor, hb, hline, hstrip, hne, -⟩ := parseFrame_eq_some.mp h
    have hnil : asBytes f.command ≠ [] := fun h => hne (asBytes_eq_nil.mp h)
    rw [toBytes_append, skipHeartbeats_line hnil hlf hone] at hb
    obtain ⟨rfl, -⟩ := append_cons_inj hlf hline hb
    have hlen := length_of_getLast?_cr hcr
    rw [hstrip] at hlen
    omega

/-- Every accepted frame can be encoded again. Whatever bytes the parser made the frame of, it reads
the frame back from `to_bytes`, exactly if the command does not end in CR; the first
`content-length` denotes the length of the body, and without one the body has no NUL. -/
theorem accepted_frame_reencodes {b rest : List UInt8} {f : Frame}
    (h : parseFrame b = .ok (some (f, rest))) :
    (parseFrame (f.toBytes ++ rest) = .ok (some (f, rest)) ↔
        f.command.toList.getLast? ≠ some '\r') ∧
      (∀ v, f.header "content-length" = some v → parseUnsigned usizeMax v = some f.body.1.length) ∧
      (f.header "content-length" = none → nul ∉ f.body.1) := by
  refine ⟨⟨?_, ?_⟩, parseFrame_length h⟩
  · intro hback hcr
    exact parseFrame_toBytes_cr (lf_not_mem_command h) (getLast?_asBytes_cr.mpr hcr) rest hback
  · intro hcr
    exact parseFrame_readsBack
      (parseFrame_eq_some_readsBack h fun hc => hcr (getLast?_asBytes_cr.mp hc)) [] rest

/-- CR LF line ends, a NUL and a dangling backslash in a header, an unknown escape, a signed length
and a second one. -/
def lenientBytes : List UInt8 :=
  asBytes "\r\nSEND\r\na\\x\x00:b\\\r\ncontent-length:+3\ncontent-length:9\r\n\r\n" ++
    [1, 0, 2, 0, 13]

def lenientFrame : Frame where
  command := "SEND"
  headers := [("a\\x\x00", "b\\"), ("content-length", "+3"), ("content-length", "9")]
  body := ⟨[1, 0, 2], by decide⟩

/-- The parser accepts a frame with line ends that it would not write. -/
theorem lenientBytes_accepted : parseFrame lenientBytes = .ok (some (lenientFrame, [13])) := by
  decide +kernel

/-- Such a frame, encoded again, is read as before. -/
theorem accepted_frame_reencodes_lenient :
    parseFrame lenientBytes = .ok (some (lenientFrame, [13])) ∧
      parseFrame (lenientFrame.toBytes ++ [13]) = .ok (some (lenientFrame, [13])) ∧
      parseUnsigned usizeMax "+3" = some 3 :=
  ⟨lenientBytes_accepted,
    (accepted_frame_reencodes lenientBytes_accepted).1.mpr (by decide),
    (accepted_frame_reencodes lenientBytes_accepted).2.1 "+3" (by decide)⟩

end Vdsm.Stomp
