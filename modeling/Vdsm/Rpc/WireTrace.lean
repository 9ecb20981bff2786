import Vdsm.Rpc.Session

/-!
# The wire trace (`vdsm-rpc/src/server.rs`, `handle_stomp_send`)

The trace finds the body of a `MESSAGE` again by searching its bytes for a blank line. An escaped
header has no LF, so the first blank line is the one that ends the headers, and what the trace
measures and shows is the body.
-/

namespace Vdsm.Rpc

open Rust Stomp

/-! ## The first blank line -/

/-- A line that no blank one follows is skipped. -/
theorem findBlankLine_line {line rest : List UInt8} (hline : lf ∉ line)
    (hrest : rest.head? ≠ some lf) :
    findBlankLine (line ++ lf :: rest) =
      (findBlankLine rest).map (· + (line.length + 1)) := by
  induction line with
  | nil =>
    cases rest with
    | nil => rfl
    | cons b rest =>
      have hb : b ≠ lf := fun h => hrest (by simp [h])
      rw [List.nil_append, findBlankLine, if_neg (fun h => hb h.2)]
      rfl
  | cons a line ih =>
    have ha : a ≠ lf := fun h => hline (by simp [h])
    obtain ⟨b, bs, hb⟩ : ∃ b bs, line ++ lf :: rest = b :: bs :=
      List.exists_cons_of_ne_nil (by simp)
    have ih := ih fun h => hline (List.mem_cons_of_mem _ h)
    rw [List.cons_append, hb, findBlankLine, if_neg (fun h => ha h.1), ← hb, ih, Option.map_map]
    rfl

/-- The blank line behind a line is found at the line's end. -/
theorem findBlankLine_end {line : List UInt8} (hline : lf ∉ line) (r : List UInt8) :
    findBlankLine (line ++ lf :: lf :: r) = some line.length := by
  induction line with
  | nil => simp [findBlankLine]
  | cons a line ih =>
    have ha : a ≠ lf := fun h => hline (by simp [h])
    obtain ⟨b, bs, hb⟩ : ∃ b bs, line ++ lf :: lf :: r = b :: bs :=
      List.exists_cons_of_ne_nil (by simp)
    have ih := ih fun h => hline (List.mem_cons_of_mem _ h)
    rw [List.cons_append, hb, findBlankLine, if_neg (fun h => ha h.1), ← hb, ih]
    rfl

/-- A header line does not begin with a line feed. -/
theorem headerLine_head (h : String × String) (r : List UInt8) :
    (headerLine h ++ r).head? ≠ some lf := by
  have hno := (headerLine_spec h).1
  intro hhead
  cases hl : headerLine h with
  | nil => simp [headerLine] at hl
  | cons b l =>
    rw [hl] at hhead hno
    obtain rfl : b = lf := by simpa using hhead
    exact hno List.mem_cons_self

/-- Nor do several: no empty line comes before the end of the headers. -/
theorem headers_head (init : List (String × String)) (h : String × String) (r : List UInt8) :
    (init.flatMap headerBytes ++ headerLine h ++ r).head? ≠ some lf := by
  cases init with
  | nil => exact headerLine_head h r
  | cons h₁ init =>
    rw [List.flatMap_cons, List.append_assoc, List.append_assoc, headerBytes_eq]
    exact headerLine_head h₁ _

/-- The header lines have no blank line between them. -/
theorem findBlankLine_headers (init : List (String × String)) (h : String × String)
    (r : List UInt8) :
    findBlankLine (init.flatMap headerBytes ++ headerLine h ++ lf :: lf :: r) =
      some (init.flatMap headerBytes ++ headerLine h).length := by
  induction init with
  | nil => exact findBlankLine_end (headerLine_spec h).1 r
  | cons h₀ init ih =>
    rw [List.flatMap_cons, List.append_assoc, List.append_assoc, headerBytes_eq,
      ← List.append_assoc, findBlankLine_line (headerLine_spec h₀).1 (headers_head _ _ _), ih, Option.map_some]
    simp [headerBytes, headerLine]
    omega

/-- The first empty line of an encoded frame is the one behind its headers. -/
theorem findBlankLine_toBytes {f : Frame} {init : List (String × String)} {h : String × String}
    (hf : f.headers = init ++ [h]) (hcommand : lf ∉ asBytes f.command) :
    findBlankLine f.toBytes =
      some (asBytes f.command ++ lf :: (init.flatMap headerBytes ++ headerLine h)).length := by
  rw [toBytes_blankLine f init h hf, List.append_assoc, List.cons_append,
    findBlankLine_line hcommand (headers_head _ _ _), findBlankLine_headers, Option.map_some]
  simp
  omega

/-! ## The trace -/

/-- A slice within the body. -/
theorem slice_body (head body : List UInt8) {m n : ℕ} (hmn : m ≤ n) (hn : n ≤ body.length) :
    slice (head ++ lf :: lf :: (body ++ [nul])) (head.length + 2 + m) (head.length + 2 + n) =
      some ((body.take n).drop m) := by
  have hsplit : head ++ lf :: lf :: (body ++ [nul]) = (head ++ [lf, lf]) ++ (body ++ [nul]) := by
    simp
  have hlen : head.length + 2 = (head ++ [lf, lf]).length := by simp
  rw [slice, if_pos ⟨by omega, by simp; omega⟩, hsplit, hlen, List.take_length_add_append,
    List.drop_length_add_append, List.take_append_of_le_length hn]

/-- Where the separator is the first blank line, the trace measures and shows what is behind it, up
to the final NUL. -/
theorem wireTrace_eq {head body : List UInt8}
    (hsep : findBlankLine (head ++ lf :: lf :: (body ++ [nul])) = some head.length)
    (hfits : (head ++ lf :: lf :: (body ++ [nul])).length ≤ isizeMax) :
    wireTrace (head ++ lf :: lf :: (body ++ [nul])) =
      some { bodyLen := body.length
             totalBytes := (head ++ lf :: lf :: (body ++ [nul])).length
             head := head
             bodyFirst := body.take 200
             bodyLast := body.drop (body.length - 200) } := by
  have hlen : (head ++ lf :: lf :: (body ++ [nul])).length = head.length + 2 + body.length + 1 := by
    simp
    omega
  have hstart : saturatingAdd head.length 2 = head.length + 2 ∧
      saturatingAdd (head.length + 2) 200 = head.length + 2 + 200 := by
    simp only [saturatingAdd, usizeMax, isizeMax] at hfits ⊢
    omega
  have hhead : sliceTo (head ++ lf :: lf :: (body ++ [nul])) head.length = some head := by
    rw [sliceTo, if_pos (by omega), List.take_left]
  have hfirst : min (head.length + 2 + 200) (head.length + 2 + body.length) =
      head.length + 2 + min 200 body.length := by omega
  have hlast : max (head.length + 2 + body.length - 200) (head.length + 2) =
      head.length + 2 + (body.length - 200) := by omega
  have hend : head.length + 2 + body.length + 1 - 1 = head.length + 2 + body.length := by omega
  have hmeasure : head.length + 2 + body.length - (head.length + 2) = body.length := by omega
  have hslice := slice_body head body (m := 0) (n := min 200 body.length) (by omega) (by omega)
  rw [Nat.add_zero, List.drop_zero, ← List.take_eq_take_min] at hslice
  simp only [wireTrace, hsep, Option.getD_some, hlen, hstart.1, hstart.2,
    Nat.min_eq_left (show head.length ≤ head.length + 2 + body.length + 1 by omega), hhead, hfirst,
    hlast, hend, hslice, hmeasure, slice_body head body (Nat.sub_le _ 200) (Nat.le_refl _),
    Option.bind_eq_bind, Option.bind_some, List.take_length]
  rfl

/-- The wire trace is in range and measures the body. For every destination, subscription id and body
of a `MESSAGE`, whose bytes are a `Vec`, the first two LFs in a row are the separator of headers and
body, the offsets of the slices are in order, the trace is produced, and its `body_len` is the value
of the `content-length` header. -/
theorem wireTrace_measures_body (dest sub : String) (body frameBytes : Vec8)
    (hbytes : frameBytes.1 = (Build.message dest sub body).toBytes) :
    ∃ head trace, frameBytes.1 = head ++ lf :: lf :: (body.1 ++ [nul]) ∧
      findBlankLine frameBytes.1 = some head.length ∧
      head.length + 2 ≤ frameBytes.1.length - 1 ∧
      max (frameBytes.1.length - 1 - 200) (head.length + 2) ≤ frameBytes.1.length - 1 ∧
      wireTrace frameBytes.1 = some trace ∧
      trace.head = head ∧
      trace.bodyFirst = body.1.take 200 ∧ trace.bodyLast = body.1.drop (body.1.length - 200) ∧
      (Build.message dest sub body).header "content-length" = some (toString trace.bodyLen) := by
  have hheaders : (Build.message dest sub body).headers =
      [("destination", dest), ("subscription", sub), ("content-type", "application/json")] ++
        [("content-length", toString body.1.length)] := rfl
  have hcommand : lf ∉ asBytes (Build.message dest sub body).command := by
    have htext : (Build.message dest sub body).command = "MESSAGE" := rfl
    rw [htext]
    decide
  have hsep := findBlankLine_toBytes hheaders hcommand
  have hsplit := toBytes_blankLine _ _ _ hheaders
  have hbody : (Build.message dest sub body).body = body := rfl
  have hfits := frameBytes.2
  rw [hbody] at hsplit
  rw [hsplit] at hbytes hsep
  rw [hbytes] at hfits
  have htrace := wireTrace_eq hsep hfits
  rw [← hbytes] at hsep htrace
  refine ⟨_, _, hbytes, hsep, ?_, ?_, htrace, rfl, rfl, by dsimp only, ?_⟩
  · rw [hbytes]
    simp
    omega
  · rw [hbytes]
    simp
    omega
  · simp [Build.message, Frame.withHeader, Frame.withBody, Frame.new, Frame.header]

def objectBody : Vec8 := ⟨[0x7B, 0x7D], by decide⟩

/-- A destination with a blank line in it. -/
def blankLineMessage : Frame := Build.message "/queue/a\n\nb" "0" objectBody

/-- A body that begins with an empty line is measured like any other. -/
theorem wireTrace_measures_blankLineMessage :
    ∃ trace, wireTrace blankLineMessage.toBytes = some trace ∧
      trace.bodyFirst = objectBody.1.take 200 ∧
      blankLineMessage.header "content-length" = some (toString trace.bodyLen) := by
  obtain ⟨_, trace, -, -, -, -, htrace, -, hfirst, -, hlen⟩ := wireTrace_measures_body
    "/queue/a\n\nb" "0" objectBody ⟨blankLineMessage.toBytes, by decide⟩ rfl
  exact ⟨trace, htrace, hfirst, hlen⟩

end Vdsm.Rpc
