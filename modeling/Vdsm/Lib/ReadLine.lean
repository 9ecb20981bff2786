import Vdsm.Lib.Framing
import Vdsm.Lib.RustStr

/-!
# Reading a byte stream line by line

`AsyncBufReadExt::read_line` over a stream that arrives in chunks: a line goes up to and includes its
LF, and the last one may have none. `linesOf` is the list of the lines of a stream, and
`readLines_eq_feed` says that a loop of `read_line` calls hands exactly these to its body, whatever the
chunks.
-/

namespace ReadLine

open Rust Framing

variable {ε σ ρ : Type}

def newline : UInt8 := 10

/-- A line with its LF, and what follows it. -/
def cutLine : List UInt8 → Rs ε (Option (List UInt8 × List UInt8)) :=
  andThen (splitAtByte newline) fun l r => .ok (some (l ++ [newline], r))

/-- The first line is what stands before the first line feed, with it. -/
theorem cutLine_append_cons {l r : List UInt8} (h : newline ∉ l) :
    (cutLine (l ++ newline :: r) : Rs ε _) = .ok (some (l ++ [newline], r)) := by
  simp [cutLine, andThen, splitAtByte_append_cons h]

/-- Without a line feed no line is complete. -/
theorem cutLine_of_not_mem {b : List UInt8} (h : newline ∉ b) : (cutLine b : Rs ε _) = .ok none := by
  simp [cutLine, andThen, splitAtByte_of_not_mem h]

/-- A stream has a first line that ends in LF, or no LF at all. -/
theorem cases_newline (b : List UInt8) :
    newline ∉ b ∨ ∃ l r, b = l ++ newline :: r ∧ newline ∉ l := by
  obtain ⟨hb, -⟩ | ⟨l, r, hb, hl, -⟩ := splitAtByte_cases Empty newline b
  · exact .inl hb
  · exact .inr ⟨l, r, hb, hl⟩

/-- Bytes that come later do not change a line that is complete. -/
theorem cutLine_stable : StableCut (cutLine : List UInt8 → Rs ε _) := by
  refine (splitAtByte_stable newline).andThen fun l b x _ => ?_
  rfl

/-- The decoder behind `read_line`. -/
def lineDecoder : Decoder UInt8 (List UInt8) Empty where
  cut := cutLine
  shrinks := by
    intro b f r h
    rcases cases_newline b with hb | ⟨l, r', rfl, hl⟩
    · simp [cutLine_of_not_mem hb] at h
    · obtain ⟨-, rfl⟩ : l ++ [newline] = f ∧ r' = r := by simpa [cutLine_append_cons hl] using h
      simp
      omega

/-- The lines of a stream. -/
def linesOf : List UInt8 → List (List UInt8)
  | [] => []
  | b :: bs =>
    if b = newline then [newline] :: linesOf bs
    else match linesOf bs with
      | [] => [[b]]
      | l :: ls => (b :: l) :: ls

/-- The lines of a stream that has a complete line at its front. -/
theorem linesOf_append_cons {l : List UInt8} (r : List UInt8) (h : newline ∉ l) :
    linesOf (l ++ newline :: r) = (l ++ [newline]) :: linesOf r := by
  induction l with
  | nil => simp [linesOf]
  | cons b l ih =>
    have hb : b ≠ newline := fun hb => h (by simp [hb])
    have hl : newline ∉ l := fun hl => h (by simp [hl])
    simp [linesOf, hb, ih hl]

/-- What is left at the end of the stream is the last line. -/
theorem linesOf_of_not_mem {b : List UInt8} (h : newline ∉ b) (hne : b ≠ []) : linesOf b = [b] := by
  induction b with
  | nil => exact absurd rfl hne
  | cons x b ih =>
    have hx : x ≠ newline := fun hx => h (by simp [hx])
    have hb : newline ∉ b := fun hb => h (by simp [hb])
    cases b with
    | nil => simp [linesOf, hx]
    | cons y b => rw [linesOf, if_neg hx, ih hb (by simp)]

/-- Lines written one after the other are read back as they are. -/
theorem linesOf_flatMap {α : Type} (enc : α → List UInt8) (xs : List α)
    (h : ∀ x ∈ xs, newline ∉ enc x) :
    linesOf (xs.flatMap fun x => enc x ++ [newline]) = xs.map fun x => enc x ++ [newline] := by
  induction xs with
  | nil => rfl
  | cons x xs ih =>
    have hx : newline ∉ enc x := h x (by simp)
    rw [List.flatMap_cons, List.append_assoc, List.singleton_append, linesOf_append_cons _ hx,
      ih fun y hy => h y (by simp [hy]), List.map_cons]

/-- What a connection delivers: an empty read is the end of the stream. -/
def stream (chunks : List (List UInt8)) : List UInt8 := (chunks.takeWhile (!·.isEmpty)).flatten

/-- The end of a loop of `read_line` calls: at the end of the stream the body sees the bytes that are
left, if any. -/
def atEof (handle : σ → List UInt8 → Flow σ ρ) : End UInt8 Empty σ ρ → Flow σ ρ
  | .starved s buf => if buf = [] then .next s else handle s buf
  | .failed s _ => .next s
  -- the decoder has no way to panic
  | .panicked s => .next s
  | .halted r => .halt r

/-- A loop of `read_line` calls. -/
def readLines (handle : σ → List UInt8 → Flow σ ρ) (s : σ) (chunks : List (List UInt8)) : Flow σ ρ :=
  atEof handle (readLoop lineDecoder handle s [] chunks)

/-- The lines of a buffer are those that are cut off it, and what is left. -/
theorem drain_lines (handle : σ → List UInt8 → Flow σ ρ) (s : σ) (b : List UInt8) :
    atEof handle (drain lineDecoder handle s b) = feed handle s (linesOf b) := by
  induction hn : b.length using Nat.strongRecOn generalizing s b with
  | _ n ih =>
    subst hn
    rcases cases_newline b with hb | ⟨l, r, rfl, hl⟩
    · rw [drain_of_none (d := lineDecoder) (cutLine_of_not_mem hb)]
      by_cases hne : b = []
      · simp [hne, atEof, linesOf, feed]
      · simp only [atEof, hne, if_false, linesOf_of_not_mem hb hne, feed]
        cases handle s b <;> rfl
    · rw [drain_of_frame (d := lineDecoder) (cutLine_append_cons hl), linesOf_append_cons r hl, feed]
      cases handle s (l ++ [newline]) with
      | next s' => exact ih r.length (by simp; omega) s' r rfl
      | halt r' => rfl

/-- The body of a `read_line` loop is handed the lines of the stream. -/
theorem readLines_eq_feed (handle : σ → List UInt8 → Flow σ ρ) (s : σ) (chunks : List (List UInt8)) :
    readLines handle s chunks = feed handle s (linesOf (stream chunks)) := by
  have hne : ∀ c ∈ chunks.takeWhile (!·.isEmpty), c ≠ [] := by
    intro c hc
    have hall := List.all_eq_true.mp (List.all_takeWhile (p := (!·.isEmpty)) (l := chunks)) c hc
    simpa using hall
  have hwait : lineDecoder.cut [] = .ok none := cutLine_of_not_mem (by simp)
  rw [readLines, readLoop_takeWhile, readLoop_eq_drain cutLine_stable _ hne s [] hwait,
    List.nil_append, ← stream, drain_lines]

/-! ## A single line -/

/-- A poll of `read_line` with the bytes it has collected: the line is complete, or it waits for
more. -/
def pollLine (buf chunk : List UInt8) : Option (List UInt8) :=
  if chunk = [] then some buf
  else match (cutLine (buf ++ chunk) : Rs Empty _) with
    | .ok (some (line, _)) => some line
    | _ => none

/-- A call of `read_line` over the chunks that have arrived so far. -/
def readLine (chunks : List (List UInt8)) : Option (List UInt8) :=
  match (cutLine (stream chunks) : Rs Empty _) with
  | .ok (some (line, _)) => some line
  | _ => if [] ∈ chunks then some (stream chunks) else none

/-- A line is read up to its line feed, however the bytes arrive. -/
theorem readLine_of_mem {chunks : List (List UInt8)} {l r : List UInt8} (hl : newline ∉ l)
    (h : stream chunks = l ++ newline :: r) : readLine chunks = some (l ++ [newline]) := by
  simp only [readLine, h, cutLine_append_cons hl]

/-- Without a line feed the read ends with the stream, or does not end. -/
theorem readLine_of_not_mem {chunks : List (List UInt8)} (h : newline ∉ stream chunks) :
    readLine chunks = if [] ∈ chunks then some (stream chunks) else none := by
  simp only [readLine, cutLine_of_not_mem h]

/-- Chunks of a stream that goes on are followed by the later ones. -/
theorem stream_append_of_not_mem {chunks : List (List UInt8)} (h : [] ∉ chunks)
    (more : List (List UInt8)) : stream (chunks ++ more) = chunks.flatten ++ stream more := by
  have hne : ∀ c ∈ chunks, (!c.isEmpty) = true := by
    intro c hc
    have hcne : c ≠ [] := fun hnil => h (hnil ▸ hc)
    simpa using hcne
  rw [stream, List.takeWhile_append_of_pos hne, List.flatten_append, ← stream]

/-- A stream that goes on is its chunks. -/
theorem stream_of_not_mem {chunks : List (List UInt8)} (h : [] ∉ chunks) :
    stream chunks = chunks.flatten := by
  simpa [stream] using stream_append_of_not_mem h []

/-- Behind the end of a stream nothing counts. -/
theorem stream_append_of_mem {chunks : List (List UInt8)} (h : [] ∈ chunks)
    (more : List (List UInt8)) : stream (chunks ++ more) = stream chunks := by
  induction chunks with
  | nil => simp at h
  | cons c cs ih =>
    by_cases hc : c = []
    · simp [stream, hc]
    · have hcs : [] ∈ cs := by simpa [eq_comm, hc] using h
      have ih := ih hcs
      simp only [stream, List.cons_append] at ih ⊢
      rw [List.takeWhile_cons_of_pos (by simpa using hc), List.takeWhile_cons_of_pos (by simpa using hc),
        List.flatten_cons, List.flatten_cons, ih]

/-- A complete line stays the line. -/
theorem readLine_append {chunks : List (List UInt8)} {line : List UInt8}
    (h : readLine chunks = some line) (more : List (List UInt8)) :
    readLine (chunks ++ more) = some line := by
  by_cases heof : [] ∈ chunks
  · have hmore : [] ∈ chunks ++ more := List.mem_append_left more heof
    simp only [readLine, stream_append_of_mem heof, hmore, if_true] at h ⊢
    simpa only [heof, if_true] using h
  · -- without an empty read the line has ended in LF, and what follows stands behind it
    rcases cases_newline (stream chunks) with hno | ⟨l, r, hlr, hl⟩
    · simp [readLine_of_not_mem hno, heof] at h
    · obtain rfl : l ++ [newline] = line := by simpa [readLine_of_mem hl hlr] using h
      have hmore : stream (chunks ++ more) = l ++ newline :: (r ++ stream more) := by
        rw [stream_append_of_not_mem heof, ← stream_of_not_mem heof, hlr, List.append_assoc,
          List.cons_append]
      exact readLine_of_mem hl hmore

/-- While `read_line` waits, the next chunk is polled with the bytes collected. -/
theorem readLine_concat {chunks : List (List UInt8)} (h : readLine chunks = none)
    (c : List UInt8) :
    readLine (chunks ++ [c]) = pollLine (stream chunks) c ∧
      stream (chunks ++ [c]) = stream chunks ++ c := by
  have hwait : newline ∉ stream chunks ∧ [] ∉ chunks := by
    rcases cases_newline (stream chunks) with hno | ⟨l, r, hlr, hl⟩
    · refine ⟨hno, fun hmem => ?_⟩
      simp [readLine_of_not_mem hno, hmem] at h
    · simp [readLine_of_mem hl hlr] at h
  obtain ⟨hno, hne⟩ := hwait
  have hstream : stream (chunks ++ [c]) = stream chunks ++ c := by
    rw [stream_append_of_not_mem hne, ← stream_of_not_mem hne]
    by_cases hc : c = [] <;> simp [stream, hc]
  refine ⟨?_, hstream⟩
  by_cases hc : c = []
  · have hmem : [] ∈ chunks ++ [c] := by simp [hc]
    have hsame : stream (chunks ++ [c]) = stream chunks := by rw [hstream, hc, List.append_nil]
    rw [readLine_of_not_mem (hsame ▸ hno), if_pos hmem, hsame, pollLine, if_pos hc]
  · have hmem : [] ∉ chunks ++ [c] := by simp [hne, Ne.symm hc]
    rw [readLine, pollLine, if_neg hc, hstream, if_neg hmem]

/-! ## Texts as lines -/

/-- `trim` gives back a text that was written as a line, if white space does not stand at its ends. -/
theorem trim_line {s : String} (hfirst : ∀ c ∈ s.toList.head?, isWhitespace c = false)
    (hlast : ∀ c ∈ s.toList.getLast?, isWhitespace c = false) : trim (s ++ "\n") = s := by
  rw [← String.toList_inj, trim, String.toList_ofList, String.toList_append, trimChars]
  have hnl : "\n".toList = ['\n'] := rfl
  have hspace : isWhitespace '\n' = true := rfl
  rw [hnl]
  generalize s.toList = l at *
  cases l with
  | nil => simp [hspace]
  | cons c l =>
    have hc : isWhitespace c = false := hfirst c (by simp)
    rw [List.cons_append, List.dropWhile_cons_of_neg (by simp [hc]), ← List.cons_append,
      List.reverse_append, List.reverse_singleton, List.singleton_append,
      List.dropWhile_cons_of_pos hspace]
    obtain ⟨x, xs, hrev⟩ := List.exists_cons_of_ne_nil (l := (c :: l).reverse) (by simp)
    have hx : isWhitespace x = false := hlast x (by
      rw [← List.head?_reverse, hrev]
      rfl)
    rw [hrev, List.dropWhile_cons_of_neg (by simp [hx]), ← hrev, List.reverse_reverse]

/-- A line of text, as bytes. -/
theorem asBytes_line (s : String) : asBytes (s ++ "\n") = asBytes s ++ [newline] := by
  rw [asBytes_eq_flatMap, asBytes_eq_flatMap, String.toList_append, List.flatMap_append]
  rfl

/-- Text without a line feed has none in its bytes. -/
theorem newline_not_mem_asBytes {s : String} (h : '\n' ∉ s.toList) : newline ∉ asBytes s := by
  intro hm
  exact h ((mem_asBytes_ascii (c := '\n') (by decide)).mp hm)

end ReadLine
