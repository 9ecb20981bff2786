import Vdsm.Host.Numa
import Vdsm.Lib.LineText
import Mathlib.Data.Finset.Card

/-!
# The processors

Reference: `vdsm-host/src/sysinfo.rs`, `cpu_info`.

`/proc/cpuinfo` has a block of lines for each processor, and an empty line after each. The parser
counts processors, sockets and cores in one pass, with what it saw last carried from line to line and
from block to block. Whatever the text, the counts fit each other; on the kernel's text for a list of
processors they are right.

The clock rate, a float, is left out. The counters are natural numbers where the source has `u32`: each
counts lines of the text at most, and no text has 2³² of them.
-/

namespace Vdsm.Host

open Rust

/-! ## The parser -/

/-- `CpuInfo`. -/
structure CpuInfo where
  modelName : String
  flags : List String
  physicalCores : ℕ
  logicalCpus : ℕ
  sockets : ℕ
deriving DecidableEq, Repr

/-- What the loop carries from block to block. -/
structure CpuScan where
  model : String
  flags : List String
  physicalIds : Finset ℕ
  coreIds : Finset (ℕ × ℕ)
  logical : ℕ
  currentPhys : Option ℕ

/-- What it carries within a block. -/
structure CpuBlock where
  phys : Option ℕ
  core : Option ℕ
  sawProcessor : Bool

/-- The `match` on a key. -/
def cpuField (st : CpuScan × CpuBlock) (k v : String) : CpuScan × CpuBlock :=
  let (scan, blk) := st
  if k = "processor" then
    ({ scan with logical := scan.logical + 1 }, { blk with sawProcessor := true })
  else if k = "model name" ∧ scan.model = "" then ({ scan with model := v }, blk)
  else if k = "flags" ∧ scan.flags = [] then ({ scan with flags := splitWhitespace v }, blk)
  else if k = "physical id" then
    let p := parseUnsigned u32Max v
    ({ scan with currentPhys := p }, { blk with phys := p })
  else if k = "core id" then (scan, { blk with core := parseUnsigned u32Max v })
  else st

/-- One line of a block. -/
def cpuLine (st : CpuScan × CpuBlock) (line : String) : CpuScan × CpuBlock :=
  match splitOnce ':' line with
  | some (k, v) => cpuField st (trim k) (trim v)
  | none => st

/-- The end of a block. -/
def cpuBlockEnd (st : CpuScan × CpuBlock) : CpuScan :=
  let (scan, blk) := st
  if blk.sawProcessor then
    { scan with
      physicalIds := match blk.phys with
        | some p => insert p scan.physicalIds
        | none => scan.physicalIds
      -- a block without a socket of its own is counted to the last one seen
      coreIds := match blk.phys.or scan.currentPhys, blk.core with
        | some p, some c => insert (p, c) scan.coreIds
        | _, _ => scan.coreIds }
  else scan

/-- One block. -/
def cpuBlock (scan : CpuScan) (block : String) : CpuScan :=
  cpuBlockEnd ((lines block).foldl cpuLine (scan, ⟨none, none, false⟩))

/-- The loop over the blocks. -/
def cpuScan (raw : String) : CpuScan :=
  (splitStr "\n\n" raw).foldl cpuBlock ⟨"", [], ∅, ∅, 0, none⟩

/-- `cpu_info`, from the text of `/proc/cpuinfo`; that is empty if it cannot be read. -/
def cpuInfo (raw : String) : CpuInfo :=
  let scan := cpuScan raw
  { modelName := if scan.model = "" then "unknown" else scan.model
    flags := scan.flags
    physicalCores := if scan.coreIds = ∅ then max scan.logical 1 else scan.coreIds.card
    logicalCpus := max scan.logical 1
    sockets := max scan.physicalIds.card 1 }

/-! ## Every text -/

/-- The sets have at most one element for each processor. -/
def CpuScan.Bounded (scan : CpuScan) : Prop :=
  scan.physicalIds.card ≤ scan.logical ∧ scan.coreIds.card ≤ scan.logical

/-- What a line leaves alone, and that a block with a processor has counted it. -/
structure CpuGrows (scan : CpuScan) (st : CpuScan × CpuBlock) : Prop where
  physicalIds : st.1.physicalIds = scan.physicalIds
  coreIds : st.1.coreIds = scan.coreIds
  logical : scan.logical + st.2.sawProcessor.toNat ≤ st.1.logical

/-- A key of a block leaves the sets alone, and only `processor` counts. -/
theorem CpuGrows.field {scan : CpuScan} {st : CpuScan × CpuBlock} (h : CpuGrows scan st)
    (k v : String) : CpuGrows scan (cpuField st k v) := by
  obtain ⟨cur, blk⟩ := st
  obtain ⟨hphys, hcore, hlog⟩ := h
  dsimp only [cpuField]
  split_ifs
  · refine ⟨hphys, hcore, ?_⟩
    show scan.logical + 1 ≤ cur.logical + 1
    exact Nat.succ_le_succ (le_trans (Nat.le_add_right _ _) hlog)
  all_goals exact ⟨hphys, hcore, hlog⟩

/-- So does a line, with a colon or without. -/
theorem CpuGrows.line {scan : CpuScan} {st : CpuScan × CpuBlock} (h : CpuGrows scan st)
    (line : String) : CpuGrows scan (cpuLine st line) := by
  unfold cpuLine
  split
  · exact h.field _ _
  · exact h

/-- What the lines of a block do together. -/
theorem cpuGrows_lines {scan : CpuScan} {st : CpuScan × CpuBlock} (h : CpuGrows scan st)
    (ls : List String) : CpuGrows scan (ls.foldl cpuLine st) := by
  induction ls generalizing st with
  | nil => exact h
  | cons l ls ih => exact ih (h.line l)

/-- The end of a block adds at most one element to each set, and only where a processor was
counted. -/
theorem CpuGrows.blockEnd {scan : CpuScan} {st : CpuScan × CpuBlock} (h : CpuGrows scan st)
    (hb : scan.Bounded) : (cpuBlockEnd st).Bounded := by
  obtain ⟨st, blk⟩ := st
  obtain ⟨hphys, hcore, hlog⟩ := h
  obtain ⟨hbphys, hbcore⟩ := hb
  dsimp only at hphys hcore hlog
  unfold cpuBlockEnd
  by_cases hsaw : blk.sawProcessor = true
  · -- each set gains one element at most, and the block has counted one processor at least
    rw [hsaw, Bool.toNat_true] at hlog
    have hsocket : ∀ p, (insert p st.physicalIds).card ≤ st.logical := fun p => by
      have := Finset.card_insert_le p st.physicalIds
      rw [hphys] at this ⊢
      omega
    have hpair : ∀ e, (insert e st.coreIds).card ≤ st.logical := fun e => by
      have := Finset.card_insert_le e st.coreIds
      rw [hcore] at this ⊢
      omega
    have hsame : st.physicalIds.card ≤ st.logical ∧ st.coreIds.card ≤ st.logical := by
      rw [hphys, hcore]
      omega
    simp only [hsaw, if_true]
    constructor
    · dsimp only
      split
      · exact hsocket _
      · exact hsame.1
    · dsimp only
      split
      · exact hpair _
      · exact hsame.2
  · rw [Bool.not_eq_true] at hsaw
    simp only [hsaw, Bool.false_eq_true, if_false]
    rw [hsaw] at hlog
    unfold CpuScan.Bounded
    rw [hphys, hcore]
    exact ⟨by omega, by omega⟩

/-- The scan of any text has no more sockets and cores than processors. -/
theorem bounded_cpuScan (raw : String) : (cpuScan raw).Bounded := by
  have hblocks : ∀ (blocks : List String) (scan : CpuScan), scan.Bounded →
      (blocks.foldl cpuBlock scan).Bounded := by
    intro blocks
    induction blocks with
    | nil => exact fun _ h => h
    | cons b blocks ih =>
      intro scan h
      have hstart : CpuGrows scan (scan, ⟨none, none, false⟩) := ⟨rfl, rfl, Nat.le_refl _⟩
      exact ih _ ((cpuGrows_lines hstart (lines b)).blockEnd h)
  exact hblocks _ _ ⟨Nat.le_refl 0, Nat.le_refl 0⟩

/-! ## The kernel's text -/

/-- A line of a block: the key, the value, and the white space around the colon. -/
structure CpuField where
  key : String
  before : String
  after : String
  value : String
  key_ok : (isTrimmed key && !containsChar key ':' && !containsChar key '\n') = true
  pads_ok : (isBlank before && isBlank after && !containsChar (before ++ after) '\n' &&
    !containsChar after '\r') = true
  value_ok : (isTrimmed value && !containsChar value '\n') = true

def CpuField.line (f : CpuField) : String := f.key ++ f.before ++ ":" ++ f.after ++ f.value

/-- The values of a key. -/
def valuesOf (key : String) (fs : List CpuField) : List String :=
  (fs.filter (·.key == key)).map CpuField.value

/-- A processor: the fields of its block, among which are its number, its socket and its core. -/
structure Processor where
  fields : List CpuField
  socket : ℕ
  core : ℕ
  processor_line : (valuesOf "processor" fields).length = 1
  socket_line : valuesOf "physical id" fields = [toString socket]
  core_line : valuesOf "core id" fields = [toString core]
  socket_le : socket ≤ u32Max
  core_le : core ≤ u32Max

/-- The block of a processor, without its last line end. -/
def Processor.block (p : Processor) : String := "\n".intercalate (p.fields.map CpuField.line)

/-- `/proc/cpuinfo`. -/
def cpuinfoText (ps : List Processor) : String := String.join (ps.map fun p => p.block ++ "\n\n")

namespace CpuField

/-- A line of the kernel has no line feed in it. -/
theorem newline_not_mem_line (f : CpuField) : '\n' ∉ f.line.toList := by
  have hkey := f.key_ok
  have hpads := f.pads_ok
  have hvalue := f.value_ok
  simp only [Bool.and_eq_true, Bool.not_eq_true', containsChar, List.contains_eq_mem,
    decide_eq_false_iff_not, String.toList_append, List.mem_append] at hkey hpads hvalue
  simp [line, hkey.2, hvalue.2, hpads.1.2]

/-- So `lines` gives it back. -/
theorem isLine_line (f : CpuField) : isLine f.line = true := by
  have hpads := f.pads_ok
  have hvalue := f.value_ok
  simp only [Bool.and_eq_true, Bool.not_eq_true', containsChar, List.contains_eq_mem,
    decide_eq_false_iff_not, isTrimmed] at hpads hvalue
  have hlast : f.line.toList.getLast? ≠ some '\r' := by
    rw [show f.line.toList = (f.key ++ f.before).toList ++ [':'] ++ f.after.toList ++ f.value.toList by
      simp [line], List.getLast?_append, List.getLast?_append, List.getLast?_concat]
    -- the last character is one of the value, else one of the pad, else the colon
    intro h
    cases hv : f.value.toList.getLast? with
    | some c =>
      rw [hv, Option.some_or] at h
      have hws := hvalue.1.2
      rw [hv, Option.some.inj h] at hws
      exact absurd hws (by decide)
    | none =>
      rw [hv, Option.none_or] at h
      cases ha : f.after.toList.getLast? with
      | some c =>
        rw [ha, Option.some_or] at h
        exact hpads.2 (List.mem_of_getLast? (ha.trans h))
      | none =>
        rw [ha, Option.none_or] at h
        exact absurd h (by decide)
  simp [isLine, containsChar, f.newline_not_mem_line, hlast]

/-- No line of a block is the empty line that ends the block. -/
theorem line_ne_empty (f : CpuField) : f.line ≠ "" := by
  simp [line]

/-- The loop reads a line as its key and value. -/
theorem cpuLine_line (st : CpuScan × CpuBlock) (f : CpuField) :
    cpuLine st f.line = cpuField st f.key f.value := by
  have hkey := f.key_ok
  have hpads := f.pads_ok
  have hvalue := f.value_ok
  simp only [Bool.and_eq_true, Bool.not_eq_true', containsChar, List.contains_eq_mem,
    decide_eq_false_iff_not] at hkey hpads hvalue
  have hcolon : ':' ∉ (f.key ++ f.before).toList := by
    rw [String.toList_append, List.mem_append, not_or]
    refine ⟨hkey.1.2, fun hmem => ?_⟩
    exact absurd (isWhitespace_of_isBlank hpads.1.1.1 ':' hmem) (by decide)
  have hsplit : splitOnce ':' f.line = some (f.key ++ f.before, f.after ++ f.value) := by
    rw [← splitOnce_append hcolon]
    congr 1
    simp [← String.toList_inj, line]
  have htrimKey : trim (f.key ++ f.before) = f.key := by
    simpa using trim_padded (g := "") (by decide) hkey.1.1 hpads.1.1.1
  have htrimValue : trim (f.after ++ f.value) = f.value := by
    have hnone : isBlank "" = true := by decide
    simpa using trim_padded hpads.1.1.2 hvalue.1 hnone
  rw [cpuLine, hsplit]
  simp only [htrimKey, htrimValue]

end CpuField

/-- Reading the lines of a block is reading its keys and values. -/
theorem foldl_cpuLine (st : CpuScan × CpuBlock) (fs : List CpuField) :
    (fs.map CpuField.line).foldl cpuLine st = fs.foldl (fun st f => cpuField st f.key f.value) st := by
  rw [List.foldl_map]
  simp only [CpuField.cpuLine_line]

namespace Processor

variable (p : Processor)

/-- `lines` gives the fields of a block, one on each line. -/
theorem lines_block : lines p.block = p.fields.map CpuField.line := by
  refine lines_intercalate fun l hl => ?_
  obtain ⟨f, -, rfl⟩ := List.mem_map.mp hl
  exact ⟨f.isLine_line, f.line_ne_empty⟩

/-- An empty line is only at the end of a block. -/
theorem clear_block : Clear ['\n', '\n'] p.block.toList := by
  refine clear_blankLine fun l hl => ?_
  obtain ⟨f, -, rfl⟩ := List.mem_map.mp hl
  exact ⟨f.newline_not_mem_line, f.line_ne_empty⟩

end Processor

/-- The blocks of the kernel's text; what follows the last one is empty. -/
theorem splitStr_cpuinfoText (ps : List Processor) :
    splitStr "\n\n" (cpuinfoText ps) = ps.map Processor.block ++ [""] := by
  have hpieces : splitFrom ['\n', '\n'] 0 (cpuinfoText ps).toList
      = ps.map (fun p => p.block.toList) ++ [[]] := by
    induction ps with
    | nil => rfl
    | cons p ps ih =>
      have hcons : (cpuinfoText (p :: ps)).toList
          = p.block.toList ++ (['\n', '\n'] ++ (cpuinfoText ps).toList) := by
        simp [cpuinfoText, String.join_cons]
      rw [hcons, splitFrom_append (by simp) p.clear_block, ih]
      rfl
  rw [splitStr]
  show (splitFrom ['\n', '\n'] 0 (cpuinfoText ps).toList).map String.ofList = _
  rw [hpieces]
  simp

/-- What the fields of a block make of what the loop carries: the first value of some keys stays, the
last value of the others. -/
structure CpuReads (fs : List CpuField) (st st' : CpuScan × CpuBlock) : Prop where
  logical : st'.1.logical = st.1.logical + (valuesOf "processor" fs).length
  saw : st'.2.sawProcessor = (st.2.sawProcessor || !(valuesOf "processor" fs).isEmpty)
  physicalIds : st'.1.physicalIds = st.1.physicalIds
  coreIds : st'.1.coreIds = st.1.coreIds
  phys : st'.2.phys = (valuesOf "physical id" fs).foldl (fun _ v => parseUnsigned u32Max v) st.2.phys
  core : st'.2.core = (valuesOf "core id" fs).foldl (fun _ v => parseUnsigned u32Max v) st.2.core
  model : st'.1.model = (valuesOf "model name" fs).foldl (fun m v => if m = "" then v else m) st.1.model
  flags : st'.1.flags =
    ((valuesOf "flags" fs).map splitWhitespace).foldl (fun m v => if m = [] then v else m) st.1.flags

/-- The values of a key in two runs of fields, one after the other. -/
theorem valuesOf_append (key : String) (fs gs : List CpuField) :
    valuesOf key (fs ++ gs) = valuesOf key fs ++ valuesOf key gs := by
  simp [valuesOf]

/-- A field has a value for its own key only. -/
theorem valuesOf_singleton (key : String) (f : CpuField) :
    valuesOf key [f] = if f.key = key then [f.value] else [] := by
  by_cases h : f.key = key <;> simp [h, valuesOf]

/-- What two runs of fields are read as composes. -/
theorem CpuReads.append {fs gs : List CpuField} {st st' st'' : CpuScan × CpuBlock}
    (h : CpuReads fs st st') (h' : CpuReads gs st' st'') : CpuReads (fs ++ gs) st st'' := by
  constructor
  · rw [h'.logical, h.logical, valuesOf_append, List.length_append, Nat.add_assoc]
  · rw [h'.saw, h.saw, valuesOf_append, Bool.or_assoc]
    cases valuesOf "processor" fs <;> simp
  · rw [h'.physicalIds, h.physicalIds]
  · rw [h'.coreIds, h.coreIds]
  · rw [h'.phys, h.phys, valuesOf_append, List.foldl_append]
  · rw [h'.core, h.core, valuesOf_append, List.foldl_append]
  · rw [h'.model, h.model, valuesOf_append, List.foldl_append]
  · rw [h'.flags, h.flags, valuesOf_append, List.map_append, List.foldl_append]

/-- One field, key by key. -/
theorem cpuReads_field (f : CpuField) (st : CpuScan × CpuBlock) :
    CpuReads [f] st (cpuField st f.key f.value) := by
  obtain ⟨cur, blk⟩ := st
  by_cases hproc : f.key = "processor"
  · constructor <;> simp [cpuField, valuesOf_singleton, hproc]
  · by_cases hmodel : f.key = "model name"
    · by_cases hm : cur.model = "" <;> constructor <;> simp [cpuField, valuesOf_singleton, hmodel, hm]
    · by_cases hflags : f.key = "flags"
      · by_cases hf : cur.flags = [] <;> constructor <;> simp [cpuField, valuesOf_singleton, hflags, hf]
      · by_cases hphys : f.key = "physical id"
        · constructor <;> simp [cpuField, valuesOf_singleton, hphys]
        · by_cases hcore : f.key = "core id" <;> constructor <;>
            simp [cpuField, valuesOf_singleton, hproc, hmodel, hflags, hphys, hcore]

/-- What the loop over the fields of a block has at its end, from the values of each key alone. -/
theorem cpuReads (fs : List CpuField) (st : CpuScan × CpuBlock) :
    CpuReads fs st (fs.foldl (fun st f => cpuField st f.key f.value) st) := by
  induction fs generalizing st with
  | nil => exact ⟨rfl, by simp [valuesOf], rfl, rfl, rfl, rfl, rfl, rfl⟩
  | cons f fs ih => exact (cpuReads_field f st).append (ih _)

/-- The first value that is not the initial one. -/
theorem foldl_first {α : Type} [DecidableEq α] (e : α) (l : List α) (m : α) :
    l.foldl (fun m v => if m = e then v else m) m
      = if m = e then (l.find? (· ≠ e)).getD e else m := by
  induction l generalizing m with
  | nil => by_cases h : m = e <;> simp [h]
  | cons v l ih =>
    rw [List.foldl_cons, ih]
    by_cases h : m = e
    · by_cases hv : v = e <;> simp [h, hv]
    · simp [h]

/-- The values of a key, processor by processor. -/
def allValues (key : String) (ps : List Processor) : List String :=
  ps.flatMap fun p => valuesOf key p.fields

/-- What the blocks of some processors make of what the loop carries. -/
structure CpuCounts (ps : List Processor) (scan scan' : CpuScan) : Prop where
  logical : scan'.logical = scan.logical + ps.length
  physicalIds : scan'.physicalIds = scan.physicalIds ∪ (ps.map Processor.socket).toFinset
  coreIds : scan'.coreIds = scan.coreIds ∪ (ps.map fun p => (p.socket, p.core)).toFinset
  model : scan'.model =
    (allValues "model name" ps).foldl (fun m v => if m = "" then v else m) scan.model
  flags : scan'.flags = ((allValues "flags" ps).map splitWhitespace).foldl
    (fun m v => if m = [] then v else m) scan.flags

/-- The counts over two lists of processors add up. -/
theorem CpuCounts.append {ps qs : List Processor} {s s' s'' : CpuScan} (h : CpuCounts ps s s')
    (h' : CpuCounts qs s' s'') : CpuCounts (ps ++ qs) s s'' := by
  constructor
  · rw [h'.logical, h.logical, List.length_append, Nat.add_assoc]
  · rw [h'.physicalIds, h.physicalIds, List.map_append, List.toFinset_append, Finset.union_assoc]
  · rw [h'.coreIds, h.coreIds, List.map_append, List.toFinset_append, Finset.union_assoc]
  · rw [h'.model, h.model, allValues, allValues, allValues, List.flatMap_append, List.foldl_append]
  · rw [h'.flags, h.flags, allValues, allValues, allValues, List.flatMap_append, List.map_append,
      List.foldl_append]

/-- A block of the kernel counts its processor, its socket and its core. -/
theorem cpuCounts_block (p : Processor) (scan : CpuScan) :
    CpuCounts [p] scan (cpuBlock scan p.block) := by
  have hreads := cpuReads p.fields (scan, ⟨none, none, false⟩)
  rw [← foldl_cpuLine, ← p.lines_block] at hreads
  rw [cpuBlock]
  generalize (lines p.block).foldl cpuLine (scan, ⟨none, none, false⟩) = st at hreads
  obtain ⟨cur, blk⟩ := st
  obtain ⟨v, hv⟩ := List.length_eq_one_iff.mp p.processor_line
  have hsaw : blk.sawProcessor = true := by simpa [hv] using hreads.saw
  have hphys : blk.phys = some p.socket := by
    have h := hreads.phys
    rwa [p.socket_line, List.foldl_cons, parseUnsigned_toString p.socket_le] at h
  have hcore : blk.core = some p.core := by
    have h := hreads.core
    rwa [p.core_line, List.foldl_cons, parseUnsigned_toString p.core_le] at h
  simp only [cpuBlockEnd, hsaw, if_true, hphys, hcore, Option.some_or]
  have hids := hreads.physicalIds
  have hcores := hreads.coreIds
  dsimp only at hids hcores
  constructor
  · simpa [hv] using hreads.logical
  · simp [hids]
  · simp [hcores]
  · simpa [allValues] using hreads.model
  · simpa [allValues] using hreads.flags

/-- The loop over the blocks of a list of processors. -/
theorem cpuCounts (ps : List Processor) (scan : CpuScan) :
    CpuCounts ps scan ((ps.map Processor.block).foldl cpuBlock scan) := by
  induction ps generalizing scan with
  | nil => exact ⟨rfl, by simp, by simp, rfl, rfl⟩
  | cons p ps ih => exact (cpuCounts_block p scan).append (ih _)

/-- The counts of `cpu_info`. Whatever the text, there is a processor, and there are as many sockets and
cores as processors at most. On the kernel's text they are the numbers of processors, of distinct
sockets and of distinct cores of sockets, in whatever order the processors stand; the model and the
flags are the first that are given. -/
theorem cpu_info_counts :
    (∀ raw, 1 ≤ (cpuInfo raw).sockets ∧ (cpuInfo raw).sockets ≤ (cpuInfo raw).logicalCpus ∧
        1 ≤ (cpuInfo raw).physicalCores ∧ (cpuInfo raw).physicalCores ≤ (cpuInfo raw).logicalCpus) ∧
      ∀ ps : List Processor, cpuInfo (cpuinfoText ps) =
        { modelName := ((allValues "model name" ps).find? (· ≠ "")).getD "unknown"
          flags := (((allValues "flags" ps).map splitWhitespace).find? (· ≠ [])).getD []
          physicalCores := max (ps.map fun p => (p.socket, p.core)).toFinset.card 1
          logicalCpus := max ps.length 1
          sockets := max (ps.map Processor.socket).toFinset.card 1 } := by
  constructor
  · intro raw
    obtain ⟨hphys, hcore⟩ := bounded_cpuScan raw
    refine ⟨le_max_right _ _, max_le_max_right 1 hphys, ?_, ?_⟩
    · unfold cpuInfo
      dsimp only
      split_ifs with hnone
      · exact le_max_right _ _
      · exact Finset.card_pos.mpr (Finset.nonempty_iff_ne_empty.mpr hnone)
    · unfold cpuInfo
      dsimp only
      split_ifs
      · exact le_rfl
      · exact le_trans hcore (le_max_left _ _)
  · intro ps
    have hcounts := cpuCounts ps ⟨"", [], ∅, ∅, 0, none⟩
    have hscan : cpuScan (cpuinfoText ps)
        = (ps.map Processor.block).foldl cpuBlock ⟨"", [], ∅, ∅, 0, none⟩ := by
      rw [cpuScan, splitStr_cpuinfoText, List.foldl_append]
      rfl
    rw [← hscan] at hcounts
    obtain ⟨hlog, hphys, hcore, hmodel, hflags⟩ := hcounts
    rw [foldl_first, if_pos rfl] at hmodel hflags
    rw [Nat.zero_add] at hlog
    rw [Finset.empty_union] at hphys hcore
    rw [cpuInfo, CpuInfo.mk.injEq, hlog, hphys, hcore, hmodel, hflags]
    refine ⟨?_, rfl, ?_, rfl, rfl⟩
    · cases hfind : (allValues "model name" ps).find? (· ≠ "") with
      | none => rfl
      | some m =>
        have hm : m ≠ "" := by simpa using List.find?_some hfind
        simp [hm]
    · cases ps with
      | nil => rfl
      | cons p ps =>
        have hne : (((p :: ps).map fun p => (p.socket, p.core)).toFinset).Nonempty :=
          ⟨(p.socket, p.core), by simp⟩
        rw [if_neg hne.ne_empty, max_eq_left (Finset.card_pos.mpr hne)]

/-- A field as the kernel prints it. -/
def tabbed (key value : String)
    (hkey : (isTrimmed key && !containsChar key ':' && !containsChar key '\n') = true := by decide)
    (hvalue : (isTrimmed value && !containsChar value '\n') = true := by decide) : CpuField :=
  ⟨key, "\t", " ", value, hkey, by decide, hvalue⟩

/-- The second thread of a core. -/
def sibling : Processor where
  fields := [tabbed "processor" "1", tabbed "physical id" "0", tabbed "core id" "0"]
  socket := 0
  core := 0
  processor_line := by decide
  socket_line := by decide
  core_line := by decide
  socket_le := by decide
  core_le := by decide

example : cpuinfoText [sibling] = "processor\t: 1\nphysical id\t: 0\ncore id\t: 0\n\n" := by decide

end Vdsm.Host
