import Vdsm.Lib.KeyValue
import Mathlib.Data.Finset.Sort

/-!
# NUMA nodes

Reference: `vdsm-host/src/sysinfo.rs`, `numa_nodes`.

The kernel prints the CPUs of a node as the maximal runs of their ids. `runs` computes these from the
sorted ids, so that `kernelCpulist` is the kernel's text for a set of ids, and the parser is shown to
invert it.
-/

namespace Vdsm.Host

open Rust

def u32Max : ℕ := 2 ^ 32 - 1

/-! ## The parser -/

/-- The ids `a..=b`. -/
def idRange (a b : ℕ) : List ℕ := List.range' a (b + 1 - a)

/-- The ids that one part of a `cpulist` adds. -/
def partCpus (part : String) : List ℕ :=
  match splitOnce '-' part with
  | some (a, b) =>
    match parseUnsigned u32Max a, parseUnsigned u32Max b with
    | some a, some b => idRange a b
    | _, _ => []
  | none => (parseUnsigned u32Max part).toList

/-- The loop over the parts of a `cpulist`. -/
def parseCpulist (list : String) : List ℕ := (splitChar ',' (trim list)).flatMap partCpus

/-- The loop over the lines of a `meminfo`: the last word but one of the first line that has
`MemTotal:`. -/
def parseMemTotal (meminfo : String) : ℕ :=
  match (lines meminfo).find? (contains · "MemTotal:") with
  | some line =>
    match (splitWhitespace line).reverse[1]? with
    | some num => (parseUnsigned (2 ^ 64 - 1) num).getD 0
    | none => 0
  | none => 0

/-- An entry of `/sys/devices/system/node`, with its files as far as they can be read. -/
structure NodeEntry where
  name : String
  cpulist : Option String
  meminfo : Option String
deriving DecidableEq, Repr

/-- One turn of the loop over the entries. -/
def nodeOf (e : NodeEntry) : Option (ℕ × List ℕ × ℕ) := do
  let idx ← parseUnsigned u32Max (← stripPrefix e.name "node")
  let cpus := (e.cpulist.map parseCpulist).getD []
  let totalKb := (e.meminfo.map parseMemTotal).getD 0
  return (idx, cpus, totalKb / 1024)

/-- `numa_nodes`, from the entries of the directory if it can be read. -/
def numaNodes (entries : Option (List NodeEntry)) : List (ℕ × List ℕ × ℕ) :=
  match entries with
  | none => []
  | some entries => (entries.filterMap nodeOf).mergeSort fun a b => decide (a.1 ≤ b.1)

/-! ## Maximal runs -/

/-- The maximal runs of consecutive ids in a sorted list, each by its first and last id. -/
def runs : List ℕ → List (ℕ × ℕ)
  | [] => []
  | a :: l =>
    match runs l with
    | [] => [(a, a)]
    | (b, e) :: rest => if b = a + 1 then (a, e) :: rest else (a, a) :: (b, e) :: rest

/-- The ids of a list of runs. -/
def expand (rs : List (ℕ × ℕ)) : List ℕ := rs.flatMap fun r => idRange r.1 r.2

/-- A range starts with its lower bound and goes on behind it. -/
theorem idRange_cons {a b : ℕ} (h : a ≤ b) : idRange a b = a :: idRange (a + 1) b := by
  rw [idRange, idRange, show b + 1 - a = b + 1 - (a + 1) + 1 by omega, List.range'_succ]

theorem idRange_self (a : ℕ) : idRange a a = [a] := by simp [idRange]

/-- Both bounds belong to a range. -/
theorem mem_idRange {a b c : ℕ} : c ∈ idRange a b ↔ a ≤ c ∧ c ≤ b := by
  rw [idRange, List.mem_range'_1]
  omega

/-- The first run starts with the first id. -/
theorem runs_head (l : List ℕ) : (runs l).head?.map Prod.fst = l.head? := by
  cases l with
  | nil => rfl
  | cons a l =>
    rw [runs]
    split
    · rfl
    · split <;> rfl

/-- A run never ends before it starts. -/
theorem le_of_mem_runs {l : List ℕ} {r : ℕ × ℕ} (h : r ∈ runs l) : r.1 ≤ r.2 := by
  induction l generalizing r with
  | nil => simp [runs] at h
  | cons a l ih =>
    rw [runs] at h
    split at h
    · simp_all
    · rename_i b e rest hrest
      have hbe : b ≤ e := ih (hrest ▸ List.mem_cons_self)
      split at h
      · obtain rfl | hr := List.mem_cons.mp h
        · dsimp only
          omega
        · exact ih (hrest ▸ List.mem_cons_of_mem _ hr)
      · obtain rfl | hr := List.mem_cons.mp h
        · exact Nat.le_refl a
        · exact ih (hrest ▸ hr)

/-- Writing the runs out gives back the ids they were made of. -/
theorem expand_runs (l : List ℕ) : expand (runs l) = l := by
  induction l with
  | nil => rfl
  | cons a l ih =>
    rw [runs]
    split
    · rename_i hnil
      rw [hnil] at ih
      rw [← ih]
      simp [expand, idRange_self]
    · rename_i b e rest hrest
      have hbe : b ≤ e := le_of_mem_runs (r := (b, e)) (hrest ▸ List.mem_cons_self)
      rw [hrest] at ih
      split
      · -- `a` extends the first run
        rename_i hb
        subst hb
        rw [← ih, expand, expand, List.flatMap_cons, List.flatMap_cons,
          idRange_cons (a := a) (by omega), List.cons_append]
      · rw [← ih, expand, List.flatMap_cons, idRange_self, List.singleton_append]
        rfl

/-- The runs are maximal: after each of them an id is missing. -/
theorem runs_maximal {l : List ℕ} (h : l.Pairwise (· < ·)) :
    (runs l).IsChain fun r r' => r.2 + 1 < r'.1 := by
  induction l with
  | nil => exact .nil
  | cons a l ih =>
    rw [List.pairwise_cons] at h
    have hhead := runs_head l
    rw [runs]
    split
    · exact .singleton _
    · rename_i b e rest hrest
      rw [hrest] at ih hhead
      have hab : a < b := h.1 b (List.mem_of_head? hhead.symm)
      split
      · cases rest with
        | nil => exact .singleton _
        | cons r rest => exact List.isChain_cons_cons.mpr (List.isChain_cons_cons.mp (ih h.2))
      · exact .cons_cons (by dsimp only; omega) (ih h.2)

/-! ## The kernel's text -/

/-- A run of one id is printed as the id, a longer one as its ends. -/
def printRun (r : ℕ × ℕ) : String :=
  if r.1 = r.2 then toString r.1 else toString r.1 ++ "-" ++ toString r.2

/-- The elements of a set in increasing order. -/
def ids (S : Finset ℕ) : List ℕ := S.sort (· ≤ ·)

theorem mem_ids {S : Finset ℕ} {c : ℕ} : c ∈ ids S ↔ c ∈ S := Finset.mem_sort _

theorem ids_pairwise (S : Finset ℕ) : (ids S).Pairwise (· < ·) := S.sortedLT_sort.pairwise

/-- How the kernel prints a set of CPU ids. -/
def kernelCpulist (S : Finset ℕ) : String := ",".intercalate ((runs (ids S)).map printRun)

/-- What is printed are the maximal runs of the set. -/
theorem runs_ids (S : Finset ℕ) :
    ((runs (ids S)).IsChain fun r r' => r.2 + 1 < r'.1) ∧
      ∀ c, c ∈ S ↔ ∃ r ∈ runs (ids S), r.1 ≤ c ∧ c ≤ r.2 := by
  refine ⟨runs_maximal (ids_pairwise S), fun c => ?_⟩
  have hmem : c ∈ S ↔ c ∈ expand (runs (ids S)) := by rw [expand_runs, mem_ids]
  rw [hmem, expand, List.mem_flatMap]
  simp only [mem_idRange]

/-- The characters of a printed run are digits and the hyphen. -/
theorem mem_printRun {r : ℕ × ℕ} {c : Char} (h : c ∈ (printRun r).toList) : c.isDigit ∨ c = '-' := by
  rw [printRun] at h
  split at h
  · exact .inl (isDigit_of_mem_toString h)
  · simp only [String.toList_append, List.mem_append] at h
    obtain (h | h) | h := h
    · exact .inl (isDigit_of_mem_toString h)
    · exact .inr (by simpa using h)
    · exact .inl (isDigit_of_mem_toString h)

/-- A printed id is never taken for a range. -/
theorem hyphen_not_mem_toString (n : ℕ) : '-' ∉ (toString n).toList := fun h =>
  absurd (isDigit_of_mem_toString h) (by decide)

/-- The parser reads a printed run back. -/
theorem partCpus_printRun {r : ℕ × ℕ} (h1 : r.1 ≤ u32Max) (h2 : r.2 ≤ u32Max) :
    partCpus (printRun r) = idRange r.1 r.2 := by
  rw [printRun]
  split
  · rename_i heq
    have hno : splitOnce '-' (toString r.1) = none := by
      rw [splitOnce, if_neg]
      simpa [containsChar] using hyphen_not_mem_toString r.1
    rw [partCpus, hno, parseUnsigned_toString h1, ← heq, idRange_self]
    rfl
  · have htext : toString r.1 ++ "-" ++ toString r.2
        = String.ofList ((toString r.1).toList ++ '-' :: (toString r.2).toList) := by
      rw [← String.toList_inj]
      simp
    rw [partCpus, htext, splitOnce_append (hyphen_not_mem_toString r.1)]
    simp only [parseUnsigned_toString h1, parseUnsigned_toString h2]

/-- The kernel's text is made of digits, hyphens and commas. -/
theorem isWhitespace_of_mem_kernelCpulist {S : Finset ℕ} {c : Char}
    (h : c ∈ (kernelCpulist S).toList) : isWhitespace c = false := by
  rw [kernelCpulist, String.toList_intercalate] at h
  obtain hc | ⟨l, hl, hc⟩ := mem_intercalate h
  · obtain rfl : c = ',' := by simpa using hc
    decide
  · obtain ⟨r, -, rfl⟩ : ∃ r ∈ runs (ids S), (printRun r).toList = l := by simpa using hl
    obtain hdigit | rfl := mem_printRun hc
    · exact isWhitespace_digit hdigit
    · decide

/-- The parser gives back the ids that the kernel printed, in order. -/
theorem parseCpulist_kernelCpulist {S : Finset ℕ} (hS : ∀ c ∈ S, c ≤ u32Max) {w : String}
    (hw : ∀ c ∈ w.toList, isWhitespace c = true) :
    parseCpulist (kernelCpulist S ++ w) = ids S := by
  have hparts : ∀ s ∈ (runs (ids S)).map printRun, ',' ∉ s.toList := by
    intro s hs hmem
    obtain ⟨r, -, rfl⟩ := List.mem_map.mp hs
    obtain hdigit | hhyphen := mem_printRun hmem
    · exact absurd hdigit (by decide)
    · exact absurd hhyphen (by decide)
  have hids : ∀ r ∈ runs (ids S), r.1 ≤ u32Max ∧ r.2 ≤ u32Max := by
    intro r hr
    have hle := le_of_mem_runs hr
    have hmem : ∀ c ∈ idRange r.1 r.2, c ≤ u32Max := by
      intro c hc
      have hc' : c ∈ expand (runs (ids S)) := List.mem_flatMap.mpr ⟨r, hr, hc⟩
      rw [expand_runs, mem_ids] at hc'
      exact hS c hc'
    exact ⟨hmem r.1 (mem_idRange.mpr ⟨Nat.le_refl _, hle⟩),
      hmem r.2 (mem_idRange.mpr ⟨hle, Nat.le_refl _⟩)⟩
  rw [parseCpulist, trim_append (fun c => isWhitespace_of_mem_kernelCpulist) hw]
  by_cases hempty : runs (ids S) = []
  · -- the empty line has one empty part, which is no number
    have hsort : ids S = [] := by rw [← expand_runs (ids S), hempty]; rfl
    rw [kernelCpulist, hempty, hsort]
    rfl
  · have hsep : kernelCpulist S = (String.singleton ',').intercalate ((runs (ids S)).map printRun) :=
      rfl
    rw [hsep, splitChar_intercalate (by simpa using hempty) hparts, List.flatMap_map]
    calc (runs (ids S)).flatMap (fun r => partCpus (printRun r))
        = expand (runs (ids S)) := List.flatMap_congr fun r hr =>
          partCpus_printRun (hids r hr).1 (hids r hr).2
      _ = ids S := expand_runs (ids S)

/-- A node directory shows up in the result of `numa_nodes` with the CPUs that the kernel lists for
it. -/
theorem mem_numaNodes {entries : List NodeEntry} {e : NodeEntry} {idx : ℕ} {S : Finset ℕ}
    (he : e ∈ entries) (hname : e.name = "node" ++ toString idx) (hidx : idx ≤ u32Max)
    (hS : ∀ c ∈ S, c ≤ u32Max) (hlist : e.cpulist = some (kernelCpulist S ++ "\n")) :
    ∃ mem, (idx, ids S, mem) ∈ numaNodes (some entries) := by
  have hcpus : parseCpulist (kernelCpulist S ++ "\n") = ids S :=
    parseCpulist_kernelCpulist hS isWhitespace_newline
  refine ⟨(e.meminfo.map parseMemTotal).getD 0 / 1024, ?_⟩
  rw [numaNodes, List.mem_mergeSort, List.mem_filterMap]
  refine ⟨e, he, ?_⟩
  rw [nodeOf, hname, stripPrefix_append, hlist]
  simp only [Option.bind_eq_bind, Option.bind_some, Option.map_some, Option.getD_some,
    parseUnsigned_toString hidx, hcpus, Option.pure_def]

/-- The parser inverts the kernel's format. For every finite set of `u32` ids, printed with or without
a line feed at the end, the loop of `numa_nodes` pushes the elements of the set, each once and in
increasing order. -/
theorem numa_cpulist_inverts (S : Finset ℕ) (hS : ∀ c ∈ S, c ≤ u32Max) (newline : Bool) :
    let cpus := parseCpulist (kernelCpulist S ++ if newline then "\n" else "")
    cpus.Pairwise (· < ·) ∧ ∀ c, c ∈ cpus ↔ c ∈ S := by
  have hw : ∀ c ∈ (if newline then "\n" else "").toList, isWhitespace c = true := by
    cases newline with
    | false => exact fun c hc => absurd hc List.not_mem_nil
    | true => exact isWhitespace_newline
  rw [parseCpulist_kernelCpulist hS hw]
  exact ⟨ids_pairwise S, fun c => mem_ids⟩

/-- The ids 0, 1, 2 and 5, printed by the kernel and read back, also as the CPUs of a node. -/
theorem numa_cpulist_inverts_sample :
    kernelCpulist [0, 1, 2, 5].toFinset = "0-2,5" ∧
      ((parseCpulist ("0-2,5" ++ "\n")).Pairwise (· < ·) ∧
        ∀ c, c ∈ parseCpulist ("0-2,5" ++ "\n") ↔ c ∈ [0, 1, 2, 5].toFinset) ∧
      ∃ mem, (3, [0, 1, 2, 5], mem) ∈
        numaNodes (some [⟨"node3", some ("0-2,5" ++ "\n"), none⟩]) := by
  have hids : ids [0, 1, 2, 5].toFinset = [0, 1, 2, 5] :=
    (List.toFinset_sort _ (by decide)).mpr (by decide)
  have htext : kernelCpulist [0, 1, 2, 5].toFinset = "0-2,5" := by
    rw [kernelCpulist, hids]
    decide
  have h := numa_cpulist_inverts [0, 1, 2, 5].toFinset (by decide) true
  rw [htext] at h
  refine ⟨htext, h, ?_⟩
  have hname : "node3" = "node" ++ toString 3 := rfl
  rw [← hids, ← htext]
  exact mem_numaNodes (S := [0, 1, 2, 5].toFinset) (List.mem_singleton_self _) hname (by decide)
    (by decide) rfl

end Vdsm.Host
