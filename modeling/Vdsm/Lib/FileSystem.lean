import Vdsm.Lib.HashMap
import Vdsm.Lib.Path

/-!
# A file system without links

A tree of directories and files, as a map from component lists; whatever exists lies in a directory.
Paths are resolved the way the kernel does it, component by component: every component but the last
must be a directory, and `..` goes up. `removeDirAll` empties a directory and then removes it; that
last step fails on a path that ends in a dot component, and on one that led through what was removed.
-/

namespace FileSystem

open Rust

/-- Where something is, from the root. -/
abbrev Location : Type := List String

/-- What is at a location. -/
inductive Node where
  | dir
  | file (contents : List UInt8)
deriving DecidableEq

/-- A tree of directories and files. The root is not an entry. -/
structure Fs where
  entries : HashMap Location Node
  root : entries.lookup [] = none
  closed : ∀ p c, (entries.lookup (p ++ [c])).isSome → p = [] ∨ entries.lookup p = some .dir
  names : ∀ p c, (entries.lookup (p ++ [c])).isSome → isFileName c = true

namespace Fs

/-- Is there a directory? -/
def isDir (fs : Fs) (p : Location) : Bool := p == [] || fs.entries.lookup p == some .dir

/-- Is there a file? -/
def isFile (fs : Fs) (p : Location) : Bool :=
  match fs.entries.lookup p with
  | some (.file _) => true
  | _ => false

/-- Follow the components of a path. -/
def walk (fs : Fs) : Location → List String → Option Location
  | cur, [] => some cur
  | cur, c :: cs =>
    if !fs.isDir cur then none
    else if isTrivial c then walk fs cur cs
    -- the parent of the root is the root
    else if c = ".." then walk fs cur.dropLast cs
    else walk fs (cur ++ [c]) cs

/-- What an absolute path leads to. -/
def resolve (fs : Fs) (path : String) : Option Location := fs.walk [] (splitChar '/' path)

/-- The directory an absolute path leads to. -/
def resolveDir (fs : Fs) (path : String) : Option Location :=
  (fs.resolve path).filter fs.isDir

/-- The name of a location in a directory. -/
def nameIn (dir : Location) (p : Location) : Option String :=
  if p.dropLast = dir then p.getLast? else none

/-- `read_dir`: the names in a directory. -/
def readDir (fs : Fs) (path : String) : Option (List String) :=
  (fs.resolveDir path).map fun dir => fs.entries.toPairs.filterMap fun e => nameIn dir e.1

/-- What stays when a directory is removed: what is not below it, and itself if its removal fails. -/
def stays (dir : Location) (keepDir : Bool) (p : Location) : Bool :=
  !dir.isPrefixOf p || (keepDir && p == dir)

/-- Remove what is below a directory, and the directory. -/
def removeTree (fs : Fs) (dir : Location) (keepDir : Bool) : Fs where
  entries := fs.entries.retain fun p _ => stays dir keepDir p
  root := by
    rw [HashMap.lookup_retain, fs.root]
    rfl
  closed := by
    intro p c h
    rw [HashMap.lookup_retain, Option.isSome_iff_exists] at h
    obtain ⟨n, hn⟩ := h
    obtain ⟨hold, hstays⟩ := Option.filter_eq_some_iff.mp hn
    rcases fs.closed p c (by simp [hold]) with rfl | hp
    · exact .inl rfl
    · right
      rw [HashMap.lookup_retain, hp]
      have hbelow : dir.isPrefixOf p = false := by
        rw [Bool.eq_false_iff, ne_eq, List.isPrefixOf_iff_prefix]
        intro hpre
        have hpre' : dir.isPrefixOf (p ++ [c]) = true :=
          List.isPrefixOf_iff_prefix.mpr (hpre.trans (List.prefix_append p [c]))
        have hne : p ++ [c] ≠ dir := by
          rintro rfl
          have hlen := hpre.length_le
          simp only [List.length_append, List.length_singleton] at hlen
          omega
        simp [stays, hpre', hne] at hstays
      simp [Option.filter, stays, hbelow]
  names := by
    intro p c h
    rw [HashMap.lookup_retain, Option.isSome_iff_exists] at h
    obtain ⟨n, hn⟩ := h
    exact fs.names p c (by simp [(Option.filter_eq_some_iff.mp hn).1])

/-- Is the last component of a path, trailing slashes apart, `.` or `..`? -/
def endsInDots (path : String) : Bool :=
  let last := ((splitChar '/' path).filter (· != "")).getLast?
  last == some "." || last == some ".."

/-- `remove_dir_all`, with its error ignored. What is below the directory goes first; the directory
goes then, if the path still leads to it. -/
def removeDirAll (fs : Fs) (path : String) : Fs :=
  match fs.resolveDir path with
  | some dir =>
    let emptied := fs.removeTree dir true
    fs.removeTree dir (endsInDots path || emptied.resolveDir path != some dir)
  | none => fs

/-- Nothing but the root. -/
def empty : Fs := ⟨∅, rfl, by simp, by simp⟩

/-- Create or replace an entry of a directory; a directory is not replaced by a file. -/
def put (fs : Fs) (dir : Location) (c : String) (n : Node) : Fs :=
  if h : fs.isDir dir = true ∧ isFileName c = true ∧ (n = .dir ∨ fs.isDir (dir ++ [c]) = false) then
    { entries := fs.entries.insert (dir ++ [c]) n
      root := by
        rw [AList.lookup_insert_ne (by simp), fs.root]
      closed := by
        obtain ⟨hdir, -, hkind⟩ := h
        intro p c' hsome
        by_cases hp : p = dir ++ [c]
        · -- the new entry as a parent: it is a directory, or it was none and had no children
          subst hp
          rcases hkind with rfl | hnot
          · exact .inr (AList.lookup_insert _)
          · rw [AList.lookup_insert_ne (by simp)] at hsome
            rcases fs.closed _ c' hsome with hnil | hold
            · simp at hnil
            · simp [isDir, hold] at hnot
        · rw [AList.lookup_insert_ne hp]
          by_cases hnew : p ++ [c'] = dir ++ [c]
          · obtain ⟨rfl, -⟩ := List.append_inj' hnew rfl
            simpa [isDir] using hdir
          · rw [AList.lookup_insert_ne hnew] at hsome
            exact fs.closed p c' hsome
      names := by
        intro p c' hsome
        by_cases hnew : p ++ [c'] = dir ++ [c]
        · obtain ⟨-, hc⟩ := List.append_inj' hnew rfl
          rw [List.singleton_inj.mp hc]
          exact h.2.1
        · rw [AList.lookup_insert_ne hnew] at hsome
          exact fs.names p c' hsome }
  else fs

/-! ## What a removal leaves -/

/-- Removing a tree removes what lies in it and keeps the rest. -/
theorem lookup_removeTree (fs : Fs) (dir : Location) (keepDir : Bool) (p : Location) :
    (fs.removeTree dir keepDir).entries.lookup p
      = (fs.entries.lookup p).filter fun _ => stays dir keepDir p :=
  HashMap.lookup_retain _ _ _

/-- A file is an entry with contents. -/
theorem isFile_iff {fs : Fs} {p : Location} :
    fs.isFile p = true ↔ ∃ contents, fs.entries.lookup p = some (.file contents) := by
  rw [isFile]
  split
  · rename_i contents h
    exact ⟨fun _ => ⟨contents, h⟩, fun _ => rfl⟩
  · rename_i h
    simp only [Bool.false_eq_true, false_iff]
    rintro ⟨contents, hc⟩
    exact h contents hc

/-- No location is both a directory and a file. -/
theorem file_ne_dir {fs : Fs} {dir p : Location} (hdir : fs.isDir dir = true)
    (hp : fs.isFile p = true) : p ≠ dir := by
  obtain ⟨contents, hc⟩ := isFile_iff.mp hp
  rintro rfl
  by_cases hroot : p = []
  · subst hroot
    simp [fs.root] at hc
  · simp [isDir, hroot, hc] at hdir

/-- A file survives the removal of a directory exactly when it is not below it. -/
theorem removeTree_keeps_file {fs : Fs} {dir p : Location} {keepDir : Bool}
    (hdir : fs.isDir dir = true) (hp : fs.isFile p = true) :
    (fs.removeTree dir keepDir).entries.lookup p = fs.entries.lookup p ↔ ¬ dir <+: p := by
  obtain ⟨contents, hc⟩ := isFile_iff.mp hp
  have hne : (p == dir) = false := by simpa using file_ne_dir hdir hp
  rw [lookup_removeTree, hc, ← List.isPrefixOf_iff_prefix]
  cases hpre : dir.isPrefixOf p with
  | true => simp [Option.filter, stays, hpre, hne]
  | false => simp [Option.filter, stays, hpre]

/-- A path that leads to no directory removes nothing. -/
theorem removeDirAll_of_none {fs : Fs} {path : String} (h : fs.resolveDir path = none) :
    fs.removeDirAll path = fs := by
  rw [removeDirAll, h]

/-- What `resolveDir` gives is a directory. -/
theorem resolveDir_isDir {fs : Fs} {path : String} {dir : Location}
    (h : fs.resolveDir path = some dir) : fs.isDir dir = true :=
  (Option.filter_eq_some_iff.mp h).2

/-- `removeDirAll` spares exactly the files that are not below the directory. -/
theorem removeDirAll_keeps_file {fs : Fs} {path : String} {dir p : Location}
    (hdir : fs.resolveDir path = some dir) (hp : fs.isFile p = true) :
    (fs.removeDirAll path).entries.lookup p = fs.entries.lookup p ↔ ¬ dir <+: p := by
  rw [removeDirAll, hdir]
  exact removeTree_keeps_file (resolveDir_isDir hdir) hp

/-- Nothing is left below the directory. -/
theorem lookup_removeDirAll_below {fs : Fs} {path : String} {dir q : Location}
    (hdir : fs.resolveDir path = some dir) (hq : q ≠ []) :
    (fs.removeDirAll path).entries.lookup (dir ++ q) = none := by
  rw [removeDirAll, hdir]
  dsimp only
  rw [lookup_removeTree]
  have hpre : dir.isPrefixOf (dir ++ q) = true :=
    List.isPrefixOf_iff_prefix.mpr (List.prefix_append dir q)
  have hne : (dir ++ q == dir) = false := by simpa using hq
  cases fs.entries.lookup (dir ++ q) with
  | none => rfl
  | some n => simp [Option.filter, stays, hpre, hne]

/-- The name of an entry of a directory is the last name of its location. -/
theorem nameIn_eq_some {dir p : Location} {c : String} :
    nameIn dir p = some c ↔ p = dir ++ [c] := by
  rw [nameIn]
  constructor
  · intro h
    split at h
    · rename_i hdir
      rw [← hdir, List.dropLast_append_getLast? c h]
    · simp at h
  · rintro rfl
    simp

/-- A directory lists the names of what is directly in it. -/
theorem mem_readDir {fs : Fs} {path : String} {dir : Location}
    (hdir : fs.resolveDir path = some dir) :
    ∃ names, fs.readDir path = some names ∧
      ∀ c, c ∈ names ↔ (fs.entries.lookup (dir ++ [c])).isSome = true := by
  refine ⟨_, by rw [readDir, hdir]; rfl, fun c => ?_⟩
  rw [List.mem_filterMap, Option.isSome_iff_exists]
  constructor
  · rintro ⟨⟨p, n⟩, he, hname⟩
    obtain rfl := nameIn_eq_some.mp hname
    exact ⟨n, HashMap.mem_toPairs_iff.mp he⟩
  · rintro ⟨n, hn⟩
    exact ⟨(dir ++ [c], n), HashMap.mem_toPairs_iff.mpr hn, nameIn_eq_some.mpr rfl⟩

/-- A directory lists names only, never `.` or `..`. -/
theorem isFileName_of_mem_readDir {fs : Fs} {path c : String} {names : List String}
    (h : fs.readDir path = some names) (hc : c ∈ names) : isFileName c = true := by
  obtain ⟨dir, hdir, -⟩ := Option.map_eq_some_iff.mp h
  obtain ⟨names', hread, hmem⟩ := mem_readDir hdir
  obtain rfl : names = names' := by simpa [h] using hread
  exact fs.names dir c ((hmem c).mp hc)

/-- Plain components are followed as they stand. -/
theorem walk_plain {fs : Fs} {cur p : Location} {cs : List String}
    (hcs : ∀ c ∈ cs, isTrivial c = true ∨ isFileName c = true) (h : fs.walk cur cs = some p) :
    p = cur ++ cs.filter fun c => !isTrivial c := by
  induction cs generalizing cur with
  | nil =>
    obtain rfl : cur = p := by simpa [walk] using h
    simp
  | cons c cs ih =>
    have htail := fun c' hc' => hcs c' (List.mem_cons_of_mem c hc')
    rw [walk] at h
    split_ifs at h with hdir htriv hup
    · rw [ih htail h, List.filter_cons_of_neg (by simp [htriv])]
    · subst hup
      rcases hcs ".." (by simp) with hbad | hbad <;> simp [isTrivial, isFileName] at hbad
    · rw [ih htail h, List.filter_cons_of_pos (by simpa using htriv), List.append_assoc,
        List.singleton_append]

/-- A path of plain components leads to their list. -/
theorem resolve_plain {fs : Fs} {path : String} {p : Location}
    (hplain : ∀ c ∈ splitChar '/' path, isTrivial c = true ∨ isFileName c = true)
    (h : fs.resolve path = some p) : p = components path := by
  have hwalk := walk_plain hplain h
  simpa [components] using hwalk

/-- Whatever exists lies in directories, all the way up. -/
theorem isDir_of_below {fs : Fs} {p q : Location} (hq : q ≠ [])
    (h : (fs.entries.lookup (p ++ q)).isSome = true) : fs.isDir p = true := by
  -- from the entry up: its directory exists, and so on
  induction q using List.reverseRecOn with
  | nil => exact absurd rfl hq
  | append_singleton q c ih =>
    rw [← List.append_assoc] at h
    rcases fs.closed (p ++ q) c h with hnil | hdir
    · simp [isDir, (List.append_eq_nil_iff.mp hnil).1]
    · by_cases hq' : q = []
      · subst hq'
        rw [List.append_nil] at hdir
        simp [isDir, hdir]
      · exact ih hq' (by simp [hdir])

/-- Every directory lies in directories. -/
theorem isDir_of_append {fs : Fs} {p q : Location} (h : fs.isDir (p ++ q) = true) :
    fs.isDir p = true := by
  by_cases hq : q = []
  · simpa [hq] using h
  · have hdir : fs.entries.lookup (p ++ q) = some .dir := by simpa [isDir, hq] using h
    exact isDir_of_below hq (by simp [hdir])

/-- Plain components that make up a directory can be followed. -/
theorem walk_isDir {fs : Fs} {cur : Location} {cs : List String}
    (hcs : ∀ c ∈ cs, isTrivial c = true ∨ isFileName c = true)
    (h : fs.isDir (cur ++ cs.filter fun c => !isTrivial c) = true) :
    (fs.walk cur cs).isSome = true := by
  induction cs generalizing cur with
  | nil => rfl
  | cons c cs ih =>
    have htail := fun c' hc' => hcs c' (List.mem_cons_of_mem c hc')
    rw [walk, isDir_of_append h, Bool.not_true, if_neg (by simp)]
    split_ifs with htriv hup
    · exact ih htail (by simpa [htriv] using h)
    · subst hup
      rcases hcs ".." (by simp) with hbad | hbad <;> simp [isTrivial, isFileName] at hbad
    · exact ih htail (by simpa [htriv] using h)

/-- A path of plain components that make up a directory leads to it. -/
theorem resolveDir_plain {fs : Fs} {path : String}
    (hplain : ∀ c ∈ splitChar '/' path, isTrivial c = true ∨ isFileName c = true)
    (h : fs.isDir (components path) = true) : fs.resolveDir path = some (components path) := by
  obtain ⟨p, hp⟩ := Option.isSome_iff_exists.mp (@walk_isDir fs [] _ hplain h)
  obtain rfl := resolve_plain hplain hp
  exact Option.filter_eq_some_iff.mpr ⟨hp, h⟩

end Fs

end FileSystem
