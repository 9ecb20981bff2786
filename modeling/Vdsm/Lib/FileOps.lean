import Vdsm.Lib.FileSystem

/-!
# File operations

`create_dir_all`, `write`, `read`, `remove_file` and `exists` on the tree of `FileSystem`. Creating a
directory and writing a file may fail on every location, as the `Faults` say; a write that fails may
have left the beginning of the contents. `lookup_writeFile` says what a write
changes, `lookup_createDirAll_of_some` what new directories do not change; `Holds` is what is read.
-/

namespace FileSystem

open Rust

/-- `std::io::Error`, as far as the tree decides it; the rest is the host's. -/
inductive IoError where
  | notFound
  | notADirectory
  | isADirectory
  | alreadyExists
  | invalidInput
  | other (text : String)
deriving DecidableEq, Repr

/-- `Display for std::io::Error`. -/
def IoError.display : IoError → String
  | notFound => "No such file or directory (os error 2)"
  | notADirectory => "Not a directory (os error 20)"
  | isADirectory => "Is a directory (os error 21)"
  | alreadyExists => "File exists (os error 17)"
  | invalidInput => "file name contained an unexpected NUL byte"
  | other text => text

/-- How a write fails: the file cannot be opened, or only its beginning can be written. -/
inductive WriteFault where
  | refused (e : IoError)
  | short (e : IoError) (written : ℕ)

/-- What the host refuses: creating a directory or writing a file at a location. -/
structure Faults where
  mkdir : Location → Option IoError
  write : Location → Option WriteFault

/-- A host that refuses nothing. -/
def Faults.none : Faults := ⟨fun _ => .none, fun _ => .none⟩

namespace Fs

/-- Create or replace what is at a location. -/
def putAt (fs : Fs) (p : Location) (n : Node) : Fs :=
  match p.getLast? with
  | some c => fs.put p.dropLast c n
  | none => fs

/-- Why the components of a path cannot be followed. -/
def walkError (fs : Fs) : Location → List String → IoError
  | _, [] => .notFound
  | cur, c :: cs =>
    if !fs.isDir cur then if fs.isFile cur then .notADirectory else .notFound
    else if isTrivial c then walkError fs cur cs
    else if c = ".." then walkError fs cur.dropLast cs
    else walkError fs (cur ++ [c]) cs

/-- `path.exists()`. -/
def pathExists (fs : Fs) (path : String) : Bool :=
  match fs.resolve path with
  | some p => fs.isDir p || fs.isFile p
  | none => false

/-- `read`. -/
def readFile (fs : Fs) (path : String) : Except IoError (List UInt8) :=
  match fs.resolve path with
  | some p =>
    match fs.entries.lookup p with
    | some (.file contents) => .ok contents
    | some .dir => .error .isADirectory
    | none => .error (if p = [] then .isADirectory else .notFound)
  | none => .error (fs.walkError [] (splitChar '/' path))

/-- `write`: the file is created or emptied, then filled. -/
def writeFile (faults : Faults) (fs : Fs) (path : String) (contents : List UInt8) :
    Except IoError Unit × Fs :=
  if containsChar path '\x00' then (.error .invalidInput, fs)
  else match fs.resolve path with
    | none => (.error (fs.walkError [] (splitChar '/' path)), fs)
    | some p =>
      if fs.isDir p then (.error .isADirectory, fs)
      else match faults.write p with
        | some (.refused e) => (.error e, fs)
        | some (.short e n) => (.error e, fs.putAt p (.file (contents.take n)))
        | none => (.ok (), fs.putAt p (.file contents))

/-- `remove_file`, with its error ignored. -/
def removeFile (fs : Fs) (path : String) : Fs :=
  match fs.resolve path with
  | some p => if fs.isFile p then fs.removeTree p false else fs
  | none => fs

/-- Follow the components from a directory, creating those that are missing. -/
def makeDirs (faults : Faults) (fs : Fs) : Location → List String → Except IoError Unit × Fs
  | _, [] => (.ok (), fs)
  | cur, c :: cs =>
    if isTrivial c then makeDirs faults fs cur cs
    else if c = ".." then makeDirs faults fs cur.dropLast cs
    else match fs.entries.lookup (cur ++ [c]) with
      | some .dir => makeDirs faults fs (cur ++ [c]) cs
      | some (.file _) => (.error (if cs = [] then .alreadyExists else .notADirectory), fs)
      | none =>
        match faults.mkdir (cur ++ [c]) with
        | some e => (.error e, fs)
        | none => makeDirs faults (fs.put cur c .dir) (cur ++ [c]) cs

/-- Is the last component of a path, trailing slashes apart, `.`? -/
def endsInDot (path : String) : Bool :=
  ((splitChar '/' path).filter (· != "")).getLast? == some "."

/-- `create_dir_all`. -/
def createDirAll (faults : Faults) (fs : Fs) (path : String) : Except IoError Unit × Fs :=
  if containsChar path '\x00' then (.error .invalidInput, fs)
  else if endsInDot path ∧ fs.resolveDir path = none then
    -- `mkdir` creates nothing at a path that ends in a dot, only its parents are made
    match fs.makeDirs faults [] (components path).dropLast with
    | (.ok _, fs') => (if (fs'.resolveDir path).isSome then .ok () else .error .notFound, fs')
    | (.error e, fs') => (.error e, fs')
  else fs.makeDirs faults [] (components path)

/-! ## Where a path leads -/

/-- Only directories matter for where a path leads. -/
theorem walk_congr {fs fs' : Fs} (h : ∀ p, fs'.isDir p = fs.isDir p) (cur : Location)
    (cs : List String) : fs'.walk cur cs = fs.walk cur cs := by
  induction cs generalizing cur with
  | nil => rfl
  | cons c cs ih =>
    rw [walk, walk, h, ih, ih, ih]

/-- Where a path leads depends on the directories only. -/
theorem resolve_congr {fs fs' : Fs} (h : ∀ p, fs'.isDir p = fs.isDir p) (path : String) :
    fs'.resolve path = fs.resolve path :=
  walk_congr h [] _

/-- What a directory lies in is a directory. -/
theorem isDir_dropLast {fs : Fs} {p : Location} (h : fs.isDir p = true) :
    fs.isDir p.dropLast = true := by
  rcases List.eq_nil_or_concat p with rfl | ⟨q, c, rfl⟩
  · rfl
  · rw [List.concat_eq_append] at h ⊢
    rw [List.dropLast_concat]
    exact isDir_of_append h

/-- A path that leads from a directory to something else than a directory ends in a name in a
directory. -/
theorem walk_parent {fs : Fs} {cur p : Location} {cs : List String} (hcur : fs.isDir cur = true)
    (h : fs.walk cur cs = some p) (hp : fs.isDir p = false) :
    ∃ dir c, p = dir ++ [c] ∧ fs.isDir dir = true ∧ c ∈ cs ∧ isTrivial c = false ∧ c ≠ ".." := by
  induction cs generalizing cur with
  | nil =>
    obtain rfl : cur = p := by simpa [walk] using h
    simp [hcur] at hp
  | cons c cs ih =>
    rw [walk, hcur, Bool.not_true, if_neg (by simp)] at h
    split_ifs at h with htriv hup
    · obtain ⟨dir, d, hpd, hdir, hmem, hd⟩ := ih hcur h
      exact ⟨dir, d, hpd, hdir, List.mem_cons_of_mem c hmem, hd⟩
    · obtain ⟨dir, d, hpd, hdir, hmem, hd⟩ := ih (isDir_dropLast hcur) h
      exact ⟨dir, d, hpd, hdir, List.mem_cons_of_mem c hmem, hd⟩
    · by_cases hnext : fs.isDir (cur ++ [c]) = true
      · obtain ⟨dir, d, hpd, hdir, hmem, hd⟩ := ih hnext h
        exact ⟨dir, d, hpd, hdir, List.mem_cons_of_mem c hmem, hd⟩
      · -- not a directory, so nothing may follow it
        cases cs with
        | nil =>
          obtain rfl : cur ++ [c] = p := by simpa [walk] using h
          exact ⟨cur, c, rfl, hcur, by simp, by simpa using htriv, hup⟩
        | cons d ds =>
          rw [walk, Bool.eq_false_iff.mpr hnext] at h
          simp at h

/-- A part of a path that is no dot entry is the name of an entry. -/
theorem isFileName_of_mem_splitChar {path c : String} (hc : c ∈ splitChar '/' path)
    (hnul : containsChar path '\x00' = false) (htriv : isTrivial c = false) (hup : c ≠ "..") :
    isFileName c = true := by
  have hslash : containsChar c '/' = false := by
    obtain ⟨seg, hseg, rfl⟩ := List.mem_map.mp hc
    have hno := not_mem_of_mem_splitOn hseg
    simpa [containsChar] using hno
  have hcomp : c ∈ components path := List.mem_filter.mpr ⟨hc, by simpa using htriv⟩
  have hpart := infix_of_mem_components hcomp
  have hnul' : containsChar c '\x00' = false := by
    simp only [containsChar, List.contains_eq_mem, decide_eq_false_iff_not] at hnul ⊢
    exact fun hm => hnul (hpart.subset hm)
  simp [isFileName, htriv, hup, hslash, hnul']

/-- Where a file may be written: a name in a directory. -/
theorem resolve_parent {fs : Fs} {path : String} {p : Location}
    (hnul : containsChar path '\x00' = false) (h : fs.resolve path = some p)
    (hp : fs.isDir p = false) :
    ∃ dir c, p = dir ++ [c] ∧ fs.isDir dir = true ∧ isFileName c = true := by
  obtain ⟨dir, c, hpd, hdir, hmem, htriv, hup⟩ := walk_parent rfl h hp
  exact ⟨dir, c, hpd, hdir, isFileName_of_mem_splitChar hmem hnul htriv hup⟩

/-- Walking along two lists of names, one after the other. -/
theorem walk_append (fs : Fs) (cur : Location) (cs ds : List String) :
    fs.walk cur (cs ++ ds) = (fs.walk cur cs).bind fun p => fs.walk p ds := by
  induction cs generalizing cur with
  | nil => rfl
  | cons c cs ih =>
    rw [List.cons_append, walk, walk]
    split_ifs
    · rfl
    · exact ih cur
    · exact ih cur.dropLast
    · exact ih (cur ++ [c])

/-- A suffix with more in it than slashes and dots makes the last component of a path a name. -/
theorem resolve_append {sfx : String} (fs : Fs) (path : String) (hsfx : isNameSuffix sfx = true) :
    fs.resolve (path ++ sfx) = (fs.walk [] (splitChar '/' path).dropLast).bind fun dir =>
      if fs.isDir dir then some (dir ++ [(splitChar '/' path).getLastD "" ++ sfx]) else none := by
  rw [resolve, splitChar_append_of_not_mem path (not_mem_slash_of_isNameSuffix hsfx), walk_append]
  congr 1
  funext dir
  obtain ⟨htriv, hup⟩ := isNameSuffix_append hsfx ((splitChar '/' path).getLastD "")
  simp only [walk, htriv, if_neg hup]
  split_ifs <;> simp_all

/-- Different suffixes lead to different places. -/
theorem resolve_append_ne {sfx sfx' : String} {fs : Fs} {path : String} {p : Location}
    (hsfx : isNameSuffix sfx = true) (hsfx' : isNameSuffix sfx' = true) (hne : sfx ≠ sfx')
    (h : fs.resolve (path ++ sfx) = some p) : fs.resolve (path ++ sfx') ≠ some p := by
  rw [resolve_append fs path hsfx']
  rw [resolve_append fs path hsfx] at h
  intro h'
  cases hw : fs.walk [] (splitChar '/' path).dropLast with
  | none => simp [hw] at h
  | some dir =>
    simp only [hw, Option.bind_some] at h h'
    split_ifs at h h'
    have heq := (Option.some.inj h).trans (Option.some.inj h').symm
    obtain ⟨-, hlast⟩ := List.append_inj' heq rfl
    exact hne (by simpa using hlast)

/-! ## What the operations change -/

/-- An entry put under a name is found there, and every other location keeps its own. -/
theorem lookup_put {fs : Fs} {dir : Location} {c : String} {n : Node} (hdir : fs.isDir dir = true)
    (hc : isFileName c = true) (hn : n = .dir ∨ fs.isDir (dir ++ [c]) = false) (q : Location) :
    (fs.put dir c n).entries.lookup q = if q = dir ++ [c] then some n else fs.entries.lookup q := by
  rw [put, dif_pos ⟨hdir, hc, hn⟩]
  split_ifs with hq
  · subst hq
    exact AList.lookup_insert _
  · exact AList.lookup_insert_ne hq

/-- A file written where no directory is: it is there, and nothing else has changed. -/
theorem lookup_putAt_file {fs : Fs} {path : String} {p : Location} {contents : List UInt8}
    (hnul : containsChar path '\x00' = false) (h : fs.resolve path = some p)
    (hp : fs.isDir p = false) (q : Location) :
    (fs.putAt p (.file contents)).entries.lookup q
      = if q = p then some (.file contents) else fs.entries.lookup q := by
  obtain ⟨dir, c, rfl, hdir, hc⟩ := resolve_parent hnul h hp
  simp only [putAt, List.getLast?_concat, List.dropLast_concat]
  exact lookup_put hdir hc (.inr hp) q

/-- A write that succeeds puts a file where its path leads. -/
theorem writeFile_eq_ok {faults : Faults} {fs fs' : Fs} {path : String} {contents : List UInt8}
    (h : fs.writeFile faults path contents = (.ok (), fs')) :
    containsChar path '\x00' = false ∧ ∃ p, fs.resolve path = some p ∧ fs.isDir p = false ∧
      fs' = fs.putAt p (.file contents) := by
  rw [writeFile] at h
  split_ifs at h with hnul
  · simp at h
  · split at h
    · simp at h
    · rename_i p hp
      split_ifs at h with hdir
      · simp at h
      · split at h
        · simp at h
        · simp at h
        · obtain ⟨-, rfl⟩ := Prod.mk.inj h
          exact ⟨by simpa using hnul, p, hp, by simpa using hdir, rfl⟩

/-- It leaves the contents there, and nothing else changes. -/
theorem lookup_writeFile {faults : Faults} {fs fs' : Fs} {path : String} {contents : List UInt8}
    (h : fs.writeFile faults path contents = (.ok (), fs')) :
    ∃ p, fs.resolve path = some p ∧ fs.isDir p = false ∧
      ∀ q, fs'.entries.lookup q = if q = p then some (.file contents) else fs.entries.lookup q := by
  obtain ⟨hnul, p, hp, hdir, rfl⟩ := writeFile_eq_ok h
  exact ⟨p, hp, hdir, lookup_putAt_file hnul hp hdir⟩

/-- Whatever its outcome, a write changes at most the file its path leads to. -/
theorem lookup_writeFile_ne {faults : Faults} {fs : Fs} {path : String} {contents : List UInt8}
    {q : Location} (hq : fs.resolve path ≠ some q) :
    (fs.writeFile faults path contents).2.entries.lookup q = fs.entries.lookup q := by
  rw [writeFile]
  split_ifs with hnul
  · rfl
  · split
    · rfl
    · rename_i p hp
      have hqp : q ≠ p := by
        rintro rfl
        exact hq hp
      split_ifs with hdir
      · rfl
      · have hput : ∀ c, (fs.putAt p (.file c)).entries.lookup q = fs.entries.lookup q := by
          intro c
          rw [lookup_putAt_file (by simpa using hnul) hp (by simpa using hdir), if_neg hqp]
        split
        · rfl
        · exact hput _
        · exact hput _

/-- Replacing a file, or putting one where nothing was, changes no directory. -/
theorem isDir_putAt_file {fs : Fs} {path : String} {p : Location} {contents : List UInt8}
    (hnul : containsChar path '\x00' = false) (h : fs.resolve path = some p)
    (hp : fs.isDir p = false) (q : Location) :
    (fs.putAt p (.file contents)).isDir q = fs.isDir q := by
  by_cases hq : q = p
  · subst hq
    have hne : q ≠ [] := by
      rintro rfl
      simp [isDir] at hp
    rw [hp]
    simp [isDir, lookup_putAt_file hnul h hp, hne]
  · rw [isDir, isDir, lookup_putAt_file hnul h hp, if_neg hq]

/-- A write changes no directory. -/
theorem isDir_writeFile (faults : Faults) (fs : Fs) (path : String) (contents : List UInt8)
    (q : Location) : (fs.writeFile faults path contents).2.isDir q = fs.isDir q := by
  rw [writeFile]
  split_ifs with hnul
  · rfl
  · split
    · rfl
    · rename_i p hp
      split_ifs with hdir
      · rfl
      · split
        · rfl
        · exact isDir_putAt_file (by simpa using hnul) hp (by simpa using hdir) q
        · exact isDir_putAt_file (by simpa using hnul) hp (by simpa using hdir) q

/-- Writes do not change where paths lead. -/
theorem resolve_writeFile (faults : Faults) (fs : Fs) (path : String) (contents : List UInt8)
    (other : String) :
    (fs.writeFile faults path contents).2.resolve other = fs.resolve other :=
  resolve_congr (isDir_writeFile faults fs path contents) other

/-- What is there stays when something is put where nothing was. -/
theorem lookup_put_of_some {fs : Fs} {dir q : Location} {c : String} {n m : Node}
    (hnew : fs.entries.lookup (dir ++ [c]) = none) (hq : fs.entries.lookup q = some m) :
    (fs.put dir c n).entries.lookup q = some m := by
  have hne : q ≠ dir ++ [c] := by
    rintro rfl
    simp [hnew] at hq
  rw [put]
  split_ifs
  · rw [AList.lookup_insert_ne hne, hq]
  · exact hq

/-- Creating directories changes nothing that is there. -/
theorem lookup_makeDirs_of_some {faults : Faults} {fs : Fs} {cur q : Location} {cs : List String}
    {m : Node} (hq : fs.entries.lookup q = some m) :
    (fs.makeDirs faults cur cs).2.entries.lookup q = some m := by
  induction cs generalizing fs cur with
  | nil => exact hq
  | cons c cs ih =>
    rw [makeDirs]
    split
    · exact ih hq
    · split
      · exact ih hq
      · split
        · exact ih hq
        · exact hq
        · rename_i hnew
          split
          · exact hq
          · exact ih (lookup_put_of_some hnew hq)

/-- `create_dir_all` keeps every entry there is. -/
theorem lookup_createDirAll_of_some {faults : Faults} {fs : Fs} {path : String} {q : Location}
    {m : Node} (hq : fs.entries.lookup q = some m) :
    (fs.createDirAll faults path).2.entries.lookup q = some m := by
  rw [createDirAll]
  split_ifs
  · exact hq
  · have hmade : (fs.makeDirs faults [] (components path).dropLast).2.entries.lookup q = some m :=
      lookup_makeDirs_of_some hq
    split
    · rename_i heq
      rwa [heq] at hmade
    · rename_i heq
      rwa [heq] at hmade
  · exact lookup_makeDirs_of_some hq

/-- The file where a path leads holds these contents. -/
def Holds (fs : Fs) (path : String) (contents : List UInt8) : Prop :=
  ∃ p, fs.resolve path = some p ∧ fs.entries.lookup p = some (.file contents)

/-- What is read is what the file holds. -/
theorem Holds.readFile {fs : Fs} {path : String} {contents : List UInt8}
    (h : fs.Holds path contents) : fs.readFile path = .ok contents := by
  obtain ⟨p, hp, hentry⟩ := h
  simp only [Fs.readFile, hp, hentry]

/-- Another path to the same place. -/
theorem Holds.of_resolve_eq {fs : Fs} {path other : String} {contents : List UInt8}
    (h : fs.Holds path contents) (hother : fs.resolve other = fs.resolve path) :
    fs.Holds other contents := by
  obtain ⟨p, hp, hentry⟩ := h
  exact ⟨p, hother.trans hp, hentry⟩

/-- After a successful write the path holds what was written. -/
theorem holds_writeFile {faults : Faults} {fs fs' : Fs} {path : String} {contents : List UInt8}
    (h : fs.writeFile faults path contents = (.ok (), fs')) : fs'.Holds path contents := by
  obtain ⟨p, hp, -, hlookup⟩ := lookup_writeFile h
  have hres := resolve_writeFile faults fs path contents path
  rw [h] at hres
  exact ⟨p, hres.trans hp, by rw [hlookup, if_pos rfl]⟩

/-- A write to another place, as two suffixes of one path. -/
theorem Holds.writeFile {faults : Faults} {fs : Fs} {path sfx sfx' : String}
    {contents other : List UInt8} (h : fs.Holds (path ++ sfx) contents)
    (hsfx : isNameSuffix sfx = true) (hsfx' : isNameSuffix sfx' = true) (hne : sfx ≠ sfx') :
    (fs.writeFile faults (path ++ sfx') other).2.Holds (path ++ sfx) contents := by
  obtain ⟨p, hp, hentry⟩ := h
  refine ⟨p, ?_, ?_⟩
  · rw [resolve_writeFile, hp]
  · rw [lookup_writeFile_ne (resolve_append_ne hsfx hsfx' hne hp), hentry]

/-- A file that is removed is gone, and nothing else is. -/
theorem lookup_removeFile (fs : Fs) (path : String) (q : Location) :
    (fs.removeFile path).entries.lookup q
      = if fs.resolve path = some q ∧ fs.isFile q = true then none else fs.entries.lookup q := by
  rw [removeFile]
  cases hp : fs.resolve path with
  | none => simp
  | some p =>
    by_cases hfile : fs.isFile p = true
    · simp only [if_pos hfile, Option.some.injEq]
      obtain ⟨contents, hentry⟩ := isFile_iff.mp hfile
      have hpne : p ≠ [] := by
        rintro rfl
        simp [fs.root] at hentry
      by_cases hq : p = q
      · subst hq
        rw [if_pos ⟨rfl, hfile⟩, lookup_removeTree, hentry]
        simp [Option.filter, stays]
      · rw [if_neg (fun h => hq h.1), lookup_removeTree]
        -- a file has nothing below it
        have hbelow : (fs.entries.lookup q).isSome = true → ¬ p <+: q := by
          rintro hsome ⟨r, rfl⟩
          have hr : r ≠ [] := by
            rintro rfl
            simp at hq
          have hdir := isDir_of_below hr hsome
          simp [isDir, hpne, hentry] at hdir
        cases hl : fs.entries.lookup q with
        | none => rfl
        | some n =>
          have hno := hbelow (by simp [hl])
          rw [← List.isPrefixOf_iff_prefix] at hno
          simp [Option.filter, stays, hno]
    · simp only [if_neg hfile, Option.some.injEq]
      rw [if_neg]
      rintro ⟨rfl, hf⟩
      exact hfile hf

/-! ## Two trees that differ in one file -/

/-- The trees are the same but for the file where the path leads. -/
structure DifferAt (path : String) (contents contents' : List UInt8) (p : Location) (fs fs' : Fs) :
    Prop where
  resolve_eq : fs.resolve path = some p
  here : fs.entries.lookup p = some (.file contents)
  there : fs'.entries.lookup p = some (.file contents')
  keys : fs'.entries.keys = fs.entries.keys
  elsewhere : ∀ q, q ≠ p → fs'.entries.lookup q = fs.entries.lookup q

namespace DifferAt

variable {path : String} {contents contents' : List UInt8} {p : Location} {fs fs' : Fs}

/-- The two file systems have the same directories. -/
theorem isDir_eq (h : DifferAt path contents contents' p fs fs') (q : Location) :
    fs'.isDir q = fs.isDir q := by
  by_cases hq : q = p
  · subst hq
    simp only [isDir, h.here, h.there]
    rfl
  · rw [isDir, isDir, h.elsewhere q hq]

theorem isFile_eq (h : DifferAt path contents contents' p fs fs') (q : Location) :
    fs'.isFile q = fs.isFile q := by
  by_cases hq : q = p
  · subst hq
    simp [isFile, h.here, h.there]
  · rw [isFile, isFile, h.elsewhere q hq]

/-- A path leads to the same location in both. -/
theorem resolve_other (h : DifferAt path contents contents' p fs fs') (other : String) :
    fs'.resolve other = fs.resolve other :=
  resolve_congr h.isDir_eq other

/-- And to the same directory. -/
theorem resolveDir_other (h : DifferAt path contents contents' p fs fs') (other : String) :
    fs'.resolveDir other = fs.resolveDir other := by
  rw [resolveDir, resolveDir, h.resolve_other, funext h.isDir_eq]

/-- Each directory lists the same names in both. -/
theorem readDir_other (h : DifferAt path contents contents' p fs fs') (other : String) :
    fs'.readDir other = fs.readDir other := by
  have hnames : ∀ (m : HashMap Location Node) (dir : Location),
      (m.toPairs.filterMap fun e => nameIn dir e.1) = m.keys.filterMap (nameIn dir) := by
    intro m dir
    simp only [HashMap.toPairs, AList.keys, List.keys, List.filterMap_map]
    rfl
  simp only [readDir, h.resolveDir_other, hnames, h.keys]

/-- Every other path reads the same in both. -/
theorem readFile_other (h : DifferAt path contents contents' p fs fs') {other : String}
    (hne : fs.resolve other ≠ some p) : fs'.readFile other = fs.readFile other := by
  have herror : ∀ cur cs, fs'.walkError cur cs = fs.walkError cur cs := by
    intro cur cs
    induction cs generalizing cur with
    | nil => rfl
    | cons c cs ih => rw [walkError, walkError, h.isDir_eq, h.isFile_eq, ih, ih, ih]
  rw [readFile, readFile, h.resolve_other]
  cases hq : fs.resolve other with
  | none => simp only [herror]
  | some q =>
    have hqp : q ≠ p := by
      rintro rfl
      exact hne hq
    simp only [h.elsewhere q hqp]

end DifferAt

/-- Files of different contents at one location leave the same locations in use. -/
theorem keys_putAt_file {fs fs' : Fs} (hkeys : fs'.entries.keys = fs.entries.keys)
    (hdir : ∀ q, fs'.isDir q = fs.isDir q) (p : Location) (c c' : List UInt8) :
    (fs'.putAt p (.file c')).entries.keys = (fs.putAt p (.file c)).entries.keys := by
  unfold putAt
  split
  · rename_i name _
    by_cases h : fs.isDir p.dropLast = true ∧ isFileName name = true ∧
        fs.isDir (p.dropLast ++ [name]) = false
    · rw [put, put, dif_pos ⟨by rw [hdir, h.1], h.2.1, .inr (by rw [hdir, h.2.2])⟩,
        dif_pos ⟨h.1, h.2.1, .inr h.2.2⟩, AList.keys_insert, AList.keys_insert, hkeys]
    · rw [put, put, dif_neg, dif_neg, hkeys]
      · rintro ⟨hparent, hname, hkind⟩
        exact h ⟨hparent, hname, by simpa using hkind⟩
      · rintro ⟨hparent, hname, hkind⟩
        exact h ⟨by rwa [hdir] at hparent, hname, by simpa [hdir] using hkind⟩
  · exact hkeys

/-- Two contents written to one file. -/
theorem differAt_writeFile {faults : Faults} {fs fs₁ fs₂ : Fs} {path : String}
    {contents contents' : List UInt8} (h₁ : fs.writeFile faults path contents = (.ok (), fs₁))
    (h₂ : fs.writeFile faults path contents' = (.ok (), fs₂)) :
    ∃ p, DifferAt path contents contents' p fs₁ fs₂ := by
  obtain ⟨hnul, p, hp, hdir, hput₁⟩ := writeFile_eq_ok h₁
  obtain ⟨-, p', hp', -, hput₂⟩ := writeFile_eq_ok h₂
  obtain rfl : p = p' := by simpa [hp] using hp'
  have hres := resolve_writeFile faults fs path contents path
  rw [h₁] at hres
  subst hput₁ hput₂
  refine ⟨p, hres.trans hp, ?_, ?_, keys_putAt_file rfl (fun _ => rfl) p _ _, ?_⟩
  · rw [lookup_putAt_file hnul hp hdir, if_pos rfl]
  · rw [lookup_putAt_file hnul hp hdir, if_pos rfl]
  · intro q hq
    rw [lookup_putAt_file hnul hp hdir, lookup_putAt_file hnul hp hdir, if_neg hq, if_neg hq]

/-- The same write on both has the same target and leaves the same there. -/
theorem DifferAt.writeFile_rest {fs fs' : Fs} {path : String} {p : Location}
    {contents contents' : List UInt8} (h : DifferAt path contents contents' p fs fs')
    (faults : Faults) (other : String) (written : List UInt8) :
    (fs'.writeFile faults other written).2.entries.keys
        = (fs.writeFile faults other written).2.entries.keys ∧
      ∀ r, r ≠ p → (fs'.writeFile faults other written).2.entries.lookup r
        = (fs.writeFile faults other written).2.entries.lookup r := by
  rw [Fs.writeFile, Fs.writeFile, h.resolve_other]
  split_ifs with hnul
  · exact ⟨h.keys, h.elsewhere⟩
  · have hnul : containsChar other '\x00' = false := by simpa using hnul
    cases hq : fs.resolve other with
    | none => exact ⟨h.keys, h.elsewhere⟩
    | some q =>
      have hq' : fs'.resolve other = some q := by rw [h.resolve_other, hq]
      simp only [h.isDir_eq]
      split_ifs with hdir
      · exact ⟨h.keys, h.elsewhere⟩
      · have hdir : fs.isDir q = false := by simpa using hdir
        have hdir' : fs'.isDir q = false := by rw [h.isDir_eq, hdir]
        have hput : ∀ c, (fs'.putAt q (.file c)).entries.keys = (fs.putAt q (.file c)).entries.keys ∧
            ∀ r, r ≠ p → (fs'.putAt q (.file c)).entries.lookup r
              = (fs.putAt q (.file c)).entries.lookup r := by
          intro c
          refine ⟨keys_putAt_file h.keys h.isDir_eq q c c, fun r hr => ?_⟩
          rw [lookup_putAt_file hnul hq hdir, lookup_putAt_file hnul hq' hdir', h.elsewhere r hr]
        split
        · exact ⟨h.keys, h.elsewhere⟩
        · exact hput _
        · exact hput _

/-- The same write elsewhere, on both. -/
theorem DifferAt.writeFile {faults : Faults} {fs fs' : Fs} {path other : String} {p : Location}
    {contents contents' written : List UInt8} (h : DifferAt path contents contents' p fs fs')
    (hne : fs.resolve other ≠ some p) :
    DifferAt path contents contents' p (fs.writeFile faults other written).2
      (fs'.writeFile faults other written).2 := by
  obtain ⟨hkeys, helsewhere⟩ := h.writeFile_rest faults other written
  refine ⟨?_, ?_, ?_, hkeys, helsewhere⟩
  · rw [resolve_writeFile, h.resolve_eq]
  · rw [lookup_writeFile_ne hne, h.here]
  · rw [lookup_writeFile_ne (by rwa [h.resolve_other]), h.there]

end Fs

end FileSystem
