import Vdsm.Lib.FileOps
import Vdsm.Lib.Normal

/-!
# What files hold

`fileAt` is what the file at a location holds. Without links a path leads to its cleaned location, if
anywhere, so that a location says where a path will lead once the directories on the way are there.
Making directories changes no file, writing changes at most the one its path leads to.
-/

namespace FileSystem.Fs

open Rust

/-- What the file at a location holds. -/
def fileAt (fs : Fs) (q : Location) : Option (List UInt8) :=
  match fs.entries.lookup q with
  | some (.file contents) => some contents
  | _ => none

/-- What a location holds depends on its entry only. -/
theorem fileAt_congr {fs fs' : Fs} {q : Location} (h : fs'.entries.lookup q = fs.entries.lookup q) :
    fs'.fileAt q = fs.fileAt q := by
  rw [fileAt, fileAt, h]

/-- A walk that succeeds ends where the names alone lead. -/
theorem walk_eq_some {fs : Fs} {cur p : Location} {cs : List String} (h : fs.walk cur cs = some p) :
    p = Rust.walk cur (cs.filter fun c => !isTrivial c) := by
  induction cs generalizing cur with
  | nil => exact (Option.some.inj h).symm
  | cons c cs ih =>
    rw [walk] at h
    split_ifs at h with hdir htriv hup
    · rw [List.filter_cons_of_neg (by simp [htriv])]
      exact ih h
    · rw [List.filter_cons_of_pos (by simpa using htriv), Rust.walk, List.foldl_cons, walkStep,
        if_pos hup]
      exact ih h
    · rw [List.filter_cons_of_pos (by simpa using htriv), Rust.walk, List.foldl_cons, walkStep,
        if_neg hup]
      exact ih h

/-- A path leads to its cleaned location. -/
theorem resolve_eq_cleanPath {fs : Fs} {path : String} {p : Location} (h : fs.resolve path = some p) :
    p = cleanPath path :=
  walk_eq_some h

/-! ## Directories -/

/-- A new directory takes the place of no file. -/
theorem fileAt_put_dir {fs : Fs} {dir : Location} {c : String}
    (hnew : fs.entries.lookup (dir ++ [c]) = none) (q : Location) :
    (fs.put dir c .dir).fileAt q = fs.fileAt q := by
  by_cases h : fs.isDir dir = true ∧ isFileName c = true
  · rw [fileAt, lookup_put h.1 h.2 (.inl rfl), fileAt]
    split_ifs with hq
    · rw [hq, hnew]
    · rfl
  · rw [put, dif_neg (fun h' => h ⟨h'.1, h'.2.1⟩)]

/-- Making directories changes no file. -/
theorem fileAt_makeDirs (faults : Faults) (fs : Fs) (cur : Location) (cs : List String) (q : Location) :
    (fs.makeDirs faults cur cs).2.fileAt q = fs.fileAt q := by
  induction cs generalizing fs cur with
  | nil => rfl
  | cons c cs ih =>
    rw [makeDirs]
    split
    · exact ih fs cur
    · split
      · exact ih fs cur.dropLast
      · split
        · exact ih fs (cur ++ [c])
        · rfl
        · rename_i hnew
          split
          · rfl
          · rw [ih, fileAt_put_dir hnew]

/-- Making directories changes no file. -/
theorem fileAt_createDirAll (faults : Faults) (fs : Fs) (path : String) (q : Location) :
    (fs.createDirAll faults path).2.fileAt q = fs.fileAt q := by
  rw [createDirAll]
  split_ifs
  · rfl
  · have hmade := fileAt_makeDirs faults fs [] (components path).dropLast q
    split
    · rename_i heq
      rwa [heq] at hmade
    · rename_i heq
      rwa [heq] at hmade
  · exact fileAt_makeDirs faults fs [] (components path) q

/-! ## Files -/

/-- Writing a file changes no other one. -/
theorem fileAt_writeFile_ne {faults : Faults} {fs : Fs} {path : String} {contents : List UInt8}
    {q : Location} (hq : q ≠ cleanPath path) :
    (fs.writeFile faults path contents).2.fileAt q = fs.fileAt q :=
  fileAt_congr (lookup_writeFile_ne fun h => hq (resolve_eq_cleanPath h))

/-- Nor does putting a node at a location. -/
theorem fileAt_putAt_ne {fs : Fs} {p q : Location} {n : Node} (hq : q ≠ p) :
    (fs.putAt p n).fileAt q = fs.fileAt q := by
  rcases List.eq_nil_or_concat p with rfl | ⟨dir, c, rfl⟩
  · rfl
  · rw [List.concat_eq_append] at hq
    simp only [putAt, List.concat_eq_append, List.getLast?_concat, List.dropLast_concat]
    apply fileAt_congr
    rw [put]
    split_ifs
    · exact AList.lookup_insert_ne hq
    · rfl

end FileSystem.Fs
