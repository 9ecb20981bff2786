import Vdsm.Lib.FileOps
import Vdsm.Lib.ReadLine
import Vdsm.Supervdsm.Exec

/-!
# The identity of a host (`vdsm-tool/src/main.rs`, `vdsm-host/src/sysinfo.rs`)

`vdsm-tool vdsm-id` prints the host's id and, the first time, writes it to `/etc/vdsm/vdsm.id`; the
daemon reports `vdsm_id` in the host's capabilities. Both prefer the file, and fall back to what the
hardware says at the moment, each in its own way.

`host_id_stable` says when the two agree for good: exactly when the file holds the id. From then on no
run of either that can read the file changes what is reported, whatever becomes of the hardware. One
that cannot read it takes the hardware's word, and the tool writes that down.
-/

namespace Vdsm.Host

open Rust FileSystem ReadLine

/-- `VDSM_ID_PATH`. -/
def vdsmIdPath : String := "/etc/vdsm/vdsm.id"

/-- The hardware, as a process finds it: the kernel's files, `none` if they cannot be read as a string,
and `dmidecode -s system-uuid`. -/
structure Hardware where
  productUuid : Option String
  systemId : Option String
  dmidecode : Except String Supervdsm.Output

/-- `fs::read_to_string`. Opening and reading the file works or fails. -/
def readToString (reads : Bool) (fs : Fs) (path : String) : Option String :=
  if reads then (fs.readFile path).toOption.bind fun bytes => (fromUtf8 bytes).toOption else none

/-- The trimmed text, if it is not blank. -/
def nonBlank (s : String) : Option String := if trim s = "" then none else some (trim s)

/-- What the file says, if it can be read. -/
def idFile (reads : Bool) (fs : Fs) : Option String := (readToString reads fs vdsmIdPath).bind nonBlank

/-- `read_system_uuid`. -/
def readSystemUuid (hw : Hardware) : Except String String :=
  match (hw.productUuid.bind nonBlank).or (hw.systemId.bind nonBlank) with
  | some id => .ok id
  | none =>
    match hw.dmidecode with
    | .error e => .error e
    | .ok out =>
      if !out.success then
        .error s!"dmidecode -s system-uuid failed: {fromUtf8Lossy out.stderr}"
      else
        let s := trim (fromUtf8Lossy out.stdout)
        if s = "" then .error "dmidecode returned an empty system-uuid" else .ok s

/-- `ensure_vdsm_id`: the id, and the file system it leaves. Reading the file, creating the directory and
writing the file may fail; an id is returned anyway. -/
def ensureVdsmId (hw : Hardware) (reads : Bool) (faults : Faults) (fs : Fs) :
    Except String String × Fs :=
  match idFile reads fs with
  | some id => (.ok id, fs)
  | none =>
    match readSystemUuid hw with
    | .error e => (.error e, fs)
    | .ok id =>
      let (_, fs) := fs.createDirAll faults "/etc/vdsm"
      let (_, fs) := fs.writeFile faults vdsmIdPath (asBytes (id ++ "\n"))
      (.ok id, fs)

/-- `sysinfo::vdsm_id`. -/
def vdsmId (hw : Hardware) (reads : Bool) (fs : Fs) : String :=
  ((idFile reads fs).or (hw.productUuid.bind nonBlank)).getD "00000000-0000-0000-0000-000000000000"

/-! ## Runs -/

/-- A run of the tool, or a report of the daemon, each with the hardware as it finds it, and whether it
can read the file. -/
inductive IdEvent where
  | tool (hw : Hardware) (reads : Bool) (faults : Faults)
  | daemon (hw : Hardware) (reads : Bool)

/-- It can. -/
def IdEvent.reads : IdEvent → Bool
  | tool _ reads _ => reads
  | daemon _ reads => reads

/-- What the event reports as the host's id. -/
def report (fs : Fs) : IdEvent → Except String String
  | .tool hw reads faults => (ensureVdsmId hw reads faults fs).1
  | .daemon hw reads => .ok (vdsmId hw reads fs)

/-- The file system after an event. -/
def idStep (fs : Fs) : IdEvent → Fs
  | .tool hw reads faults => (ensureVdsmId hw reads faults fs).2
  | .daemon .. => fs

/-- The file system after a run. -/
def afterEvents (fs : Fs) (events : List IdEvent) : Fs := events.foldl idStep fs

/-- The file is written: it was read, or the write succeeds. -/
def Persists (hw : Hardware) (reads : Bool) (faults : Faults) (fs : Fs) : Prop :=
  idFile reads fs ≠ none ∨ ∀ id, readSystemUuid hw = .ok id →
    ((fs.createDirAll faults "/etc/vdsm").2.writeFile faults vdsmIdPath (asBytes (id ++ "\n"))).1
      = .ok ()

/-! ## Trimmed texts -/

/-- Trimmed text does not begin with a blank. -/
theorem head?_trim {s : String} : ∀ c ∈ (trim s).toList.head?, isWhitespace c = false := by
  intro c hc
  rw [trim, String.toList_ofList, trimChars] at hc
  -- what is dropped at the end leaves the front as it is
  have hpre : ((s.toList.dropWhile isWhitespace).reverse.dropWhile isWhitespace).reverse
      <+: s.toList.dropWhile isWhitespace := by
    rw [← List.reverse_suffix, List.reverse_reverse]
    exact List.dropWhile_suffix _
  obtain ⟨rest, hrest⟩ := hpre
  have hnot := List.head?_dropWhile_not isWhitespace s.toList
  rw [← hrest, List.head?_append, Option.mem_def.mp hc] at hnot
  exact hnot

/-- Nor does it end with one. -/
theorem getLast?_trim {s : String} : ∀ c ∈ (trim s).toList.getLast?, isWhitespace c = false := by
  intro c hc
  rw [trim, String.toList_ofList, trimChars, List.getLast?_reverse] at hc
  have hnot := List.head?_dropWhile_not isWhitespace (s.toList.dropWhile isWhitespace).reverse
  rw [Option.mem_def.mp hc] at hnot
  exact hnot

/-- A trimmed text is read back from the line it is written as. -/
theorem nonBlank_line {s id : String} (h : nonBlank s = some id) : nonBlank (id ++ "\n") = some id := by
  rw [nonBlank] at h
  split_ifs at h with hne
  obtain rfl := Option.some.inj h
  rw [nonBlank, trim_line head?_trim getLast?_trim, if_neg hne]

/-! ## Stability -/

/-- What the firmware gives as its id has been trimmed and is not blank. -/
theorem nonBlank_of_readSystemUuid {hw : Hardware} {id : String} (h : readSystemUuid hw = .ok id) :
    ∃ s, nonBlank s = some id := by
  rw [readSystemUuid] at h
  split at h
  · rename_i found hfound
    obtain rfl : found = id := Except.ok.inj h
    rcases Option.or_eq_some_iff.mp hfound with hp | ⟨-, hp⟩
    · obtain ⟨s, -, hs⟩ := Option.bind_eq_some_iff.mp hp
      exact ⟨s, hs⟩
    · obtain ⟨s, -, hs⟩ := Option.bind_eq_some_iff.mp hp
      exact ⟨s, hs⟩
  · split at h
    · cases h
    · rename_i out hout
      dsimp only at h
      split_ifs at h with hfail hblank
      exact ⟨_, by rw [nonBlank, if_neg hblank, Except.ok.inj h]⟩

/-- A file that holds the line of an id says so. -/
theorem idFile_of_holds {fs : Fs} {s id : String} (h : fs.Holds vdsmIdPath (asBytes (id ++ "\n")))
    (hid : nonBlank s = some id) : idFile true fs = some id := by
  simp [idFile, readToString, h.readFile, Except.toOption, fromUtf8_asBytes, nonBlank_line hid]

/-- What a process reads there, all that can read it find. -/
theorem idFile_true {reads : Bool} {fs : Fs} {id : String} (h : idFile reads fs = some id) :
    idFile true fs = some id := by
  cases reads with
  | true => exact h
  | false => simp [idFile, readToString] at h

/-- The id that the tool returns stands in the file afterwards, unless the tool failed to write it. -/
theorem idFile_ensureVdsmId {hw : Hardware} {reads : Bool} {faults : Faults} {fs : Fs} {id : String}
    (h : (ensureVdsmId hw reads faults fs).1 = .ok id) (hp : Persists hw reads faults fs) :
    idFile true (ensureVdsmId hw reads faults fs).2 = some id := by
  cases hfile : idFile reads fs with
  | some found =>
    obtain rfl : found = id := by simpa [ensureVdsmId, hfile] using h
    simpa [ensureVdsmId, hfile] using idFile_true hfile
  | none =>
    cases huuid : readSystemUuid hw with
    | error e => simp [ensureVdsmId, hfile, huuid] at h
    | ok found =>
      obtain rfl : found = id := by simpa [ensureVdsmId, hfile, huuid] using h
      obtain ⟨s, hs⟩ := nonBlank_of_readSystemUuid huuid
      have hwrite := (hp.resolve_left (by simp [hfile])) found huuid
      simp only [ensureVdsmId, hfile, huuid]
      exact idFile_of_holds (Fs.holds_writeFile (Prod.ext hwrite rfl)) hs

/-- Once the file holds an id, what can read it writes nothing. -/
theorem idStep_of_idFile {fs : Fs} {id : String} (h : idFile true fs = some id) {e : IdEvent}
    (he : e.reads = true) : idStep fs e = fs := by
  cases e with
  | tool hw reads faults =>
    obtain rfl : reads = true := he
    simp [idStep, ensureVdsmId, h]
  | daemon hw reads => rfl

/-- So it is for a whole run. -/
theorem afterEvents_of_idFile {fs : Fs} {id : String} (h : idFile true fs = some id)
    {events : List IdEvent} (he : ∀ e ∈ events, e.reads = true) : afterEvents fs events = fs := by
  induction events with
  | nil => rfl
  | cons e events ih =>
    rw [List.forall_mem_cons] at he
    rw [afterEvents, List.foldl_cons, idStep_of_idFile h he.1]
    exact ih he.2

/-- And it reports that id. -/
theorem report_of_idFile {fs : Fs} {id : String} (h : idFile true fs = some id) {e : IdEvent}
    (he : e.reads = true) : report fs e = .ok id := by
  cases e with
  | tool hw reads faults =>
    obtain rfl : reads = true := he
    simp [report, ensureVdsmId, h]
  | daemon hw reads =>
    obtain rfl : reads = true := he
    simp [report, vdsmId, h]

/-- Hardware that says this, or nothing at all. -/
def saying (uuid : Option String) : Hardware := ⟨uuid, none, .error "No such file or directory"⟩

/-- Stability of the host's id. The tool and the daemon report one and the same id in every run in which
they can read the file, whatever the hardware says and whatever else fails, exactly when the file holds
that id; and that is so after a run of the tool, whether it could read the file or not, that did not
fail to write it. -/
theorem host_id_stable (fs : Fs) :
    (∀ id, idFile true fs = some id ↔ ∀ events e, (∀ x ∈ e :: events, x.reads = true) →
        report (afterEvents fs events) e = .ok id) ∧
      ∀ hw reads faults id, (ensureVdsmId hw reads faults fs).1 = .ok id →
        Persists hw reads faults fs → ∀ events e, (∀ x ∈ e :: events, x.reads = true) →
          report (afterEvents (ensureVdsmId hw reads faults fs).2 events) e = .ok id := by
  have hstable : ∀ fs id, idFile true fs = some id → ∀ events e,
      (∀ x ∈ e :: events, IdEvent.reads x = true) → report (afterEvents fs events) e = .ok id := by
    intro fs id h events e he
    rw [List.forall_mem_cons] at he
    rw [afterEvents_of_idFile h he.2, report_of_idFile h he.1]
  refine ⟨fun id => ⟨hstable fs id, fun h => ?_⟩, ?_⟩
  · cases hfile : idFile true fs with
    | some found =>
      have hreport := h [] (.daemon (saying none) true) (by simp [IdEvent.reads])
      simpa [afterEvents, report, vdsmId, hfile] using hreport
    | none =>
      -- without the file the daemon follows the hardware
      have hzero := h [] (.daemon (saying none) true) (by simp [IdEvent.reads])
      have hother := h [] (.daemon (saying (some "x")) true) (by simp [IdEvent.reads])
      simp only [afterEvents, List.foldl_nil, report, vdsmId, hfile, saying, Option.bind_none,
        Option.bind_some, Option.or_none, Option.none_or, Option.getD_none, Except.ok.injEq] at hzero hother
      rw [← hzero] at hother
      exact absurd hother (by decide)
  · intro hw reads faults id h hp
    exact hstable _ id (idFile_ensureVdsmId h hp)

/-- The hardware of the first run cannot be asked any more, and another says otherwise. -/
theorem host_id_stable_first_run :
    report (afterEvents (ensureVdsmId (saying (some "4C4C4544\n")) true .none .empty).2
      [.tool (saying (some "other")) true .none]) (.daemon (saying none) true) = .ok "4C4C4544" :=
  (host_id_stable .empty).2 (saying (some "4C4C4544\n")) true .none "4C4C4544" (by decide)
    (.inr fun id hid => by
      obtain rfl : "4C4C4544" = id := Except.ok.inj hid
      decide) _ _ (by simp [IdEvent.reads])

end Vdsm.Host
