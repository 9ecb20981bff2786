import Vdsm.Lib.FirstSeen
import Vdsm.Lib.LineText
import Vdsm.Lib.Utf8Lossy

/-!
# Emulated machines (`vdsm-host/src/sysinfo.rs`, `emulated_machines`)

The machine types of the host, cut out of the XML of `virsh capabilities` without parsing it: what
stands between the first `>` and `</machine>` after each `<machine`. Aliases that a cluster may ask for
are added, so that the list has them whatever the host is. `emulated_machines_report` says what the list
is for every output, and what the cuts find in XML that has machines in it.
-/

namespace Vdsm.Host

open Rust FirstSeen

/-! ## The scan -/

/-- `default_emulated_machines`. -/
def defaultEmulatedMachines : List String := ["q35", "pc", "pc-q35-rhel9.6.0", "pc-i440fx-rhel7.6.0"]

/-- The aliases for RHEL clusters. -/
def rhelAliases : List String :=
  ["pc-q35-rhel9.6.0", "pc-q35-rhel9.4.0", "pc-q35-rhel9.2.0", "pc-q35-rhel8.6.0",
    "pc-q35-rhel8.4.0", "pc-i440fx-rhel7.6.0", "pc-i440fx-rhel7.5.0"]

/-- The name in what follows a `<machine`. -/
def machineName (tag : String) : Option String :=
  ((beforeStr "</machine>" tag).bind (splitOnce '>')).map fun parts => trim parts.2

/-- A machine that is reported. -/
def isReported (name : String) : Bool := startsWith name "pc-" || name == "q35" || name == "pc"

/-- `if !machines.contains(..) { machines.push(..) }`. -/
def addNew (machines : List String) (name : String) : List String :=
  if machines.contains name then machines else machines ++ [name]

/-- One turn of the loop over the tags. -/
def scanTag (machines : List String) (tag : String) : List String :=
  match machineName tag with
  | some name => if isReported name then addNew machines name else machines
  | none => machines

/-- The loop over the tags. -/
def scanMachines (xml : String) : List String := (splitStr "<machine" xml).foldl scanTag []

/-- `emulated_machines`, from how `virsh` ended and what it printed, if it could be spawned. -/
def emulatedMachines (out : Option (Bool × List UInt8)) : List String :=
  match out with
  | none => defaultEmulatedMachines
  | some (success, stdout) =>
    if !success then defaultEmulatedMachines
    else
      let machines := scanMachines (fromUtf8Lossy stdout)
      if machines = [] then defaultEmulatedMachines else rhelAliases.foldl addNew machines

/-! ## Each machine once -/

/-- The loop with its search for a duplicate keeps what it has and adds each new name once. -/
theorem foldl_addNew (machines names : List String) :
    names.foldl addNew machines = machines ++ keepNew id machines names :=
  foldl_push_eq machines names

/-- The scan is that of the names of all tags. -/
theorem scanMachines_eq (xml : String) :
    scanMachines xml
      = keepNew id [] (((splitStr "<machine" xml).filterMap machineName).filter isReported) := by
  have hloop : ∀ tags machines : List String, tags.foldl scanTag machines
      = ((tags.filterMap machineName).filter isReported).foldl addNew machines := by
    intro tags
    induction tags with
    | nil => intro machines; rfl
    | cons tag tags ih =>
      intro machines
      rw [List.foldl_cons, ih, scanTag]
      cases hname : machineName tag with
      | none => rw [List.filterMap_cons_none hname]
      | some name =>
        rw [List.filterMap_cons_some hname]
        dsimp only
        cases hrep : isReported name with
        | true =>
          rw [List.filter_cons_of_pos hrep, List.foldl_cons]
          rfl
        | false =>
          rw [List.filter_cons_of_neg (by simp [hrep])]
          rfl
  rw [scanMachines, hloop, foldl_addNew, List.nil_append]

theorem nodup_rhelAliases : rhelAliases.Nodup := by decide

/-- The list, from the names of the tags. -/
def machineList (names : List String) : List String :=
  let found := keepNew id [] (names.filter isReported)
  if found = [] then defaultEmulatedMachines else found ++ rhelAliases.filter (· ∉ found)

/-- What is reported of an output of `virsh capabilities` depends on its machine elements only. -/
theorem emulatedMachines_eq (stdout : List UInt8) :
    emulatedMachines (some (true, stdout))
      = machineList ((splitStr "<machine" (fromUtf8Lossy stdout)).filterMap machineName) := by
  have haliases : ∀ found : List String,
      rhelAliases.foldl addNew found = found ++ rhelAliases.filter (· ∉ found) := by
    intro found
    rw [foldl_addNew, keepNew_of_nodup id found (by simpa using nodup_rhelAliases)]
    rfl
  rw [emulatedMachines, machineList, ← scanMachines_eq]
  dsimp only
  rw [haliases]
  rfl

/-- No machine is reported twice. -/
theorem nodup_machineList (names : List String) : (machineList names).Nodup := by
  have hfound : (keepNew id [] (names.filter isReported)).Nodup := by
    simpa using nodup_keepNew id (names.filter isReported)
  rw [machineList]
  split_ifs
  · decide
  · refine List.nodup_append.mpr ⟨hfound, nodup_rhelAliases.filter _, ?_⟩
    rintro a ha b hb rfl
    have hnot := (List.mem_filter.mp hb).2
    exact absurd ha (by simpa using hnot)

/-- Nothing is reported but what the filter lets through, aliases included. -/
theorem isReported_machineList {names : List String} {m : String} (h : m ∈ machineList names) :
    isReported m = true := by
  have hdefault : ∀ m ∈ defaultEmulatedMachines, isReported m = true := by decide
  have haliases : ∀ m ∈ rhelAliases, isReported m = true := by decide
  rw [machineList] at h
  split_ifs at h
  · exact hdefault m h
  · rcases List.mem_append.mp h with hfound | halias
    · exact (List.mem_filter.mp ((keepNew_sublist _ _ _).subset hfound)).2
    · exact haliases m (List.mem_filter.mp halias).1

/-- The two aliases that the default has too are in every list. -/
theorem mem_machineList {names : List String} {m : String} (hdefault : m ∈ defaultEmulatedMachines)
    (halias : m ∈ rhelAliases) : m ∈ machineList names := by
  rw [machineList]
  split_ifs
  · exact hdefault
  · by_cases hm : m ∈ keepNew id [] (names.filter isReported)
    · exact List.mem_append_left _ hm
    · exact List.mem_append_right _ (List.mem_filter.mpr ⟨halias, by simpa using hm⟩)

/-! ## What libvirt prints -/

/-- A machine of the capabilities, with its attributes and the text up to the next one. -/
structure Machine where
  attrs : String
  name : String
  after : String
  attrs_ok : ∀ c ∈ attrs.toList, c ≠ '<' ∧ c ≠ '>'
  name_ok : isTrimmed name = true ∧ '<' ∉ name.toList
  after_ok : contains after "<machine" = false

namespace Machine

/-- What stands after `<machine`. -/
def tag (m : Machine) : String := m.attrs ++ ">" ++ m.name ++ ("</machine>" ++ m.after)

/-- Within the element of a machine no other one begins. -/
theorem not_mem_inner (m : Machine) : '<' ∉ (m.attrs ++ ">" ++ m.name).toList := by
  rw [String.toList_append, String.toList_append, List.mem_append, List.mem_append]
  rintro ((h | h) | h)
  · exact (m.attrs_ok _ h).1 rfl
  · exact absurd h (by decide)
  · exact m.name_ok.2 h

/-- The name of a machine is read from between its tags, whatever its attributes. -/
theorem machineName_tag (m : Machine) : machineName m.tag = some m.name := by
  have hclear : Clear "</machine>".toList (m.attrs ++ ">" ++ m.name).toList := by
    have hnil : Clear "</machine>".toList [] := fun i hi => absurd hi (by simp)
    have h := clear_append (a := (m.attrs ++ ">" ++ m.name).toList) (b := [])
      (fun c hc heq => m.not_mem_inner (by obtain rfl := Option.some.inj heq; exact hc))
      (by decide) hnil
    rwa [List.append_nil] at h
  have htext : m.attrs ++ ">" ++ m.name = String.ofList (m.attrs.toList ++ '>' :: m.name.toList) := by
    simp [← String.toList_inj]
  have hsplit : splitOnce '>' (m.attrs ++ ">" ++ m.name) = some (m.attrs, m.name) := by
    rw [htext]
    exact splitOnce_append fun hc => (m.attrs_ok _ hc).2 rfl
  rw [machineName, tag, beforeStr_append (by decide) hclear, Option.bind_some, hsplit,
    Option.map_some, trim_eq_self m.name_ok.1]

/-- No `<machine` runs into another. -/
theorem clear_of_contains {s : String} (h : contains s "<machine" = false) :
    Clear "<machine".toList s.toList := by
  have hopen : "<machine".toList = '<' :: "machine".toList := by decide
  have hnot : ¬ "<machine".toList <:+: s.toList := fun hin => by
    rw [contains_iff.mpr hin] at h
    cases h
  rw [hopen] at hnot ⊢
  exact clear_of_not_infix (by decide) hnot

/-- The start of a machine element does not begin within another one. -/
theorem clear_tag (m : Machine) : Clear "<machine".toList m.tag.toList := by
  have hafter := clear_of_contains m.after_ok
  have hend : Clear "<machine".toList ("</machine>" ++ m.after).toList := by
    have hlt : '<' ∉ "/machine>".toList := by simp
    have hstart : ∀ c ∈ "/machine>".toList, "<machine".toList.head? ≠ some c := by
      intro c hc heq
      obtain rfl := Option.some.inj heq
      exact hlt hc
    have htail := clear_append hstart (by decide) hafter
    have hcons : ("</machine>" ++ m.after).toList = '<' :: ("/machine>".toList ++ m.after.toList) := by
      simp
    rw [hcons, clear_cons]
    exact ⟨by simp, htail⟩
  rw [tag, String.toList_append]
  refine clear_append (fun c hc heq => ?_) (by decide) hend
  obtain rfl := Option.some.inj heq
  exact m.not_mem_inner hc

end Machine

/-- The capabilities with these machines, after a text without any. -/
def capabilities (front : String) (ms : List Machine) : String :=
  front ++ String.join (ms.map fun m => "<machine" ++ m.tag)

/-- Splitting at the start of the elements gives the machines, one to each piece. -/
theorem splitStr_capabilities {front : String} (hfront : Clear "<machine".toList front.toList)
    (ms : List Machine) :
    splitStr "<machine" (capabilities front ms) = front :: ms.map Machine.tag := by
  induction ms generalizing front with
  | nil =>
    rw [capabilities, List.map_nil, String.join_nil, String.append_empty, splitStr,
      splitFrom_of_clear hfront]
    simp
  | cons m ms ih =>
    have hcons : (capabilities front (m :: ms)).toList
        = front.toList ++ ("<machine".toList ++ (capabilities m.tag ms).toList) := by
      simp [capabilities, String.join_cons]
    have hrest := ih m.clear_tag
    rw [splitStr] at hrest
    rw [splitStr, hcons, splitFrom_append (by decide) hfront, List.map_cons, hrest]
    simp

/-! ## The report -/

/-- Emulated machines. Whatever `virsh` does and prints, no machine is reported twice, only those of PCs
are, and the two aliases that clusters ask for are among them. From the XML of libvirt the list has the
machines of PCs in their order, each once, then the aliases that are missing; if it has none, the list
is the default. -/
theorem emulated_machines_report :
    (∀ out, (emulatedMachines out).Nodup ∧ (∀ m ∈ emulatedMachines out, isReported m = true) ∧
        "pc-q35-rhel9.6.0" ∈ emulatedMachines out ∧ "pc-i440fx-rhel7.6.0" ∈ emulatedMachines out) ∧
      ∀ (front : String) (ms : List Machine), contains front "<machine" = false →
        contains front "</machine>" = false →
        emulatedMachines (some (true, asBytes (capabilities front ms)))
          = machineList (ms.map Machine.name) := by
  constructor
  · intro out
    have hlist : ∃ names, emulatedMachines out = machineList names := by
      cases out with
      | none => exact ⟨[], rfl⟩
      | some result =>
        obtain ⟨success, stdout⟩ := result
        cases success with
        | false => exact ⟨[], rfl⟩
        | true => exact ⟨_, emulatedMachines_eq stdout⟩
    obtain ⟨names, heq⟩ := hlist
    rw [heq]
    exact ⟨nodup_machineList names, fun m hm => isReported_machineList hm,
      mem_machineList (by decide) (by decide), mem_machineList (by decide) (by decide)⟩
  · intro front ms hopen hclose
    have hfront : machineName front = none := by
      rw [machineName, beforeStr, if_neg (by simp [hclose])]
      rfl
    have hnames : (ms.map Machine.tag).filterMap machineName = ms.map Machine.name := by
      rw [List.filterMap_map, ← List.filterMap_eq_map]
      exact List.filterMap_congr fun m _ => m.machineName_tag
    rw [emulatedMachines_eq, fromUtf8Lossy_asBytes,
      splitStr_capabilities (Machine.clear_of_contains hopen), List.filterMap_cons_none hfront, hnames]

end Vdsm.Host
