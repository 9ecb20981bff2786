import Mathlib.Data.List.Forall2
import Vdsm.Lib.Path
import Mathlib.Data.Int.Notation

/-!
# The privileged daemon (`vdsm-common/src/supervdsm.rs`, `supervdsm/src/exec.rs`)

`execute` turns a `PrivOp` into what root does for it: processes spawned and files written. Each op
becomes an argv of a fixed shape, its `template`: fixed words, and slots for the caller's strings.
`execute_argument_safe` says that the caller's strings stay in their slots: none is empty, holds a
NUL or can be taken for an option.
-/

namespace Vdsm.Supervdsm

open Rust

/-- `PrivOp`: the closed set of privileged operations. -/
inductive PrivOp where
  | mount (fstype spec target options : String)
  | umount (target : String)
  | iscsiDiscover (portal : String)
  | iscsiLogin (iqn portal : String)
  | iscsiLogout (iqn portal : String)
  | iscsiRescan
  | pvcreate (device : String)
  | vgcreate (vg : String) (devices : List String)
  | vgextend (vg device : String)
  | vgremove (vg : String)
  | lvcreate (vg lv : String) (sizeBytes : UInt64)
  | lvchange (vg lv : String) (active : Bool)
  | lvremove (vg lv : String)
  | fcScan
  | multipathList
deriving DecidableEq, Repr

/-- `PrivResult`. -/
structure PrivResult where
  ok : Bool
  code : ℤ
  stdout : String
  stderr : String
deriving DecidableEq, Repr

def PrivResult.failure (msg : String) : PrivResult := ⟨false, -1, "", msg⟩

/-! ## Validation -/

/-- `MOUNT_ROOT`. -/
def mountRoot : String := "/rhev/data-center/mnt/"

/-- `c.is_ascii_alphanumeric() || matches!(c, extra)`. -/
def isWordChar (extra : List Char) (c : Char) : Bool := isAsciiAlphanumeric c || extra.contains c

/-- LVM object names: VG and LV. -/
def validLvmName (s : String) : Bool :=
  s != "" && !startsWith s "-" && decide (len s ≤ 128) &&
    s.toList.all (isWordChar ['-', '_', '.', '+'])

/-- Block device path. -/
def validDevice (s : String) : Bool :=
  startsWith s "/dev/" && !contains s ".." && !containsChar s '\x00' && decide (len s ≤ 4096)

/-- Mount target. -/
def validTarget (s : String) : Bool :=
  startsWith s mountRoot && !contains s ".." && !containsChar s '\x00'

def validFstype (s : String) : Bool :=
  ["nfs", "nfs4", "cifs", "glusterfs", "none", "auto", "ext4", "xfs", "ext3"].contains s

/-- The common body of `valid_portal` and `valid_iqn`. -/
def validWord (extra : List Char) (s : String) : Bool :=
  s != "" && !startsWith s "-" && !containsChar s '\x00' && decide (len s ≤ 256) &&
    s.toList.all (isWordChar extra)

def validPortal (s : String) : Bool := validWord ['.', ':', '-', '[', ']'] s

def validIqn (s : String) : Bool := validWord ['.', ':', '-'] s

/-! ## Execution -/

/-- What root does. -/
inductive Action where
  | spawn (bin : String) (args : List String)
  | write (path contents : String)
deriving DecidableEq, Repr

/-- `std::process::Output`. -/
structure Output where
  success : Bool
  code : Option ℤ
  stdout : List UInt8
  stderr : List UInt8

/-- The host: how a command ends or why it cannot be spawned, what `/sys/class/scsi_host` lists, and
how a write fails. -/
structure Host where
  output : String → List String → Except String Output
  scsiHosts : Except String (List FileName)
  writeError : String → Option String

/-- A host where every command succeeds. -/
def quietHost : Host := ⟨fun _ _ => .ok ⟨true, some 0, [], []⟩, .ok [], fun _ => none⟩

/-- The result of an op, and what was done for it. -/
abbrev Outcome : Type := PrivResult × List Action

def invalid (field : String) : Outcome :=
  (PrivResult.failure s!"rejected: invalid {field}", [])

def run (host : Host) (bin : String) (args : List String) : Outcome :=
  let result := match host.output bin args with
    | .ok o => ⟨o.success, o.code.getD (-1), fromUtf8Lossy o.stdout, fromUtf8Lossy o.stderr⟩
    | .error e => PrivResult.failure s!"spawn {bin}: {e}"
  (result, [.spawn bin args])

/-- The scan node of a SCSI host. -/
def scanNode (ent : FileName) : String := pathJoin (pathJoin "/sys/class/scsi_host" ent.1) "scan"

/-- `PrivOp::FcScan`: a rescan of every SCSI host, by sysfs writes. -/
def fcScan (host : Host) : Outcome :=
  let (errs, actions) := match host.scsiHosts with
    -- every node is written, also after one has failed
    | .ok ents =>
      let nodes := ents.map scanNode
      (nodes.filterMap fun p => (host.writeError p).map fun e => s!"{p}: {e}",
        nodes.map fun p => Action.write p "- - -\n")
    | .error e => ([s!"read scsi_host: {e}"], [])
  if errs = [] then (⟨true, 0, "", ""⟩, actions)
  else (PrivResult.failure ("; ".intercalate errs), actions)

/-- `execute`. -/
def execute (host : Host) : PrivOp → Outcome
  | .mount fstype spec target options =>
    if !validFstype fstype then invalid "fstype"
    else if !validTarget target then invalid "target"
    else if spec = "" ∨ startsWith spec "-" ∨ containsChar spec '\x00' then invalid "spec"
    else if options ≠ "" then
      if startsWith options "-" ∨ containsChar options '\x00' then invalid "options"
      else run host "/usr/bin/mount" ["-t", fstype, "-o", options, spec, target]
    else run host "/usr/bin/mount" ["-t", fstype, spec, target]
  | .umount target =>
    if !validTarget target then invalid "target"
    else run host "/usr/bin/umount" [target]
  | .iscsiDiscover portal =>
    if !validPortal portal then invalid "portal"
    else run host "/usr/sbin/iscsiadm" ["-m", "discovery", "-t", "st", "-p", portal]
  | .iscsiLogin iqn portal =>
    if !validIqn iqn then invalid "iqn"
    else if !validPortal portal then invalid "portal"
    else run host "/usr/sbin/iscsiadm" ["-m", "node", "-T", iqn, "-p", portal, "--login"]
  | .iscsiLogout iqn portal =>
    if !validIqn iqn then invalid "iqn"
    else if !validPortal portal then invalid "portal"
    else run host "/usr/sbin/iscsiadm" ["-m", "node", "-T", iqn, "-p", portal, "--logout"]
  | .iscsiRescan => run host "/usr/sbin/iscsiadm" ["-m", "session", "--rescan"]
  | .pvcreate device =>
    if !validDevice device then invalid "device"
    else run host "/usr/sbin/pvcreate" ["-ff", "-y", device]
  | .vgcreate vg devices =>
    if !validLvmName vg then invalid "vg"
    else if devices = [] ∨ !devices.all validDevice then invalid "devices"
    else run host "/usr/sbin/vgcreate" (["-s", "128m", "-y", vg] ++ devices)
  | .vgextend vg device =>
    if !validLvmName vg then invalid "vg"
    else if !validDevice device then invalid "device"
    else run host "/usr/sbin/vgextend" [vg, device]
  | .vgremove vg =>
    if !validLvmName vg then invalid "vg"
    else run host "/usr/sbin/vgremove" ["-f", "-y", vg]
  | .lvcreate vg lv sizeBytes =>
    if !validLvmName vg then invalid "vg"
    else if !validLvmName lv then invalid "lv"
    else if sizeBytes = 0 then invalid "size_bytes"
    else
      let size := toString sizeBytes.toNat ++ "B"
      run host "/usr/sbin/lvcreate" ["-W", "y", "-Z", "n", "-n", lv, "-L", size, vg]
  | .lvchange vg lv active =>
    if !validLvmName vg then invalid "vg"
    else if !validLvmName lv then invalid "lv"
    else
      let path := vg ++ "/" ++ lv
      if active then run host "/usr/sbin/lvchange" ["-a", "y", "-K", path]
      else run host "/usr/sbin/lvchange" ["-a", "n", path]
  | .lvremove vg lv =>
    if !validLvmName vg then invalid "vg"
    else if !validLvmName lv then invalid "lv"
    else run host "/usr/sbin/lvremove" ["-f", "-y", vg ++ "/" ++ lv]
  | .fcScan => fcScan host
  | .multipathList => run host "/usr/sbin/multipath" ["-ll", "-j"]

/-! ## Templates -/

/-- What the argv of an op may depend on besides the caller's strings. -/
inductive Shape where
  | mount (withOptions : Bool)
  | umount
  | iscsiDiscover
  | iscsiLogin
  | iscsiLogout
  | iscsiRescan
  | pvcreate
  | vgcreate (devices : ℕ)
  | vgextend
  | vgremove
  | lvcreate
  | lvchange (active : Bool)
  | lvremove
  | fcScan
  | multipathList

/-- The shape of an op: its variant, and what else the argv depends on. -/
def PrivOp.shape : PrivOp → Shape
  | mount _ _ _ options => .mount (options != "")
  | umount _ => .umount
  | iscsiDiscover _ => .iscsiDiscover
  | iscsiLogin _ _ => .iscsiLogin
  | iscsiLogout _ _ => .iscsiLogout
  | iscsiRescan => .iscsiRescan
  | pvcreate _ => .pvcreate
  | vgcreate _ devices => .vgcreate devices.length
  | vgextend _ _ => .vgextend
  | vgremove _ => .vgremove
  | lvcreate _ _ _ => .lvcreate
  | lvchange _ _ active => .lvchange active
  | lvremove _ _ => .lvremove
  | fcScan => .fcScan
  | multipathList => .multipathList

/-- What of the caller's fields stands in an argv: a field as it is, or a text made of fields. -/
inductive Field where
  | fstype
  | spec
  | target
  | options
  | portal
  | iqn
  | vg
  | lv
  | device
  /-- An element of `devices`. -/
  | devices (i : ℕ)
  /-- `size_bytes` in LVM's notation. -/
  | size
  /-- The LV as `vg/lv`. -/
  | lvPath
deriving DecidableEq, Repr

/-- Its text in an op, if the op has it. -/
def PrivOp.text : PrivOp → Field → Option String
  | mount fstype _ _ _, .fstype => some fstype
  | mount _ spec _ _, .spec => some spec
  | mount _ _ target _, .target => some target
  | mount _ _ _ options, .options => some options
  | umount target, .target => some target
  | iscsiDiscover portal, .portal => some portal
  | iscsiLogin iqn _, .iqn => some iqn
  | iscsiLogin _ portal, .portal => some portal
  | iscsiLogout iqn _, .iqn => some iqn
  | iscsiLogout _ portal, .portal => some portal
  | pvcreate device, .device => some device
  | vgcreate vg _, .vg => some vg
  | vgcreate _ devices, .devices i => devices[i]?
  | vgextend vg _, .vg => some vg
  | vgextend _ device, .device => some device
  | vgremove vg, .vg => some vg
  | lvcreate vg _ _, .vg => some vg
  | lvcreate _ lv _, .lv => some lv
  | lvcreate _ _ sizeBytes, .size => some (toString sizeBytes.toNat ++ "B")
  | lvchange vg lv _, .lvPath => some (vg ++ "/" ++ lv)
  | lvremove vg lv, .lvPath => some (vg ++ "/" ++ lv)
  | _, _ => none

/-- One element of an argv: a fixed word, or what it says of the caller's fields. -/
inductive Slot where
  | word (s : String)
  | caller (field : Field)
deriving DecidableEq, Repr

/-- The binary of a variant; `FcScan` spawns nothing. -/
def Shape.binary : Shape → Option String
  | mount _ => some "/usr/bin/mount"
  | umount => some "/usr/bin/umount"
  | iscsiDiscover | iscsiLogin | iscsiLogout | iscsiRescan => some "/usr/sbin/iscsiadm"
  | pvcreate => some "/usr/sbin/pvcreate"
  | vgcreate _ => some "/usr/sbin/vgcreate"
  | vgextend => some "/usr/sbin/vgextend"
  | vgremove => some "/usr/sbin/vgremove"
  | lvcreate => some "/usr/sbin/lvcreate"
  | lvchange _ => some "/usr/sbin/lvchange"
  | lvremove => some "/usr/sbin/lvremove"
  | fcScan => none
  | multipathList => some "/usr/sbin/multipath"

/-- The argv of a shape. -/
def Shape.template : Shape → List Slot
  | mount true =>
    [.word "-t", .caller .fstype, .word "-o", .caller .options, .caller .spec, .caller .target]
  | mount false => [.word "-t", .caller .fstype, .caller .spec, .caller .target]
  | umount => [.caller .target]
  | iscsiDiscover =>
    [.word "-m", .word "discovery", .word "-t", .word "st", .word "-p", .caller .portal]
  | iscsiLogin =>
    [.word "-m", .word "node", .word "-T", .caller .iqn, .word "-p", .caller .portal,
      .word "--login"]
  | iscsiLogout =>
    [.word "-m", .word "node", .word "-T", .caller .iqn, .word "-p", .caller .portal,
      .word "--logout"]
  | iscsiRescan => [.word "-m", .word "session", .word "--rescan"]
  | pvcreate => [.word "-ff", .word "-y", .caller .device]
  | vgcreate n =>
    [.word "-s", .word "128m", .word "-y", .caller .vg] ++
      (List.range n).map fun i => .caller (.devices i)
  | vgextend => [.caller .vg, .caller .device]
  | vgremove => [.word "-f", .word "-y", .caller .vg]
  | lvcreate =>
    [.word "-W", .word "y", .word "-Z", .word "n", .word "-n", .caller .lv, .word "-L",
      .caller .size, .caller .vg]
  | lvchange true => [.word "-a", .word "y", .word "-K", .caller .lvPath]
  | lvchange false => [.word "-a", .word "n", .caller .lvPath]
  | lvremove => [.word "-f", .word "-y", .caller .lvPath]
  | fcScan => []
  | multipathList => [.word "-ll", .word "-j"]

/-- A string no command takes for an option or cuts short. -/
structure Inert (s : String) : Prop where
  ne_empty : s ≠ ""
  no_nul : '\x00' ∉ s.toList
  no_dash : s.toList.head? ≠ some '-'

/-- An argument of an op fits its slot: it is the fixed word, or the text of the very field that the
slot names, and that text is inert. -/
def Slot.Fits (op : PrivOp) : Slot → String → Prop
  | word s, arg => arg = s
  | caller field, arg => op.text field = some arg ∧ Inert arg

/-! ## What the validators guarantee -/

/-- What is taken for an option begins with a dash. -/
theorem startsWith_dash {s : String} : startsWith s "-" = true ↔ s.toList.head? = some '-' := by
  rw [startsWith]
  cases s.toList with
  | nil => simp
  | cons c cs =>
    have hdash : "-".toList = ['-'] := rfl
    rw [hdash, List.isPrefixOf_iff_prefix, List.cons_prefix_cons]
    simp [eq_comm]

theorem containsChar_iff {s : String} {c : Char} : containsChar s c = true ↔ c ∈ s.toList := by
  simp [containsChar]

/-- The three checks a free-form field goes through. -/
theorem inert_of_checks {s : String}
    (h : ¬ (s = "" ∨ startsWith s "-" = true ∨ containsChar s '\x00' = true)) : Inert s := by
  rw [startsWith_dash, containsChar_iff] at h
  exact ⟨fun he => h (.inl he), fun hn => h (.inr (.inr hn)), fun hd => h (.inr (.inl hd))⟩

/-- A fixed start that is no dash rules out an option. -/
theorem inert_of_startsWith {s p : String} {c : Char} {cs : List Char} (hp : p.toList = c :: cs)
    (hc : c ≠ '-') (h : startsWith s p = true) (hnul : containsChar s '\x00' = false) :
    Inert s := by
  rw [startsWith, hp, List.isPrefixOf_iff_prefix] at h
  obtain ⟨t, ht⟩ := h
  refine ⟨?_, ?_, ?_⟩
  · rintro rfl
    simp at ht
  · intro hm
    simp [containsChar_iff.mpr hm] at hnul
  · simp [← ht, hc]

/-- What is no word character does not stand in a word. -/
theorem not_mem_of_all {extra l : List Char} {c : Char} (hc : isWordChar extra c = false)
    (h : l.all (isWordChar extra) = true) : c ∉ l := by
  intro hm
  rw [List.all_eq_true.mp h c hm] at hc
  cases hc

/-- A valid LVM name is no option and has no NUL in it. -/
theorem validLvmName_inert {s : String} (h : validLvmName s = true) : Inert s := by
  simp only [validLvmName, Bool.and_eq_true, bne_iff_ne, Bool.not_eq_true'] at h
  obtain ⟨⟨⟨hne, hdash⟩, -⟩, hall⟩ := h
  exact ⟨hne, not_mem_of_all (by decide) hall, by simp [← startsWith_dash, hdash]⟩

theorem validWord_inert {extra : List Char} {s : String} (h : validWord extra s = true) :
    Inert s := by
  simp only [validWord, Bool.and_eq_true, bne_iff_ne, Bool.not_eq_true'] at h
  obtain ⟨⟨⟨⟨hne, hdash⟩, hnul⟩, -⟩, -⟩ := h
  exact inert_of_checks (by simp [hne, hdash, hnul])

theorem validDevice_inert {s : String} (h : validDevice s = true) : Inert s := by
  simp only [validDevice, Bool.and_eq_true, Bool.not_eq_true'] at h
  obtain ⟨⟨⟨hdev, -⟩, hnul⟩, -⟩ := h
  exact inert_of_startsWith rfl (by decide) hdev hnul

theorem validTarget_inert {s : String} (h : validTarget s = true) : Inert s := by
  simp only [validTarget, Bool.and_eq_true, Bool.not_eq_true'] at h
  obtain ⟨⟨hroot, -⟩, hnul⟩ := h
  exact inert_of_startsWith rfl (by decide) hroot hnul

theorem validFstype_inert {s : String} (h : validFstype s = true) : Inert s := by
  simp only [validFstype, List.contains_eq_mem, decide_eq_true_eq, List.mem_cons,
    List.not_mem_nil, or_false] at h
  rcases h with rfl | rfl | rfl | rfl | rfl | rfl | rfl | rfl | rfl
  all_goals exact inert_of_checks (by decide)

/-- What follows an inert string cannot make it an option. -/
theorem Inert.append {s t : String} (hs : Inert s) (ht : '\x00' ∉ t.toList) : Inert (s ++ t) := by
  have hne : s.toList ≠ [] := fun h => hs.ne_empty (by simpa using h)
  obtain ⟨c, cs, hl⟩ := List.exists_cons_of_ne_nil hne
  refine ⟨?_, ?_, ?_⟩
  · intro h
    have hnil : (s ++ t).toList = [] := by rw [h]; rfl
    simp [hl] at hnil
  · simp [hs.no_nul, ht]
  · have hd := hs.no_dash
    simpa [hl] using hd

/-- Two valid names make an argument that is no option. -/
theorem lvPath_inert {vg lv : String} (hvg : validLvmName vg = true) (hlv : validLvmName lv = true) :
    Inert (vg ++ "/" ++ lv) :=
  ((validLvmName_inert hvg).append (by decide)).append (validLvmName_inert hlv).no_nul

/-- A byte count in LVM's notation. -/
theorem size_inert (n : ℕ) : Inert (toString n ++ "B") := by
  have hdig : ∀ c ∈ (toString n).toList, c.isDigit = true := fun c hc => isDigit_of_mem_toString hc
  have hne : toString n ≠ "" := by
    intro h
    have hnil : (toString n).toList = [] := by rw [h]; rfl
    simp at hnil
  refine Inert.append ⟨hne, ?_, ?_⟩ (by decide)
  · intro hm
    exact absurd (hdig _ hm) (by decide)
  · intro hm
    exact absurd (hdig _ (List.mem_of_head? hm)) (by decide)

/-! ## Argument safety -/

/-- A spawned argv fits the template of the op. -/
def Spawned (op : PrivOp) (outcome : Outcome) : Prop :=
  ∃ bin args, op.shape.binary = some bin ∧ outcome.2 = [.spawn bin args] ∧
    List.Forall₂ (Slot.Fits op) op.shape.template args

/-- Every binary is given by its absolute path. -/
theorem binary_absolute {sh : Shape} {bin : String} (h : sh.binary = some bin) :
    startsWith bin "/" = true := by
  cases sh <;> cases h <;> decide

/-- The devices fit their slots, each the one of its own index. -/
theorem fits_devices {vg : String} {devices : List String} (h : ∀ d ∈ devices, Inert d) :
    List.Forall₂ (Slot.Fits (.vgcreate vg devices))
      ((List.range devices.length).map fun i => .caller (.devices i)) devices := by
  rw [List.forall₂_iff_get]
  refine ⟨by simp, ?_⟩
  intro i _ hi
  simp only [List.get_eq_getElem, List.getElem_map, List.getElem_range]
  exact ⟨List.getElem?_eq_getElem hi, h _ (List.getElem_mem hi)⟩

/-- The scan nodes are where sysfs has them. -/
theorem scanNode_eq (ent : FileName) :
    scanNode ent = "/sys/class/scsi_host/" ++ ent.1 ++ "/scan" := by
  have hent : pathJoin "/sys/class/scsi_host" ent.1 = "/sys/class/scsi_host/" ++ ent.1 :=
    pathJoin_fileName ent (by decide) (by decide)
  have hne : "/sys/class/scsi_host/" ++ ent.1 ≠ "" := fun h => by
    have hnil := congrArg String.toList h
    simp at hnil
  rw [scanNode, hent, pathJoin_relative (by decide) hne (ent.getLast?_append _),
    String.append_assoc]
  rfl

/-- The scan writes to the hosts it finds and nowhere else. -/
theorem fcScan_writes (host : Host) {a : Action} (ha : a ∈ (fcScan host).2) :
    ∃ ent : FileName, a = .write ("/sys/class/scsi_host/" ++ ent.1 ++ "/scan") "- - -\n" := by
  have hmem : ∃ ents, host.scsiHosts = .ok ents ∧
      a ∈ ents.map fun ent => Action.write (scanNode ent) "- - -\n" := by
    unfold fcScan at ha
    cases hents : host.scsiHosts with
    | error e => simp [hents] at ha
    | ok ents =>
      refine ⟨ents, rfl, ?_⟩
      simp only [hents] at ha
      split at ha
      · simpa using ha
      · simpa using ha
  obtain ⟨ents, -, hmem⟩ := hmem
  obtain ⟨ent, -, rfl⟩ := List.mem_map.mp hmem
  exact ⟨ent, by rw [scanNode_eq]⟩

/-- Refused with nothing done, or spawned as the template says. -/
def Safe (op : PrivOp) (outcome : Outcome) : Prop :=
  (∃ field, outcome = invalid field) ∨ Spawned op outcome

/-- A check refuses, or what follows may rely on it. -/
theorem safe_check {op : PrivOp} {c : Prop} [Decidable c] {field : String} {outcome : Outcome}
    (h : ¬ c → Safe op outcome) : Safe op (if c then invalid field else outcome) := by
  split
  · exact .inl ⟨field, rfl⟩
  · rename_i hc
    exact h hc

/-- A validator refuses, or what follows may rely on it. -/
theorem safe_valid {op : PrivOp} {valid : Bool} {field : String} {outcome : Outcome}
    (h : valid = true → Safe op outcome) : Safe op (if !valid then invalid field else outcome) :=
  safe_check fun hc => h (by simpa using hc)

/-- An operation whose arguments fit its template is safe. -/
theorem safe_run {op : PrivOp} (host : Host) {bin : String} {args : List String}
    (hbin : op.shape.binary = some bin) (h : List.Forall₂ (Slot.Fits op) op.shape.template args) :
    Safe op (run host bin args) :=
  .inr ⟨bin, args, hbin, rfl, h⟩

/-- Every op but the rescan. -/
theorem execute_safe (host : Host) {op : PrivOp} (hop : op ≠ .fcScan) :
    Safe op (execute host op) := by
  cases op with
  | mount fstype spec target options =>
    refine safe_valid fun hfs => safe_valid fun ht => safe_check fun hspec => ?_
    have hfs := validFstype_inert hfs
    have ht := validTarget_inert ht
    have hspec := inert_of_checks hspec
    split
    · rename_i hne
      refine safe_check fun hopt => safe_run host rfl ?_
      have hopt := inert_of_checks (s := options) (by simpa [hne] using hopt)
      have hshape : (PrivOp.mount fstype spec target options).shape = .mount true := by
        simp [PrivOp.shape, hne]
      rw [hshape]
      exact .cons rfl (.cons ⟨rfl, hfs⟩ (.cons rfl (.cons ⟨rfl, hopt⟩ (.cons ⟨rfl, hspec⟩ (.cons ⟨rfl, ht⟩ .nil)))))
    · rename_i hempty
      refine safe_run host rfl ?_
      have hshape : (PrivOp.mount fstype spec target options).shape = .mount false := by
        simpa [PrivOp.shape] using hempty
      rw [hshape]
      exact .cons rfl (.cons ⟨rfl, hfs⟩ (.cons ⟨rfl, hspec⟩ (.cons ⟨rfl, ht⟩ .nil)))
  | umount target =>
    exact safe_valid fun ht => safe_run host rfl (.cons ⟨rfl, validTarget_inert ht⟩ .nil)
  | iscsiDiscover portal =>
    exact safe_valid fun hp => safe_run host rfl
      (.cons rfl (.cons rfl (.cons rfl (.cons rfl (.cons rfl (.cons ⟨rfl, validWord_inert hp⟩ .nil))))))
  | iscsiLogin iqn portal =>
    exact safe_valid fun hi => safe_valid fun hp => safe_run host rfl
      (.cons rfl (.cons rfl (.cons rfl (.cons ⟨rfl, validWord_inert hi⟩ (.cons rfl
        (.cons ⟨rfl, validWord_inert hp⟩ (.cons rfl .nil)))))))
  | iscsiLogout iqn portal =>
    exact safe_valid fun hi => safe_valid fun hp => safe_run host rfl
      (.cons rfl (.cons rfl (.cons rfl (.cons ⟨rfl, validWord_inert hi⟩ (.cons rfl
        (.cons ⟨rfl, validWord_inert hp⟩ (.cons rfl .nil)))))))
  | iscsiRescan => exact safe_run host rfl (.cons rfl (.cons rfl (.cons rfl .nil)))
  | pvcreate device =>
    exact safe_valid fun hd => safe_run host rfl
      (.cons rfl (.cons rfl (.cons ⟨rfl, validDevice_inert hd⟩ .nil)))
  | vgcreate vg devices =>
    refine safe_valid fun hvg => safe_check fun hdevs => safe_run host rfl ?_
    -- the empty list is refused as well, but the template does not need that
    have hall : ∀ d ∈ devices, Inert d := by
      intro d hd
      have hvalid : devices.all validDevice = true := by
        by_contra hnot
        exact hdevs (.inr (by simpa using hnot))
      exact validDevice_inert (List.all_eq_true.mp hvalid d hd)
    exact .cons rfl (.cons rfl (.cons rfl (.cons ⟨rfl, validLvmName_inert hvg⟩ (fits_devices hall))))
  | vgextend vg device =>
    exact safe_valid fun hvg => safe_valid fun hd => safe_run host rfl
      (.cons ⟨rfl, validLvmName_inert hvg⟩ (.cons ⟨rfl, validDevice_inert hd⟩ .nil))
  | vgremove vg =>
    exact safe_valid fun hvg => safe_run host rfl
      (.cons rfl (.cons rfl (.cons ⟨rfl, validLvmName_inert hvg⟩ .nil)))
  | lvcreate vg lv sizeBytes =>
    exact safe_valid fun hvg => safe_valid fun hlv => safe_check fun _ => safe_run host rfl
      (.cons rfl (.cons rfl (.cons rfl (.cons rfl (.cons rfl (.cons ⟨rfl, validLvmName_inert hlv⟩
        (.cons rfl (.cons ⟨rfl, size_inert _⟩ (.cons ⟨rfl, validLvmName_inert hvg⟩ .nil)))))))))
  | lvchange vg lv active =>
    refine safe_valid fun hvg => safe_valid fun hlv => ?_
    cases active with
    | true =>
      exact safe_run host rfl
        (.cons rfl (.cons rfl (.cons rfl (.cons ⟨rfl, lvPath_inert hvg hlv⟩ .nil))))
    | false =>
      exact safe_run host rfl (.cons rfl (.cons rfl (.cons ⟨rfl, lvPath_inert hvg hlv⟩ .nil)))
  | lvremove vg lv =>
    exact safe_valid fun hvg => safe_valid fun hlv => safe_run host rfl
      (.cons rfl (.cons rfl (.cons ⟨rfl, lvPath_inert hvg hlv⟩ .nil)))
  | fcScan => exact absurd rfl hop
  | multipathList => exact safe_run host rfl (.cons rfl (.cons rfl .nil))

/-- Argument-injection freedom of the privileged daemon. Whatever the fields of an op, it is refused
with nothing done, or it spawns the one binary of its variant, an absolute path, with an argv that
fits the template of its shape, where each slot that the caller fills names the field it holds, or it
is a rescan and writes a fixed string to scan nodes. -/
theorem execute_argument_safe (host : Host) (op : PrivOp) :
    ((∃ field : String, execute host op = (PrivResult.failure s!"rejected: invalid {field}", [])) ∨
        (∃ bin args, op.shape.binary = some bin ∧ startsWith bin "/" = true ∧
          (execute host op).2 = [.spawn bin args] ∧
          List.Forall₂ (Slot.Fits op) op.shape.template args) ∨
        op = .fcScan) ∧
      ∀ a ∈ (execute host .fcScan).2, ∃ ent : FileName,
        a = .write ("/sys/class/scsi_host/" ++ ent.1 ++ "/scan") "- - -\n" := by
  refine ⟨?_, fun a ha => fcScan_writes host ha⟩
  by_cases hop : op = .fcScan
  · exact .inr (.inr hop)
  · rcases execute_safe host hop with hrefused | ⟨bin, args, hbin, hact, hfits⟩
    · exact .inl hrefused
    · exact .inr (.inl ⟨bin, args, hbin, binary_absolute hbin, hact, hfits⟩)

end Vdsm.Supervdsm
