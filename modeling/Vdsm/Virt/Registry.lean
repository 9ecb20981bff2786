import Vdsm.Lib.HashMap
import Vdsm.Lib.RustStr
import Vdsm.Rpc.Protocol

/-!
# VM records (`vdsm-virt/src/lib.rs`, `domain_xml.rs`, `verbs.rs`)

The in-process registry, what a record is made from, how it is reported, and `reconcile`: the part of
`reconcile_from_libvirt` that runs under the registry's write lock, from the names libvirt listed.
-/

namespace Vdsm.Virt

open Rust

/-- `VmState`. -/
inductive VmState where
  | waitForLaunch
  | poweringUp
  | up
  | down
  | paused
  | poweringDown
deriving DecidableEq, Repr

def VmState.asEngineStr : VmState → String
  | waitForLaunch => "WaitForLaunch"
  | poweringUp => "Powering up"
  | up => "Up"
  | down => "Down"
  | paused => "Paused"
  | poweringDown => "Powering down"

/-- `VmRecord`. -/
structure VmRecord where
  vmId : String
  vmName : String
  memSizeMb : UInt64
  vcpus : UInt32
  state : VmState
  createdSecs : UInt64
deriving DecidableEq, Repr

/-- The registry, by VM id. -/
abbrev Registry : Type := HashMap String VmRecord

/-! ## Requests -/

/-- `vm_id_from`. -/
def vmIdFrom (params : Value) : Except JsonRpcError String :=
  match (params.get "vmID").bind Value.asStr with
  | some id => .ok id
  | none => .error (.invalidParams "vmID missing")

/-- `first_str`. -/
def firstStr (p : Value) (keys : List String) : Option String :=
  keys.findSome? fun k => (p.get k).bind Value.asStr

/-- A `u64` given as a number or as a decimal string. -/
def readU64 (v : Value) : Option UInt64 :=
  v.asU64.or (v.asStr.bind fun s => (parseUnsigned (2 ^ 64 - 1) s).map UInt64.ofNat)

/-- `first_u64`. -/
def firstU64 (p : Value) (keys : List String) : Option UInt64 :=
  keys.findSome? fun k => (p.get k).bind readU64

/-- `DomainSpec`. -/
structure DomainSpec where
  uuid : String
  name : String
  memMb : UInt64
  vcpus : UInt32
deriving DecidableEq, Repr

/-- `DomainSpec::from_vm_params`. -/
def DomainSpec.fromVmParams (vmId : String) (params : Value) : DomainSpec :=
  let p := (params.get "vmParams").getD params
  -- `as u32` truncates
  let smp := ((firstU64 p ["smp", "maxVCpus"]).getD 1).toUInt32
  { uuid := vmId
    name := (firstStr p ["vmName"]).getD vmId
    memMb := (firstU64 p ["memSize"]).getD 1024
    vcpus := max smp 1 }

/-! ## Reports -/

/-- `record_to_stats`, at a time. -/
def recordToStats (now : UInt64) (r : VmRecord) : Value :=
  .object [("vmId", .string r.vmId), ("vmName", .string r.vmName),
    ("status", .string r.state.asEngineStr), ("memSize", .ofInt r.memSizeMb.toNat),
    ("vcpuCount", .ofInt r.vcpus.toNat),
    ("elapsedTime", .string (toString (now.toNat - r.createdSecs.toNat))),
    ("monitorResponse", .string "0"),
    ("displayInfo", .array [.object [("type", .string "vnc"), ("port", .string "5900"),
      ("ipAddress", .string "127.0.0.1")]]),
    ("kvmEnable", .string "true"), ("exitCode", .ofInt 0), ("exitMessage", .string ""),
    ("guestCPUCount", .ofInt (-1)), ("vmType", .string "kvm"), ("session", .string "Unknown"),
    ("clientIp", .string ""), ("username", .string ""), ("appsList", .array []),
    ("guestIPs", .string ""), ("guestFQDN", .string "")]

/-- The body of `get_all_vm_stats` after the reconciliation. -/
def allVmStats (now : UInt64) (reg : Registry) : List Value := reg.values.map (recordToStats now)

/-! ## Reconciliation -/

/-- The names in the output of `virsh list --name`. -/
def listedNames (out : String) : List String := ((lines out).map trim).filter (· ≠ "")

/-- What `virsh` answers about a domain name while the registry is locked, and the time of the
insertion. -/
structure Queries where
  domuuid : String → Option String
  dominfo : String → Option String
  now : String → UInt64

/-- The first line with this label, from `dominfo`. -/
def infoField (info label : String) : Option String :=
  (lines info).findSome? fun l => (stripPrefix l label).map trim

/-- The memory of a domain in MiB, from `dominfo`. -/
def infoMemMb (info : String) : UInt64 :=
  (((infoField info "Used memory:").bind fun s => (splitWhitespace s).head?).bind
    fun n => (parseUnsigned (2 ^ 64 - 1) n).map fun kb => UInt64.ofNat (kb / 1024)).getD 0

/-- The vcpus of a domain, from `dominfo`. -/
def infoVcpus (info : String) : UInt32 :=
  ((infoField info "CPU(s):").bind fun s => (parseUnsigned (2 ^ 32 - 1) s).map UInt32.ofNat).getD 1

/-- One turn of the insertion loop: a listed domain that the registry does not know gets a minimal
record. -/
def importDomain (q : Queries) (reg : Registry) (name : String) : Registry :=
  match q.domuuid name with
  | none => reg
  | some uuidOut =>
    let uuid := trim uuidOut
    if uuid = "" ∨ uuid ∈ reg then reg
    else
      let info := (q.dominfo name).getD ""
      reg.insert uuid ⟨uuid, name, infoMemMb info, infoVcpus info, .up, q.now name⟩

/-- Drop the records whose name is not listed, then import what is listed. -/
def reconcile (q : Queries) (names : List String) (reg : Registry) : Registry :=
  -- one write lock covers the retain and all imports
  names.foldl (importDomain q) (reg.retain fun _ r => names.contains r.vmName)

/-- `reconcile_from_libvirt` without interference: nothing when the list fails. -/
def reconcileFromLibvirt (q : Queries) (out : Option String) (reg : Registry) : Registry :=
  match out with
  | some out => reconcile q (listedNames out) reg
  | none => reg

/-- An import does nothing, or it inserts an `Up` record under a new id. -/
theorem importDomain_cases (q : Queries) (reg : Registry) (name : String) :
    importDomain q reg name = reg ∨
      ∃ r : VmRecord, r.vmId ∉ reg ∧ r.vmName = name ∧ r.state = .up ∧
        importDomain q reg name = reg.insert r.vmId r := by
  rw [importDomain]
  split
  · exact .inl rfl
  · simp only
    split
    · exact .inl rfl
    · rename_i uuidOut hd hnew
      let info := (q.dominfo name).getD ""
      refine .inr ⟨⟨trim uuidOut, name, infoMemMb info, infoVcpus info, .up, q.now name⟩, ?_⟩
      exact ⟨fun hmem => hnew (.inr hmem), rfl, rfl, rfl⟩

/-- An import leaves every record there is. -/
theorem lookup_importDomain {q : Queries} {reg : Registry} {name key : String} {r : VmRecord}
    (h : reg.lookup key = some r) : (importDomain q reg name).lookup key = some r := by
  rcases importDomain_cases q reg name with heq | ⟨new, hnew, -, -, heq⟩
  · rw [heq, h]
  · have hne : key ≠ new.vmId := by
      rintro rfl
      exact hnew (AList.lookup_isSome.mp (by simp [h]))
    rw [heq, AList.lookup_insert_ne hne, h]

/-- Importing never replaces a record. -/
theorem lookup_foldl_importDomain {q : Queries} {reg : Registry} {names : List String}
    {key : String} {r : VmRecord} (h : reg.lookup key = some r) :
    (names.foldl (importDomain q) reg).lookup key = some r := by
  induction names generalizing reg with
  | nil => exact h
  | cons n ns ih => exact ih (lookup_importDomain h)

/-- A record whose name is listed stays as it is. -/
theorem lookup_reconcile_of_listed {q : Queries} {names : List String} {reg : Registry}
    {key : String} {r : VmRecord} (h : reg.lookup key = some r) (hname : r.vmName ∈ names) :
    (reconcile q names reg).lookup key = some r := by
  refine lookup_foldl_importDomain ?_
  rw [HashMap.lookup_retain, h]
  simp [Option.filter, hname]

/-- `domuuid` answers for a name with this id. -/
def Queries.Finds (q : Queries) (name uuid : String) : Prop :=
  ∃ out, q.domuuid name = some out ∧ trim out = uuid ∧ uuid ≠ ""

instance (q : Queries) (name uuid : String) : Decidable (q.Finds name uuid) :=
  decidable_of_iff ((q.domuuid name).map trim = some uuid ∧ uuid ≠ "") <| by
    simp [Queries.Finds, Option.map_eq_some_iff, and_assoc, ← exists_and_right]

/-- An import leads to the id that was found. -/
theorem mem_importDomain {q : Queries} {reg : Registry} {name key : String} :
    key ∈ importDomain q reg name ↔ key ∈ reg ∨ q.Finds name key := by
  rw [importDomain, Queries.Finds]
  cases hout : q.domuuid name with
  | none => simp
  | some out =>
    dsimp only
    split
    · rename_i hknown
      constructor
      · exact .inl
      · rintro (hmem | ⟨out', heq, rfl, hne⟩)
        · exact hmem
        · obtain rfl := Option.some.inj heq
          exact hknown.resolve_left hne
    · rename_i hnew
      rw [AList.mem_insert]
      constructor
      · rintro (rfl | hmem)
        · exact .inr ⟨out, rfl, rfl, fun hempty => hnew (.inl hempty)⟩
        · exact .inl hmem
      · rintro (hmem | ⟨out', heq, rfl, -⟩)
        · exact .inr hmem
        · obtain rfl := Option.some.inj heq
          exact .inl rfl

/-- The imports lead to all ids that were found. -/
theorem mem_foldl_importDomain {q : Queries} {reg : Registry} {names : List String} {key : String} :
    key ∈ names.foldl (importDomain q) reg ↔ key ∈ reg ∨ ∃ n ∈ names, q.Finds n key := by
  induction names generalizing reg with
  | nil => simp
  | cons n ns ih =>
    rw [List.foldl_cons, ih, mem_importDomain, or_assoc]
    simp

/-- A record that an import makes: `Up`, under the id that its name led to. -/
structure Queries.Imports (q : Queries) (key : String) (r : VmRecord) : Prop where
  id : r.vmId = key
  up : r.state = .up
  found : q.Finds r.vmName key

/-- An import adds at most one record, under the listed name. -/
theorem lookup_importDomain_cases {q : Queries} {reg : Registry} {name key : String} {r : VmRecord}
    (h : (importDomain q reg name).lookup key = some r) :
    reg.lookup key = some r ∨ (key ∉ reg ∧ r.vmName = name ∧ q.Imports key r) := by
  rcases importDomain_cases q reg name with heq | ⟨new, hnew, hname, hup, heq⟩
  · exact .inl (heq ▸ h)
  · have hin : key ∈ importDomain q reg name := AList.lookup_isSome.mp (by simp [h])
    rw [heq] at h
    by_cases hk : key = new.vmId
    · subst hk
      rw [AList.lookup_insert] at h
      obtain rfl := Option.some.inj h
      have hfinds := (mem_importDomain.mp hin).resolve_left hnew
      exact .inr ⟨hnew, hname, rfl, hup, hname ▸ hfinds⟩
    · rw [AList.lookup_insert_ne hk] at h
      exact .inl h

/-- What the imports leave under an id: the old record, or a new one under a name that led to it. -/
theorem lookup_foldl_importDomain_cases {q : Queries} {reg : Registry} {names : List String}
    {key : String} {r : VmRecord} (h : (names.foldl (importDomain q) reg).lookup key = some r) :
    reg.lookup key = some r ∨ (key ∉ reg ∧ r.vmName ∈ names ∧ q.Imports key r) := by
  induction names generalizing reg with
  | nil => exact .inl h
  | cons n ns ih =>
    rcases ih h with hold | ⟨hnew, hmem, himports⟩
    · -- this turn of the loop inserted it, or it was there
      rcases lookup_importDomain_cases hold with hr | ⟨hkey, hname, himports⟩
      · exact .inl hr
      · exact .inr ⟨hkey, by simp [hname], himports⟩
    · exact .inr ⟨fun hkey => hnew (mem_importDomain.mpr (.inl hkey)), by simp [hmem], himports⟩

/-- What a reconciliation leaves: records whose names are listed, kept as they were where there was
one, and new ones elsewhere. -/
theorem lookup_reconcile_cases {q : Queries} {names : List String} {reg : Registry} {key : String}
    {r : VmRecord} (h : (reconcile q names reg).lookup key = some r) :
    r.vmName ∈ names ∧ (reg.lookup key = some r ∨
      (∀ r₀, reg.lookup key = some r₀ → r₀.vmName ∉ names) ∧ q.Imports key r) := by
  rcases lookup_foldl_importDomain_cases h with hold | ⟨hnew, hname, himports⟩
  · rw [HashMap.lookup_retain, Option.filter_eq_some_iff] at hold
    exact ⟨by simpa using hold.2, .inl hold.1⟩
  · refine ⟨hname, .inr ⟨fun r₀ hr₀ hmem => hnew ?_, himports⟩⟩
    rw [← AList.lookup_isSome, HashMap.lookup_retain, hr₀]
    simp [Option.filter, hmem]

end Vdsm.Virt
