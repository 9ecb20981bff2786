import Vdsm.Virt.DomainXml
import Vdsm.Virt.Watchdog

/-!
# The sizes of a created VM (`vdsm-virt/src/domain_xml.rs`, `verbs.rs`)

`VM.create` reads a number of vCPUs and a memory size from its request and hands them on twice, in the
domain XML and in the registry's record. The memory stays a `u64` all the way. The vCPUs go through
`as u32`, and `max(1)` turns what that makes of a multiple of 2³² into a plausible 1.
-/

namespace Vdsm.Virt

open Rust

/-! ## What a request asks for -/

/-- The value is this `u64`, as a number or as a decimal string. -/
inductive IsU64 : Value → UInt64 → Prop
  | number (n : UInt64) : IsU64 (.number (.posInt n)) n
  | string (s : String) (n : UInt64) (h : parseUnsigned (2 ^ 64 - 1) s = some n.toNat) :
    IsU64 (.string s) n

/-- `vmParams` asks for `n` vCPUs, by `smp` or where that is absent or unreadable by `maxVCpus`, and
for the memory `m`. -/
structure AsksFor (vmParams : Value) (n m : UInt64) : Prop where
  vcpus : (∃ v, vmParams.get "smp" = some v ∧ IsU64 v n) ∨
    (∀ v, vmParams.get "smp" = some v → ∀ k, ¬ IsU64 v k) ∧
      ∃ v, vmParams.get "maxVCpus" = some v ∧ IsU64 v n
  memory : ∃ v, vmParams.get "memSize" = some v ∧ IsU64 v m

/-- A number is read from a JSON number or from decimal text. -/
theorem readU64_eq_some {v : Value} {n : UInt64} : readU64 v = some n ↔ IsU64 v n := by
  constructor
  · intro h
    cases v with
    | number k =>
      cases k with
      | posInt k =>
        obtain rfl : k = n := by simpa [readU64, Value.asU64] using h
        exact .number k
      | negInt m => simp [readU64, Value.asU64, Value.asStr] at h
      | float bits => simp [readU64, Value.asU64, Value.asStr] at h
    | string s =>
      obtain ⟨k, hk, rfl⟩ : ∃ k, parseUnsigned (2 ^ 64 - 1) s = some k ∧ UInt64.ofNat k = n := by
        simpa [readU64, Value.asU64, Value.asStr] using h
      have hle := parseUnsigned_le hk
      refine .string s _ ?_
      rw [hk, UInt64.toNat_ofNat_of_lt' (by simpa [UInt64.size] using Nat.lt_succ_of_le hle)]
    | null => simp [readU64, Value.asU64, Value.asStr] at h
    | bool b => simp [readU64, Value.asU64, Value.asStr] at h
    | array xs => simp [readU64, Value.asU64, Value.asStr] at h
    | object fields => simp [readU64, Value.asU64, Value.asStr] at h
  · intro h
    cases h with
    | number n => rfl
    | string s n h =>
      have hread : readU64 (.string s) =
        (parseUnsigned (2 ^ 64 - 1) s).map UInt64.ofNat := rfl
      rw [hread, h, Option.map_some, UInt64.ofNat_toNat]

/-- The first key that has a number gives it. -/
theorem firstU64_cons {p : Value} {key : String} {keys : List String} :
    firstU64 p (key :: keys) = ((p.get key).bind readU64).or (firstU64 p keys) := by
  rw [firstU64, List.findSome?_cons]
  cases (p.get key).bind readU64 <;> rfl

/-- `first_u64` finds what the request asks for. -/
theorem AsksFor.reads {p : Value} {n m : UInt64} (h : AsksFor p n m) :
    firstU64 p ["smp", "maxVCpus"] = some n ∧ firstU64 p ["memSize"] = some m := by
  constructor
  · rw [firstU64_cons, firstU64_cons]
    obtain ⟨v, hv, hn⟩ | ⟨hno, v, hv, hn⟩ := h.vcpus
    · rw [hv, Option.bind_some, readU64_eq_some.mpr hn]
      rfl
    · have hsmp : (p.get "smp").bind readU64 = none := by
        rw [Option.bind_eq_none_iff]
        intro v hv
        rw [Option.eq_none_iff_forall_ne_some]
        intro k hk
        exact hno v hv k (readU64_eq_some.mp hk)
      rw [hsmp, hv, Option.bind_some, readU64_eq_some.mpr hn]
      rfl
  · obtain ⟨v, hv, hm⟩ := h.memory
    rw [firstU64_cons, hv, Option.bind_some, readU64_eq_some.mpr hm]
    rfl

/-! ## What the VM gets -/

/-- The request's `vmParams`, or the request itself. -/
def vmParamsOf (params : Value) : Value := (params.get "vmParams").getD params

/-- A count of vCPUs is never below one. -/
theorem toNat_max_one (a : UInt32) : (max a 1).toNat = max a.toNat 1 := by
  have hmax : max a 1 = if a ≤ 1 then 1 else a := rfl
  have hle : a ≤ 1 ↔ a.toNat ≤ 1 := UInt32.le_iff_toNat_le
  rw [hmax]
  by_cases h : a ≤ 1
  · rw [if_pos h, UInt32.toNat_one, Nat.max_eq_right (hle.mp h)]
  · rw [if_neg h, Nat.max_eq_left (Nat.le_of_not_le fun hn => h (hle.mpr hn))]

/-- The vCPUs after `as u32` and `max(1)`, and the memory. -/
theorem AsksFor.spec {params : Value} {n m : UInt64} (h : AsksFor (vmParamsOf params) n m)
    (vmId : String) :
    (DomainSpec.fromVmParams vmId params).vcpus.toNat = max (n.toNat % 2 ^ 32) 1 ∧
      (DomainSpec.fromVmParams vmId params).memMb = m := by
  obtain ⟨hn, hm⟩ := h.reads
  have hspec : DomainSpec.fromVmParams vmId params =
      ⟨vmId, (firstStr (vmParamsOf params) ["vmName"]).getD vmId,
        (firstU64 (vmParamsOf params) ["memSize"]).getD 1024,
        max ((firstU64 (vmParamsOf params) ["smp", "maxVCpus"]).getD 1).toUInt32 1⟩ := rfl
  rw [hspec, hn, hm]
  refine ⟨?_, rfl⟩
  rw [Option.getD_some]
  exact (toNat_max_one n.toUInt32).trans (by rw [UInt64.toNat_toUInt32])

/-- Narrowing to 32 bits keeps the count exactly if it fits. -/
theorem max_mod_eq_iff (n : ℕ) : max (n % 2 ^ 32) 1 = max 1 n ↔ n < 2 ^ 32 := by omega

/-- One `Answer` for the only task there is. -/
def advance (v : Virsh) (s : Core × List Task) (a : Answer) : Option (Core × List Task) :=
  match s.2 with
  | [task] => some (exec v a task s.1)
  | _ => none

/-- `vm_create` without interference, up to the insertion of the record: the answers to `virsh define`
and `virsh start`, and the time. `none` where one of the commands fails. -/
def vmCreate (v : Virsh) (define start insert : Answer) (params : Value) (c : Core) :
    Option (Core × List Task) :=
  [define, start, insert].foldlM (advance v) (call .create params c)

/-- Behind `virsh define` comes `virsh start`, for the same spec. -/
theorem advance_createDefine {v : Virsh} {a a' : Answer} {vmId : String} {spec : DomainSpec}
    {c : Core} {r : Core × List Task}
    (h : advance v (exec v a (.createDefine vmId spec) c) a' = some r) :
    ∃ c', r = exec v a' (.createStart vmId spec) c' := by
  rw [exec] at h
  cases hdefine : a.command (c.table.define v spec.name spec.uuid) with
  | none => simp [hdefine, advance] at h
  | some t => exact ⟨{ c with table := t }, by simpa [hdefine, advance, eq_comm] using h⟩

/-- What follows the start of a new VM is its record. -/
theorem advance_createStart {v : Virsh} {a a' : Answer} {vmId : String} {spec : DomainSpec}
    {c : Core} {r : Core × List Task}
    (h : advance v (exec v a (.createStart vmId spec) c) a' = some r) :
    ∃ c', r = exec v a' (.createInsert vmId spec) c' := by
  rw [exec] at h
  cases hstart : a.command (c.table.start v spec.name (c.starts + 1)) with
  | none => simp [hstart, advance] at h
  | some t =>
    refine ⟨{ c with table := t, starts := c.starts + 1 }, ?_⟩
    simpa [hstart, advance, eq_comm] using h

/-- A create that goes through stores the record of its spec. -/
theorem vmCreate_record {v : Virsh} {a₁ a₂ a₃ : Answer} {params : Value} {vmId : String}
    {c : Core} {r : Core × List Task} (hid : vmIdFrom params = .ok vmId)
    (h : vmCreate v a₁ a₂ a₃ params c = some r) :
    r.1.registry.lookup vmId =
      let spec := DomainSpec.fromVmParams vmId params
      some ⟨vmId, spec.name, spec.memMb, spec.vcpus, .up, a₃.now⟩ := by
  have hcall : call .create params c =
      (c, [.createDefine vmId (DomainSpec.fromVmParams vmId params)]) := by
    simp [call, hid]
  simp only [vmCreate, hcall, List.foldlM_cons, List.foldlM_nil, Option.bind_eq_bind,
    Option.bind_eq_some_iff] at h
  obtain ⟨s₁, h₁, s₂, h₂, s₃, h₃, hr⟩ := h
  obtain rfl := Option.some.inj hr
  obtain rfl := Option.some.inj h₁
  obtain ⟨c₁, rfl⟩ := advance_createDefine h₂
  obtain ⟨c₂, rfl⟩ := advance_createStart h₃
  exact AList.lookup_insert _

/-- The sizes that were asked for are in the domain XML, in the holes for them, and in the stored
record. -/
structure SizesKept (spec : DomainSpec) (record : Option VmRecord) (n m : UInt64) : Prop where
  xml : spec.toXml =
    render (xmlEscape spec.name) spec.uuid (toString m.toNat) (toString (max 1 n.toNat))
  record : ∃ r, record = some r ∧ r.vcpus.toNat = max 1 n.toNat ∧ r.memSizeMb = m

/-- Requested sizes and the vCPU limit. For every request that asks for `n` vCPUs and the memory `m`,
and every create that goes through, the domain XML and the stored record have `max(1, n)` vCPUs and
the memory `m` exactly if `n` fits in 32 bits. -/
theorem create_sizes_kept_iff (v : Virsh) (a₁ a₂ a₃ : Answer) (params : Value) (vmId : String)
    (c : Core) (r : Core × List Task) (n m : UInt64) (hid : vmIdFrom params = .ok vmId)
    (hasks : AsksFor (vmParamsOf params) n m) (hcreate : vmCreate v a₁ a₂ a₃ params c = some r) :
    SizesKept (DomainSpec.fromVmParams vmId params) (r.1.registry.lookup vmId) n m ↔
      n.toNat < 2 ^ 32 := by
  obtain ⟨hvcpus, hmem⟩ := hasks.spec vmId
  have hrecord := vmCreate_record hid hcreate
  rw [← max_mod_eq_iff]
  constructor
  · intro h
    obtain ⟨rec, hrec, hcount, -⟩ := h.record
    rw [hrecord] at hrec
    obtain rfl := Option.some.inj hrec
    rw [← hvcpus]
    exact hcount
  · intro h
    refine ⟨?_, _, hrecord, hvcpus.trans h, hmem⟩
    rw [← h, ← hvcpus, ← hmem]
    rfl

/-- Asks for more vCPUs than fit in 32 bits, and for two on a 32-bit reading. -/
def wideParams : Value :=
  .object [("vmID", .string sampleId), ("vmParams", .object [("vmName", .string "vm"),
    ("smp", .string "4294967298"), ("memSize", .number (.posInt 2048))])]

def fourParams : Value :=
  .object [("vmID", .string sampleId), ("vmParams", .object [("vmName", .string "vm"),
    ("smp", .string "no number"), ("maxVCpus", .string "4"),
    ("memSize", .number (.posInt 2048))])]

/-- The request asks for that many vCPUs. -/
theorem wideParams_asks : AsksFor (vmParamsOf wideParams) 4294967298 2048 :=
  ⟨.inl ⟨_, rfl, .string _ _ (by decide)⟩, _, rfl, .number _⟩

/-- The request falls back to its second key. -/
theorem fourParams_asks : AsksFor (vmParamsOf fourParams) 4 2048 := by
  refine ⟨.inr ⟨?_, _, rfl, .string _ _ (by decide)⟩, _, rfl, .number _⟩
  intro w hw k hk
  obtain rfl : Value.string "no number" = w := Option.some.inj hw
  cases hk with
  | string s n h =>
    have hno : parseUnsigned (2 ^ 64 - 1) "no number" = none := by decide
    rw [hno] at h
    cases h

/-- Four vCPUs and 2048 MiB, as they were asked for. -/
theorem create_sizes_kept_four :
    ∃ r, vmCreate sampleVirsh works works works fourParams idleWorld.core = some r ∧
      SizesKept (DomainSpec.fromVmParams sampleId fourParams) (r.1.registry.lookup sampleId) 4
        2048 := by
  obtain ⟨r, hr⟩ : ∃ r, vmCreate sampleVirsh works works works fourParams idleWorld.core = some r :=
    Option.isSome_iff_exists.mp (by decide)
  exact ⟨r, hr, (create_sizes_kept_iff sampleVirsh works works works fourParams sampleId
    idleWorld.core r 4 2048 rfl fourParams_asks hr).mpr (by decide)⟩

/-- The VM of a request for 2³² + 2 vCPUs gets two. -/
theorem wideParams_truncated :
    AsksFor (vmParamsOf wideParams) 4294967298 2048 ∧
      ∃ r, vmCreate sampleVirsh works works works wideParams idleWorld.core = some r ∧
        (r.1.registry.lookup sampleId).map VmRecord.vcpus = some 2 ∧
        ¬ SizesKept (DomainSpec.fromVmParams sampleId wideParams) (r.1.registry.lookup sampleId)
          4294967298 2048 := by
  refine ⟨wideParams_asks, ?_⟩
  obtain ⟨r, hr⟩ : ∃ r, vmCreate sampleVirsh works works works wideParams idleWorld.core = some r :=
    Option.isSome_iff_exists.mp (by decide)
  have hid : vmIdFrom wideParams = .ok sampleId := rfl
  have hrecord := vmCreate_record hid hr
  have hvcpus : (DomainSpec.fromVmParams sampleId wideParams).vcpus = 2 := by decide
  refine ⟨r, hr, by rw [hrecord, Option.map_some, hvcpus], fun h => ?_⟩
  obtain ⟨rec, hrec, hcount, -⟩ := h.record
  rw [hrecord] at hrec
  obtain rfl := Option.some.inj hrec
  rw [hvcpus] at hcount
  exact absurd hcount (by decide)

end Vdsm.Virt
