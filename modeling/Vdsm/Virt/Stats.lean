import Vdsm.Virt.PostState

/-!
# One VM and all of them (`vdsm-virt/src/verbs.rs`, `vm_get_stats`)

`VM.getStats` looks a VM up by its id, `Host.getAllVmStats` goes through the records and reports the
ids they hold. The two agree because a record stands under its own id in every state that the verbs
reach, in whatever order their tasks take turns: `vm_stats_agree`.
-/

namespace Vdsm.Virt

open Rust Transition

/-- The answer about a VM that is not registered. -/
def downStats (vmId : String) : Value :=
  .object [("vmId", .string vmId), ("status", .string "Down")]

def statsList (stats : List Value) : Value := .object [("statsList", .array stats)]

/-- `vm_get_stats`, at a time. -/
def vmGetStats (now : UInt64) (reg : Registry) (params : Value) : Except JsonRpcError Value :=
  match vmIdFrom params with
  | .error e => .error e
  | .ok vmId =>
    .ok (statsList [((reg.lookup vmId).map (recordToStats now)).getD (downStats vmId)])

/-- The id that an entry is about. -/
def statsId (stats : Value) : Option String := (stats.get "vmId").bind Value.asStr

/-- The statistics of a record have its id. -/
theorem statsId_recordToStats (now : UInt64) (r : VmRecord) :
    statsId (recordToStats now r) = some r.vmId :=
  rfl

/-- Of a VM that is registered its record is reported. -/
theorem vmGetStats_of_lookup {now : UInt64} {reg : Registry} {params : Value} {vmId : String}
    {r : VmRecord} (hid : vmIdFrom params = .ok vmId) (hr : reg.lookup vmId = some r) :
    vmGetStats now reg params = .ok (statsList [recordToStats now r]) := by
  rw [vmGetStats, hid]
  dsimp only
  rw [hr]
  rfl

/-- Any other one is reported as down. -/
theorem vmGetStats_of_none {now : UInt64} {reg : Registry} {params : Value} {vmId : String}
    (hid : vmIdFrom params = .ok vmId) (hr : reg.lookup vmId = none) :
    vmGetStats now reg params = .ok (statsList [downStats vmId]) := by
  rw [vmGetStats, hid]
  dsimp only
  rw [hr]
  rfl

/-- The entries are those of the records, each found under its own id. -/
theorem mem_allVmStats {now : UInt64} {reg : Registry} (hkeyed : Keyed reg) {s : Value} :
    s ∈ allVmStats now reg ↔ ∃ r, reg.lookup r.vmId = some r ∧ recordToStats now r = s := by
  rw [allVmStats, List.mem_map]
  constructor
  · rintro ⟨r, hr, rfl⟩
    obtain ⟨e, he, rfl⟩ := List.mem_map.mp hr
    have hlookup : reg.lookup e.1 = some e.2 := AList.mem_lookup_iff.mpr he
    exact ⟨e.2, (hkeyed _ _ hlookup).symm ▸ hlookup, rfl⟩
  · rintro ⟨r, hr, rfl⟩
    exact ⟨r, HashMap.mem_values_of_lookup hr, rfl⟩

/-- No two entries are about one VM. -/
theorem nodup_statsId {now : UInt64} {reg : Registry} (hkeyed : Keyed reg) :
    ((allVmStats now reg).map statsId).Nodup := by
  have hids : (allVmStats now reg).map statsId = reg.keys.map some := by
    rw [allVmStats, HashMap.values, AList.keys, List.keys, List.map_map, List.map_map, List.map_map]
    refine List.map_congr_left fun e he => ?_
    exact congrArg some (hkeyed _ _ (AList.mem_lookup_iff.mpr he))
  rw [hids]
  exact reg.keys_nodup.map fun _ _ h => Option.some.inj h

/-- In every state reached the records have their own ids. -/
theorem run_keyed {v : Virsh} {w w' : World} {labels : List Label} (h0 : w.Fresh)
    (hrun : run (step v) w labels = some w') : Keyed w'.core.registry := by
  have hinit : Keyed w.core.registry := h0.no_records ▸ HashMap.Forall.empty
  refine run_invariant (P := fun _ _ => True) (fun _ _ _ hs _ hstep => step_keyed hs hstep) hinit ?_ hrun
  exact allSteps_of_forall fun _ _ => trivial

/-- The two reports agree, in every state that a run of the verbs reaches and at every time. No two
entries of `getAllVmStats` are about one VM. `VM.getStats` answers with the entry about the VM if there
is one, else that the VM is down, and every entry is the answer about its VM. -/
theorem vm_stats_agree (v : Virsh) (w w' : World) (labels : List Label) (h0 : w.Fresh)
    (hrun : run (step v) w labels = some w') (now : UInt64) :
    let all := allVmStats now w'.core.registry
    (all.map statsId).Nodup ∧
      (∀ params vmId, vmIdFrom params = .ok vmId →
        ∃ s, vmGetStats now w'.core.registry params = .ok (statsList [s]) ∧
          statsId s = some vmId ∧
          (s ∈ all ∨ s = downStats vmId ∧ ∀ s' ∈ all, statsId s' ≠ some vmId)) ∧
      ∀ s ∈ all, ∃ vmId, statsId s = some vmId ∧ ∀ params, vmIdFrom params = .ok vmId →
        vmGetStats now w'.core.registry params = .ok (statsList [s]) := by
  have hkeyed := run_keyed h0 hrun
  refine ⟨nodup_statsId hkeyed, ?_, ?_⟩
  · intro params vmId hid
    cases hr : w'.core.registry.lookup vmId with
    | some r =>
      have hown : r.vmId = vmId := hkeyed _ _ hr
      refine ⟨recordToStats now r, vmGetStats_of_lookup hid hr, ?_, .inl ?_⟩
      · rw [statsId_recordToStats, hown]
      · exact (mem_allVmStats hkeyed).mpr ⟨r, hown.symm ▸ hr, rfl⟩
    | none =>
      refine ⟨downStats vmId, vmGetStats_of_none hid hr, rfl, .inr ⟨rfl, fun s' hs' hs => ?_⟩⟩
      obtain ⟨r, hlookup, rfl⟩ := (mem_allVmStats hkeyed).mp hs'
      rw [statsId_recordToStats, Option.some.injEq] at hs
      rw [hs, hr] at hlookup
      cases hlookup
  · intro s hs
    obtain ⟨r, hlookup, rfl⟩ := (mem_allVmStats hkeyed).mp hs
    exact ⟨r.vmId, rfl, fun params hid => vmGetStats_of_lookup hid hlookup⟩

/-- After a create there is an entry, and it is the answer about the VM. -/
theorem vm_stats_agree_created :
    run (step sampleVirsh) idleWorld (createLabels sampleParams) = some createdWorld ∧
      ∃ s, allVmStats 0 createdWorld.core.registry = [s] ∧ statsId s = some sampleId ∧
        vmGetStats 0 createdWorld.core.registry sampleParams = .ok (statsList [s]) := by
  have hrun := run_eq_getD idleWorld (createLabels sampleParams) (by decide)
  obtain ⟨-, -, hentries⟩ :=
    vm_stats_agree sampleVirsh idleWorld createdWorld _ idleWorld_fresh hrun 0
  obtain ⟨s, hone⟩ : ∃ s, allVmStats 0 createdWorld.core.registry = [s] := ⟨_, rfl⟩
  have hmem : s ∈ allVmStats 0 createdWorld.core.registry := by simp [hone]
  obtain ⟨vmId, hid, hanswer⟩ := hentries s hmem
  obtain rfl : vmId = sampleId := by
    have hentry : (allVmStats 0 createdWorld.core.registry).map statsId = [some sampleId] := by decide
    rw [hone, List.map_singleton, hid] at hentry
    simpa using hentry
  exact ⟨hrun, s, hone, hid, hanswer sampleParams rfl⟩

end Vdsm.Virt
