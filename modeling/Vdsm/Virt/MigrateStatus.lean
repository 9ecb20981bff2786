import Vdsm.Lib.RustInt
import Vdsm.Virt.Registry

/-!
# The progress of a migration (`vdsm-virt/src/verbs.rs`, `vm_migrate_status`)

The verb reads the amounts of `virsh domjobinfo` as integers. `virsh` prints them with a fraction, as
in `1024.000 MiB`, so none of them parses and each counts as 0: the progress is 0 at every point of
the migration, and right only within the first percent.
-/

namespace Vdsm.Virt

open Rust

/-! ## The verb -/

/-- `data_total`, `data_processed` and `data_remaining`. -/
structure JobData where
  total : ℕ := 0
  processed : ℕ := 0
  remaining : ℕ := 0
deriving DecidableEq, Repr

/-- `v.split_whitespace().next().and_then(|s| s.parse().ok()).unwrap_or(0)`. -/
def jobAmount (v : String) : ℕ :=
  ((splitWhitespace v).head?.bind (parseUnsigned (2 ^ 64 - 1))).getD 0

/-- One turn of the loop over the lines. -/
def JobData.readLine (d : JobData) (line : String) : JobData :=
  let line := trim line
  match stripPrefix line "Data total:" with
  | some v => { d with total := jobAmount v }
  | none =>
    match stripPrefix line "Data processed:" with
    | some v => { d with processed := jobAmount v }
    | none =>
      match stripPrefix line "Data remaining:" with
      | some v => { d with remaining := jobAmount v }
      | none => d

def JobData.ofInfo (info : String) : JobData := (lines info).foldl JobData.readLine {}

/-- `(data_processed * 100 / data_total) as i64`. The product is checked, though a release build wraps,
since that it never overflows is part of what is shown. -/
def JobData.progress (d : JobData) : Option ℤ :=
  if 0 < d.total then (u64 (d.processed * 100)).map fun x => asI64 (x / d.total) else some 0

/-- `vm_migrate_status`, from the registry and the answers of `virsh domjobinfo`; `none` is an
overflow. -/
def vmMigrateStatus (domjobinfo : String → Option String) (reg : Registry) (params : Value) :
    Option (Except JsonRpcError Value) :=
  match vmIdFrom params with
  | .error e => some (.error e)
  | .ok vmId => do
    let name := ((reg.lookup vmId).map VmRecord.vmName).getD vmId
    let data := JobData.ofInfo ((domjobinfo name).getD "")
    let progress ← data.progress
    return .ok (.object [("status", .object [("code", .ofInt 0), ("message", .string "Done")]),
      ("progress", .ofInt progress), ("downtime", .ofInt 0),
      ("dataTotal", .string (toString data.total)),
      ("dataProcessed", .string (toString data.processed)),
      ("dataRemaining", .string (toString data.remaining))])

/-! ## What `virsh` prints -/

/-- The units of `domjobinfo`. -/
inductive ByteUnit where
  | b
  | kiB
  | miB
  | giB
  | tiB
deriving DecidableEq, Repr

def ByteUnit.text : ByteUnit → String
  | b => "B"
  | kiB => "KiB"
  | miB => "MiB"
  | giB => "GiB"
  | tiB => "TiB"

def ByteUnit.bytes : ByteUnit → ℕ
  | b => 1
  | kiB => 2 ^ 10
  | miB => 2 ^ 20
  | giB => 2 ^ 30
  | tiB => 2 ^ 40

/-- An amount as it is printed: a number of thousandths of its unit. -/
structure Amount where
  thousandths : ℕ
  unit : ByteUnit
deriving DecidableEq, Repr

/-- The amount in thousandths of a byte. -/
def Amount.milliBytes (a : Amount) : ℕ := a.thousandths * a.unit.bytes

/-- The decimal number with its three fraction digits. -/
def Amount.number (a : Amount) : String :=
  toString (a.thousandths / 1000) ++ "." ++
    String.ofList [Nat.digitChar (a.thousandths / 100 % 10), Nat.digitChar (a.thousandths / 10 % 10),
      Nat.digitChar (a.thousandths % 10)]

/-- The output has a line with this label, and what such a line has behind the label is the number
and the unit of the amount. -/
structure Reports (info label : String) (a : Amount) : Prop where
  present : ∃ line ∈ lines info, (stripPrefix (trim line) label).isSome
  amount : ∀ line ∈ lines info, ∀ v, stripPrefix (trim line) label = some v →
    splitWhitespace v = [a.number, a.unit.text]

example : Amount.number ⟨1024500, .miB⟩ = "1024.500" := by decide

/-! ## What the verb makes of it -/

/-- A number with a fraction is no integer. -/
theorem parseUnsigned_of_dot {max : ℕ} {s : String} (h : '.' ∈ s.toList) :
    parseUnsigned max s = none := by
  have hdigits : ∀ l : List Char, '.' ∈ l → ¬ (l ≠ [] ∧ l.all Char.isDigit) := by
    rintro l hmem ⟨-, hall⟩
    exact absurd (List.all_eq_true.mp hall '.' hmem) (by decide)
  simp only [parseUnsigned]
  rw [if_neg]
  split
  · rename_i rest heq
    exact hdigits rest (by simpa [heq] using h)
  · exact hdigits _ h

/-- A number with a fraction is no `u64`, so the amount counts as 0. -/
theorem jobAmount_eq_zero {v : String} {a : Amount} {unit : String}
    (h : splitWhitespace v = [a.number, unit]) : jobAmount v = 0 := by
  have hdot : '.' ∈ a.number.toList := by simp [Amount.number]
  rw [jobAmount, h, List.head?_cons, Option.bind_some, parseUnsigned_of_dot hdot]
  rfl

/-- A line leaves a total of 0. -/
theorem JobData.readLine_total {d : JobData} {line : String} (hd : d.total = 0)
    (h : ∀ v, stripPrefix (trim line) "Data total:" = some v → jobAmount v = 0) :
    (d.readLine line).total = 0 := by
  rw [readLine]
  split
  · rename_i v hv
    exact h v hv
  · split
    · exact hd
    · split
      · exact hd
      · exact hd

/-- If no line gives a total, it stays 0. -/
theorem JobData.foldl_readLine_total {ls : List String} {d : JobData} (hd : d.total = 0)
    (h : ∀ line ∈ ls, ∀ v, stripPrefix (trim line) "Data total:" = some v → jobAmount v = 0) :
    (ls.foldl readLine d).total = 0 := by
  induction ls generalizing d with
  | nil => exact hd
  | cons line ls ih =>
    rw [List.foldl_cons]
    refine ih (readLine_total hd (h line (by simp))) ?_
    intro l hl
    exact h l (by simp [hl])

/-- The progress of an output with a total is 0. -/
theorem progress_ofInfo {info : String} {t : Amount} (h : Reports info "Data total:" t) :
    (JobData.ofInfo info).progress = some 0 := by
  have htotal : (JobData.ofInfo info).total = 0 :=
    JobData.foldl_readLine_total rfl fun line hline v hv =>
      jobAmount_eq_zero (h.amount line hline v hv)
  rw [JobData.progress, htotal, if_neg (Nat.lt_irrefl 0)]

/-- The verb returns a progress of 0. -/
theorem vmMigrateStatus_zero {domjobinfo : String → Option String} {reg : Registry}
    {params : Value} {vmId info : String} {total : Amount} (hid : vmIdFrom params = .ok vmId)
    (hinfo : domjobinfo (((reg.lookup vmId).map VmRecord.vmName).getD vmId) = some info)
    (htotal : Reports info "Data total:" total) :
    ∃ fields, vmMigrateStatus domjobinfo reg params = some (.ok (.object fields)) ∧
      ((Value.object fields).get "progress").bind Value.asI64 = some 0 := by
  simp only [vmMigrateStatus, hid, hinfo, Option.getD_some, progress_ofInfo htotal,
    Option.bind_eq_bind, Option.bind_some]
  exact ⟨_, rfl, rfl⟩

/-- The reply has the true percentage of the amounts as its progress. -/
def TruePercentage (reply : Option (Except JsonRpcError Value)) (processed total : Amount) : Prop :=
  ∃ v progress, reply = some (.ok v) ∧ (v.get "progress").bind Value.asI64 = some progress ∧
    progress = (100 * processed.milliBytes / total.milliBytes : ℕ) ∧ 0 ≤ progress ∧ progress ≤ 100

/-- Migration progress. For every output of `domjobinfo` that reports a positive total and the amount
processed, the verb returns without an overflow, and the progress it returns is the true percentage
exactly if less than one percent is processed. -/
theorem migrate_progress_iff (domjobinfo : String → Option String) (reg : Registry)
    (params : Value) (vmId info : String) (total processed : Amount)
    (hid : vmIdFrom params = .ok vmId)
    (hinfo : domjobinfo (((reg.lookup vmId).map VmRecord.vmName).getD vmId) = some info)
    (htotal : Reports info "Data total:" total)
    (_hprocessed : Reports info "Data processed:" processed)
    (hpos : 0 < total.milliBytes) :
    (vmMigrateStatus domjobinfo reg params).isSome ∧
      (TruePercentage (vmMigrateStatus domjobinfo reg params) processed total ↔
        100 * processed.milliBytes < total.milliBytes) := by
  obtain ⟨fields, hreply, hzero⟩ := vmMigrateStatus_zero hid hinfo htotal
  refine ⟨by rw [hreply]; rfl, ?_⟩
  rw [← Nat.div_eq_zero_iff_lt hpos]
  constructor
  · rintro ⟨v, progress, hv, hprogress, htrue, -, -⟩
    rw [hreply] at hv
    obtain rfl := Except.ok.inj (Option.some.inj hv)
    rw [hzero] at hprogress
    have hp := Option.some.inj hprogress
    omega
  · intro hlow
    refine ⟨_, 0, hreply, hzero, ?_, Int.le_refl 0, by decide⟩
    rw [hlow]
    rfl

/-- Whether an output reports an amount, by evaluation. -/
def reports (info label : String) (a : Amount) : Bool :=
  let values := (lines info).filterMap fun line => stripPrefix (trim line) label
  !values.isEmpty && values.all fun v => splitWhitespace v == [a.number, a.unit.text]

/-- The evaluation decides. -/
theorem reports_of_eq_true {info label : String} {a : Amount} (h : reports info label a = true) :
    Reports info label a := by
  simp only [reports, Bool.and_eq_true, Bool.not_eq_true', List.isEmpty_eq_false_iff_exists_mem,
    List.all_eq_true, List.mem_filterMap, beq_iff_eq] at h
  obtain ⟨⟨v, line, hline, hv⟩, hall⟩ := h
  exact ⟨⟨line, hline, by rw [hv]; rfl⟩, fun line hline v hv => hall v ⟨line, hline, hv⟩⟩

def migratingParams : Value := .object [("vmID", .string "vm")]

/-- A migration that has only begun. -/
def begunInfo : String := "Data processed: 4.000 MiB\nData total: 1.000 GiB\n"

/-- A migration within its first percent is reported right. -/
theorem migrate_progress_begun :
    TruePercentage (vmMigrateStatus (fun _ => some begunInfo) ∅ migratingParams) ⟨4000, .miB⟩
      ⟨1000, .giB⟩ := by
  have htotal : Reports begunInfo "Data total:" ⟨1000, .giB⟩ :=
    reports_of_eq_true (by decide +kernel)
  have hprocessed : Reports begunInfo "Data processed:" ⟨4000, .miB⟩ :=
    reports_of_eq_true (by decide +kernel)
  exact (migrate_progress_iff _ ∅ migratingParams "vm" begunInfo _ _ rfl rfl htotal hprocessed
    (by decide)).2.mpr (by decide)

/-- A migration that is half done. -/
def halfwayInfo : String := "Data processed: 512.000 MiB\nData total: 1.000 GiB\n"

/-- The progress of a migration that is half done is 0. -/
theorem halfway_reports_zero :
    Reports halfwayInfo "Data total:" ⟨1000, .giB⟩ ∧
      Reports halfwayInfo "Data processed:" ⟨512000, .miB⟩ ∧
      100 * Amount.milliBytes ⟨512000, .miB⟩ / Amount.milliBytes ⟨1000, .giB⟩ = 50 ∧
      ¬ TruePercentage (vmMigrateStatus (fun _ => some halfwayInfo) ∅ migratingParams)
        ⟨512000, .miB⟩ ⟨1000, .giB⟩ := by
  have htotal : Reports halfwayInfo "Data total:" ⟨1000, .giB⟩ :=
    reports_of_eq_true (by decide +kernel)
  refine ⟨htotal, reports_of_eq_true (by decide +kernel), by decide, ?_⟩
  rintro ⟨v, progress, hv, hprogress, htrue, -, -⟩
  obtain ⟨fields, hreply, hzero⟩ :
      ∃ fields, vmMigrateStatus (fun _ => some halfwayInfo) ∅ migratingParams =
        some (.ok (.object fields)) ∧
        ((Value.object fields).get "progress").bind Value.asI64 = some 0 :=
    vmMigrateStatus_zero rfl rfl htotal
  rw [hreply] at hv
  obtain rfl := Except.ok.inj (Option.some.inj hv)
  rw [hzero] at hprogress
  obtain rfl := Option.some.inj hprogress
  exact absurd htrue (by decide)

end Vdsm.Virt
