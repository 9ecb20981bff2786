import Vdsm.Lib.RustStr
import Mathlib.Data.List.Nodup

/-!
# libvirt, as far as the VM verbs see it

The domains of a host and what the `virsh` commands of `vdsm-virt` do to them. libvirt keeps names
and uuids distinct; a `Table` carries both facts. Each start of a domain is a new incarnation, and
its number is the domain's id while it is active.

How `virsh` reads a domain argument is a parameter: an active domain's id comes before a uuid, and a
uuid before a name.
-/

namespace Vdsm.Virt

open Rust

/-- The states of a domain that the verbs distinguish. -/
inductive Status where
  | running
  | paused
  | shutOff
deriving DecidableEq, Repr

/-- A domain. A transient one is forgotten when it stops. -/
structure Domain where
  name : String
  uuid : String
  status : Status
  id : ℕ
  persistent : Bool
deriving DecidableEq, Repr

/-- Running or paused. -/
def Domain.active (d : Domain) : Bool := d.status != .shutOff

/-- How `virsh` reads its arguments: a domain id, a uuid on the command line, a uuid in XML. -/
structure Virsh where
  argId : String → Option ℕ
  argUuid : String → Option String
  xmlUuid : String → Option String

/-- Does an argument name this domain, in one of the three ways? -/
def Domain.AnswersTo (v : Virsh) (d : Domain) (key : String) : Prop :=
  v.argId key = some d.id ∨ v.argUuid key = some d.uuid ∨ d.name = key

instance (v : Virsh) (d : Domain) (key : String) : Decidable (d.AnswersTo v key) :=
  inferInstanceAs (Decidable (_ ∨ _ ∨ _))

/-- The domains of a host. -/
structure Table where
  domains : List Domain
  uuids_nodup : (domains.map Domain.uuid).Nodup
  names_nodup : (domains.map Domain.name).Nodup

namespace Table

instance : Membership Domain Table where
  mem t d := d ∈ t.domains

/-- No domains. -/
def empty : Table := ⟨[], by simp, by simp⟩

/-! ## Changing a table -/

/-- What a command can change about a domain. -/
structure Change where
  status : Status
  id : ℕ
  persistent : Bool

/-- A domain after a change: its name and uuid stay. -/
def Change.apply (c : Change) (d : Domain) : Domain :=
  { d with status := c.status, id := c.id, persistent := c.persistent }

/-- Change the domain with this uuid. -/
def update (t : Table) (uuid : String) (c : Change) : Table where
  domains := t.domains.map fun d => if d.uuid = uuid then c.apply d else d
  uuids_nodup := by
    have h : (fun d : Domain => (if d.uuid = uuid then c.apply d else d).uuid) = Domain.uuid := by
      funext d
      split <;> rfl
    simpa [Function.comp_def, h] using t.uuids_nodup
  names_nodup := by
    have h : (fun d : Domain => (if d.uuid = uuid then c.apply d else d).name) = Domain.name := by
      funext d
      split <;> rfl
    simpa [Function.comp_def, h] using t.names_nodup

/-- Forget the domain with this uuid. -/
def remove (t : Table) (uuid : String) : Table where
  domains := t.domains.filter fun d => d.uuid ≠ uuid
  uuids_nodup := t.uuids_nodup.sublist (List.filter_sublist.map _)
  names_nodup := t.names_nodup.sublist (List.filter_sublist.map _)

/-- A new domain, under a name and a uuid that are free. -/
def add (t : Table) (d : Domain) (huuid : ∀ e ∈ t.domains, e.uuid ≠ d.uuid)
    (hname : ∀ e ∈ t.domains, e.name ≠ d.name) : Table where
  domains := t.domains ++ [d]
  uuids_nodup := by
    rw [List.map_append, List.nodup_append]
    refine ⟨t.uuids_nodup, by simp, ?_⟩
    intro a ha b hb
    obtain ⟨e, he, rfl⟩ := List.mem_map.mp ha
    obtain rfl : b = d.uuid := by simpa using hb
    exact huuid e he
  names_nodup := by
    rw [List.map_append, List.nodup_append]
    refine ⟨t.names_nodup, by simp, ?_⟩
    intro a ha b hb
    obtain ⟨e, he, rfl⟩ := List.mem_map.mp ha
    obtain rfl : b = d.name := by simpa using hb
    exact hname e he

/-- A uuid names one domain. -/
theorem eq_of_uuid {t : Table} {d e : Domain} (hd : d ∈ t) (he : e ∈ t) (h : d.uuid = e.uuid) :
    d = e :=
  List.inj_on_of_nodup_map t.uuids_nodup hd he h

/-- So does a name. -/
theorem eq_of_name {t : Table} {d e : Domain} (hd : d ∈ t) (he : e ∈ t) (h : d.name = e.name) :
    d = e :=
  List.inj_on_of_nodup_map t.names_nodup hd he h

/-- After a change of `d`, the table holds the changed `d` and the other domains. -/
theorem mem_update {t : Table} {c : Change} {d e : Domain} (hd : d ∈ t) :
    e ∈ t.update d.uuid c ↔ (e ∈ t ∧ e.uuid ≠ d.uuid) ∨ e = c.apply d := by
  constructor
  · intro he
    obtain ⟨x, hx, rfl⟩ := List.mem_map.mp (show e ∈ t.domains.map _ from he)
    split
    · rename_i hu
      rw [eq_of_uuid hx hd hu]
      exact .inr rfl
    · rename_i hu
      exact .inl ⟨hx, hu⟩
  · rintro (⟨he, hu⟩ | rfl)
    · exact List.mem_map.mpr ⟨e, he, if_neg hu⟩
    · exact List.mem_map.mpr ⟨d, hd, if_pos rfl⟩

/-- Removing takes out the domain of that uuid and no other. -/
theorem mem_remove {t : Table} {uuid : String} {d : Domain} :
    d ∈ t.remove uuid ↔ d ∈ t ∧ d.uuid ≠ uuid := by
  have h : d ∈ t.remove uuid ↔ d ∈ t.domains.filter fun d => d.uuid ≠ uuid := Iff.rfl
  rw [h, List.mem_filter, decide_eq_true_eq]
  rfl

/-! ## Commands -/

/-- The domain an argument names. -/
def lookup (v : Virsh) (t : Table) (key : String) : Option Domain :=
  -- a uuid that no domain has is tried as a name
  ((v.argUuid key).bind fun u => t.domains.find? fun d => d.uuid == u).or
    (t.domains.find? fun d => d.name == key)

/-- The same, for the commands that also take a domain id. -/
def lookupActive (v : Virsh) (t : Table) (key : String) : Option Domain :=
  ((v.argId key).bind fun n => t.domains.find? fun d => d.active && d.id == n).or (lookup v t key)

/-- `virsh define`: refused when one of name and uuid is taken by another domain. -/
def define (v : Virsh) (t : Table) (name uuid : String) : Option Table :=
  match v.xmlUuid uuid with
  | none => none
  | some u =>
    match hu : t.domains.find? fun d => d.uuid == u with
    -- a redefinition does not touch a running incarnation
    | some d => if d.name = name then some (t.update u ⟨d.status, d.id, true⟩) else none
    | none =>
      if hn : ∀ e ∈ t.domains, e.name ≠ name then
        some (t.add ⟨name, u, .shutOff, 0, true⟩ (by simpa using hu) hn)
      else none

/-- The incarnation `virsh start` brings up, if it can. -/
def startable (v : Virsh) (t : Table) (key : String) (incarnation : ℕ) : Option Domain :=
  match lookup v t key with
  | some d => if d.active then none else some { d with status := .running, id := incarnation }
  | none => none

/-- `virsh start`, as the given incarnation. -/
def start (v : Virsh) (t : Table) (key : String) (incarnation : ℕ) : Option Table :=
  (t.startable v key incarnation).map fun d =>
    t.update d.uuid ⟨.running, incarnation, d.persistent⟩

/-- A domain stops. -/
def stop (t : Table) (d : Domain) : Table :=
  if d.persistent then t.update d.uuid ⟨.shutOff, d.id, true⟩ else t.remove d.uuid

/-- `virsh destroy`, with the domain it stopped. -/
def destroy (v : Virsh) (t : Table) (key : String) : Option (Domain × Table) :=
  match lookupActive v t key with
  | some d => if d.active then some (d, t.stop d) else none
  | none => none

/-- `virsh undefine`: an active domain becomes transient. -/
def undefine (v : Virsh) (t : Table) (key : String) : Option Table :=
  match lookupActive v t key with
  | some d =>
    if !d.persistent then none
    else if d.active then some (t.update d.uuid ⟨d.status, d.id, false⟩)
    else some (t.remove d.uuid)
  | none => none

/-- `virsh suspend`: a paused domain stays paused. -/
def suspend (v : Virsh) (t : Table) (key : String) : Option Table :=
  match lookupActive v t key with
  | some d => if d.active then some (t.update d.uuid ⟨.paused, d.id, d.persistent⟩) else none
  | none => none

/-- `virsh resume`. -/
def resume (v : Virsh) (t : Table) (key : String) : Option Table :=
  match lookupActive v t key with
  | some d =>
    if d.status = .paused then some (t.update d.uuid ⟨.running, d.id, d.persistent⟩) else none
  | none => none

/-- The text `virsh domstate` prints. -/
def domstate (v : Virsh) (t : Table) (key : String) : Option String :=
  (lookupActive v t key).map fun d => match d.status with
    | .running => "running\n\n"
    | .paused => "paused\n\n"
    | .shutOff => "shut off\n\n"

/-- The names of the running domains. -/
def runningNames (t : Table) : List String :=
  (t.domains.filter fun d => d.status == .running).map Domain.name

/-- The text `virsh list --name --state-running` prints. -/
def listRunning (t : Table) : String :=
  String.ofList ((t.runningNames.flatMap fun n => n.toList ++ ['\n']) ++ ['\n'])

/-- The guest of a domain powers off. -/
def powerOff (t : Table) (uuid : String) : Option Table :=
  match t.domains.find? fun d => d.uuid == uuid with
  | some d => if d.active then some (t.stop d) else none
  | none => none

/-- `virsh migrate --live --undefinesource` completes: the domain has left this host. -/
def migrateAway (v : Virsh) (t : Table) (key : String) : Option Table :=
  match lookupActive v t key with
  | some d => if d.active then some (t.remove d.uuid) else none
  | none => none

/-- An incoming live migration completes: the domain runs here, as the given incarnation. -/
def handOver (t : Table) (name uuid : String) (incarnation : ℕ) : Option Table :=
  match hu : t.domains.find? fun d => d.uuid == uuid with
  | some d =>
    if d.name = name ∧ !d.active then some (t.update uuid ⟨.running, incarnation, true⟩) else none
  | none =>
    if hn : ∀ e ∈ t.domains, e.name ≠ name then
      some (t.add ⟨name, uuid, .running, incarnation, true⟩ (by simpa using hu) hn)
    else none

/-! ## What the commands keep -/

/-- What is looked up answers to the key. -/
theorem lookup_spec {v : Virsh} {t : Table} {key : String} {d : Domain}
    (h : t.lookup v key = some d) : d ∈ t ∧ d.AnswersTo v key := by
  rcases Option.or_eq_some_iff.mp h with hu | ⟨-, hn⟩
  · obtain ⟨u, hu, hd⟩ := Option.bind_eq_some_iff.mp hu
    have heq : d.uuid = u := by simpa using List.find?_some hd
    exact ⟨List.mem_of_find?_eq_some hd, .inr (.inl (heq ▸ hu))⟩
  · have heq : d.name = key := by simpa using List.find?_some hn
    exact ⟨List.mem_of_find?_eq_some hn, .inr (.inr heq)⟩

/-- So does what is looked up among the active domains. -/
theorem lookupActive_spec {v : Virsh} {t : Table} {key : String} {d : Domain}
    (h : t.lookupActive v key = some d) : d ∈ t ∧ d.AnswersTo v key := by
  rcases Option.or_eq_some_iff.mp h with hid | ⟨-, hl⟩
  · obtain ⟨n, hn, hd⟩ := Option.bind_eq_some_iff.mp hid
    have hd' : d.active = true ∧ d.id = n := by simpa using List.find?_some hd
    exact ⟨List.mem_of_find?_eq_some hd, .inl (hd'.2 ▸ hn)⟩
  · exact lookup_spec hl

/-- Every incarnation that runs afterwards ran before, under the same name and uuid. -/
def NoNewIncarnation (t t' : Table) : Prop :=
  ∀ d' ∈ t', d'.active = true →
    ∃ d ∈ t, d.active = true ∧ d.name = d'.name ∧ d.uuid = d'.uuid ∧ d.id = d'.id

/-- The same, but for one new incarnation. -/
def OnlyNew (new : Domain) (t t' : Table) : Prop :=
  ∀ d' ∈ t', d'.active = true → d' = new ∨
    ∃ d ∈ t, d.active = true ∧ d.name = d'.name ∧ d.uuid = d'.uuid ∧ d.id = d'.id

theorem NoNewIncarnation.refl (t : Table) : NoNewIncarnation t t :=
  fun d' hd' hact => ⟨d', hd', hact, rfl, rfl, rfl⟩

/-- Removing a domain starts none. -/
theorem noNewIncarnation_remove (t : Table) (uuid : String) :
    NoNewIncarnation t (t.remove uuid) :=
  fun d' hd' hact => ⟨d', (mem_remove.mp hd').1, hact, rfl, rfl, rfl⟩

/-- A change that keeps the id and does not wake the domain up. -/
theorem noNewIncarnation_update {t : Table} {d : Domain} {c : Change} (hd : d ∈ t)
    (hid : c.id = d.id) (hact : c.status ≠ .shutOff → d.active = true) :
    NoNewIncarnation t (t.update d.uuid c) := by
  intro d' hd' hact'
  rcases (mem_update hd).mp hd' with ⟨hmem, -⟩ | rfl
  · exact ⟨d', hmem, hact', rfl, rfl, rfl⟩
  · exact ⟨d, hd, hact (by simpa [Domain.active, Change.apply] using hact'), rfl, rfl, hid.symm⟩

theorem noNewIncarnation_stop {t : Table} {d : Domain} (hd : d ∈ t) :
    NoNewIncarnation t (t.stop d) := by
  rw [stop]
  split
  · exact noNewIncarnation_update hd rfl (by simp)
  · exact noNewIncarnation_remove t d.uuid

theorem noNewIncarnation_add {t : Table} {d : Domain} (hoff : d.active = false) {hu hn} :
    NoNewIncarnation t (t.add d hu hn) := by
  intro d' hd' hact
  rcases List.mem_append.mp (show d' ∈ t.domains ++ [d] from hd') with hmem | hmem
  · exact ⟨d', hmem, hact, rfl, rfl, rfl⟩
  · obtain rfl := List.mem_singleton.mp hmem
    simp [hoff] at hact

/-- How `define` succeeds: it takes a defined domain over, or adds a new one. -/
theorem define_cases {v : Virsh} {t t' : Table} {name uuid : String}
    (h : t.define v name uuid = some t') :
    ∃ u, v.xmlUuid uuid = some u ∧
      ((∃ d ∈ t, d.uuid = u ∧ d.name = name ∧ t' = t.update d.uuid ⟨d.status, d.id, true⟩) ∨
        ∃ hu hn, t' = t.add ⟨name, u, .shutOff, 0, true⟩ hu hn) := by
  rw [define] at h
  split at h
  · simp at h
  · rename_i u hu
    refine ⟨u, hu, ?_⟩
    split at h
    · rename_i d hd
      have heq : d.uuid = u := by simpa using List.find?_some hd
      split at h
      · rename_i hname
        obtain rfl := Option.some.inj h
        exact .inl ⟨d, List.mem_of_find?_eq_some hd, heq, hname, by rw [heq]⟩
      · simp at h
    · split at h
      · exact .inr ⟨_, _, (Option.some.inj h).symm⟩
      · simp at h

/-- `define` starts no domain. -/
theorem define_noNew {v : Virsh} {t t' : Table} {name uuid : String}
    (h : t.define v name uuid = some t') : NoNewIncarnation t t' := by
  obtain ⟨u, -, ⟨d, hd, -, -, rfl⟩ | ⟨hu, hn, rfl⟩⟩ := define_cases h
  · exact noNewIncarnation_update hd rfl fun hs => by simpa [Domain.active] using hs
  · exact noNewIncarnation_add rfl

/-- `destroy` stops the active domain that answers to the key. -/
theorem destroy_cases {v : Virsh} {t t' : Table} {key : String} {d : Domain}
    (h : t.destroy v key = some (d, t')) :
    t.lookupActive v key = some d ∧ d.active = true ∧ t' = t.stop d := by
  rw [destroy] at h
  split at h
  · rename_i e he
    split at h
    · rename_i hact
      obtain ⟨rfl, rfl⟩ : e = d ∧ t.stop e = t' := by simpa using h
      exact ⟨he, hact, rfl⟩
    · simp at h
  · simp at h

/-- The same in terms of the table. -/
theorem destroy_spec {v : Virsh} {t t' : Table} {key : String} {d : Domain}
    (h : t.destroy v key = some (d, t')) :
    d ∈ t ∧ d.active = true ∧ d.AnswersTo v key ∧ t' = t.stop d := by
  obtain ⟨hd, hact, rfl⟩ := destroy_cases h
  obtain ⟨hmem, hans⟩ := lookupActive_spec hd
  exact ⟨hmem, hact, hans, rfl⟩

/-- How `undefine` succeeds: an active domain becomes transient, another one goes. -/
theorem undefine_cases {v : Virsh} {t t' : Table} {key : String} (h : t.undefine v key = some t') :
    ∃ d ∈ t, (d.active = true ∧ t' = t.update d.uuid ⟨d.status, d.id, false⟩) ∨
      (d.active = false ∧ t' = t.remove d.uuid) := by
  rw [undefine] at h
  split at h
  · rename_i d hd
    refine ⟨d, (lookupActive_spec hd).1, ?_⟩
    split_ifs at h with hpers hact
    · exact .inl ⟨hact, (Option.some.inj h).symm⟩
    · exact .inr ⟨by simpa using hact, (Option.some.inj h).symm⟩
  · simp at h

/-- `undefine` starts no domain. -/
theorem undefine_noNew {v : Virsh} {t t' : Table} {key : String}
    (h : t.undefine v key = some t') : NoNewIncarnation t t' := by
  obtain ⟨d, hd, ⟨hact, rfl⟩ | ⟨-, rfl⟩⟩ := undefine_cases h
  · exact noNewIncarnation_update hd rfl fun _ => hact
  · exact noNewIncarnation_remove t d.uuid

/-- `suspend` pauses the active domain that answers to the key. -/
theorem suspend_cases {v : Virsh} {t t' : Table} {key : String} (h : t.suspend v key = some t') :
    ∃ d ∈ t, t.lookupActive v key = some d ∧ d.active = true ∧
      t' = t.update d.uuid ⟨.paused, d.id, d.persistent⟩ := by
  rw [suspend] at h
  split at h
  · rename_i d hd
    split at h
    · rename_i hact
      exact ⟨d, (lookupActive_spec hd).1, hd, hact, (Option.some.inj h).symm⟩
    · simp at h
  · simp at h

/-- It starts none. -/
theorem suspend_noNew {v : Virsh} {t t' : Table} {key : String}
    (h : t.suspend v key = some t') : NoNewIncarnation t t' := by
  obtain ⟨d, hd, -, hact, rfl⟩ := suspend_cases h
  exact noNewIncarnation_update hd rfl fun _ => hact

/-- `resume` sets a paused domain running again. -/
theorem resume_cases {v : Virsh} {t t' : Table} {key : String} (h : t.resume v key = some t') :
    ∃ d ∈ t, t.lookupActive v key = some d ∧ d.status = .paused ∧
      t' = t.update d.uuid ⟨.running, d.id, d.persistent⟩ := by
  rw [resume] at h
  split at h
  · rename_i d hd
    split at h
    · rename_i hs
      exact ⟨d, (lookupActive_spec hd).1, hd, hs, (Option.some.inj h).symm⟩
    · simp at h
  · simp at h

/-- It keeps the incarnation. -/
theorem resume_noNew {v : Virsh} {t t' : Table} {key : String}
    (h : t.resume v key = some t') : NoNewIncarnation t t' := by
  obtain ⟨d, hd, -, hs, rfl⟩ := resume_cases h
  exact noNewIncarnation_update hd rfl fun _ => by simp [Domain.active, hs]

/-- A guest that powers off stops its own domain. -/
theorem powerOff_cases {t t' : Table} {uuid : String} (h : t.powerOff uuid = some t') :
    ∃ d ∈ t, d.uuid = uuid ∧ d.active = true ∧ t' = t.stop d := by
  rw [powerOff] at h
  split at h
  · rename_i d hd
    have heq : d.uuid = uuid := by simpa using List.find?_some hd
    split at h
    · rename_i hact
      exact ⟨d, List.mem_of_find?_eq_some hd, heq, hact, (Option.some.inj h).symm⟩
    · simp at h
  · simp at h

/-- It starts none. -/
theorem powerOff_noNew {t t' : Table} {uuid : String} (h : t.powerOff uuid = some t') :
    NoNewIncarnation t t' := by
  obtain ⟨d, hd, -, -, rfl⟩ := powerOff_cases h
  exact noNewIncarnation_stop hd

/-- A migration away takes the active domain out of the table. -/
theorem migrateAway_cases {v : Virsh} {t t' : Table} {key : String}
    (h : t.migrateAway v key = some t') :
    ∃ d, t.lookupActive v key = some d ∧ t' = t.remove d.uuid := by
  rw [migrateAway] at h
  split at h
  · rename_i d hd
    split at h
    · exact ⟨d, hd, (Option.some.inj h).symm⟩
    · simp at h
  · simp at h

/-- It starts none here. -/
theorem migrateAway_noNew {v : Virsh} {t t' : Table} {key : String}
    (h : t.migrateAway v key = some t') : NoNewIncarnation t t' := by
  obtain ⟨d, -, rfl⟩ := migrateAway_cases h
  exact noNewIncarnation_remove t d.uuid

/-- What can be started is a domain that is off, under a new id. -/
theorem startable_cases {v : Virsh} {t : Table} {key : String} {n : ℕ} {new : Domain}
    (h : t.startable v key n = some new) :
    ∃ d ∈ t, d.active = false ∧ new = { d with status := .running, id := n } := by
  rw [startable] at h
  split at h
  · rename_i d hd
    split at h
    · simp at h
    · rename_i hoff
      exact ⟨d, (lookup_spec hd).1, by simpa using hoff, (Option.some.inj h).symm⟩
  · simp at h

/-- `start` brings up the one incarnation. -/
theorem start_onlyNew {v : Virsh} {t t' : Table} {key : String} {n : ℕ}
    (h : t.start v key n = some t') :
    ∃ new, t.startable v key n = some new ∧ OnlyNew new t t' := by
  obtain ⟨new, hnew, rfl⟩ := Option.map_eq_some_iff.mp h
  obtain ⟨d, hd, -, rfl⟩ := startable_cases hnew
  refine ⟨_, hnew, fun d' hd' hact => ?_⟩
  rcases (mem_update (e := d') hd).mp hd' with ⟨hmem, -⟩ | rfl
  · exact .inr ⟨d', hmem, hact, rfl, rfl, rfl⟩
  · exact .inl rfl

/-- How `handOver` succeeds: a defined domain comes up, or a new one does. -/
theorem handOver_cases {t t' : Table} {name uuid : String} {n : ℕ}
    (h : t.handOver name uuid n = some t') :
    (∃ d ∈ t, d.uuid = uuid ∧ d.name = name ∧ d.active = false ∧
        t' = t.update d.uuid ⟨.running, n, true⟩) ∨
      ∃ hu hn, t' = t.add ⟨name, uuid, .running, n, true⟩ hu hn := by
  rw [handOver] at h
  split at h
  · rename_i d hd
    have heq : d.uuid = uuid := by simpa using List.find?_some hd
    subst heq
    split at h
    · rename_i hname
      have hoff : d.active = false := by simpa using hname.2
      exact .inl ⟨d, List.mem_of_find?_eq_some hd, rfl, hname.1, hoff, (Option.some.inj h).symm⟩
    · simp at h
  · split at h
    · exact .inr ⟨_, _, (Option.some.inj h).symm⟩
    · simp at h

/-- So does the end of an incoming migration. -/
theorem handOver_onlyNew {t t' : Table} {name uuid : String} {n : ℕ}
    (h : t.handOver name uuid n = some t') : OnlyNew ⟨name, uuid, .running, n, true⟩ t t' := by
  intro d' hd' hact
  rcases handOver_cases h with ⟨d, hd, rfl, rfl, -, rfl⟩ | ⟨hu, hn, rfl⟩
  · rcases (mem_update hd).mp hd' with ⟨hmem, -⟩ | rfl
    · exact .inr ⟨d', hmem, hact, rfl, rfl, rfl⟩
    · exact .inl rfl
  · rcases List.mem_append.mp (show d' ∈ t.domains ++ [_] from hd') with hmem | hmem
    · exact .inr ⟨d', hmem, hact, rfl, rfl, rfl⟩
    · exact .inl (List.mem_singleton.mp hmem)

end Table

end Vdsm.Virt
