import Vdsm.Lib.LineText
import Vdsm.Storage.CreateVg
import Vdsm.Storage.Server

/-!
# iSCSI targets (`vdsm-storage/src/block.rs`)

`iscsi_discover_send_targets` reports the targets behind a portal, `iscsi_login` and `iscsi_logout`
open and close the session to one. All three read the same spec. A target is reported with its portal
as `iscsiadm` prints it, that is with the port and the portal group tag; a spec has address and port
apart. So an entry of a report is no spec for its own target: `login_reported_refused` says what becomes
of it. The other way to log in, by `connectStorageServer`, takes only the names of the targets from a
discovery, and these are the same (`discovered_eq`).
-/

namespace Serde

variable {ν α : Type}

/-- What derived code finds for the field at a position and under a key: a duplicate, nothing, or a
value. -/
abbrev Access (ν : Type) : Type := ℕ → String → Option (Option ν)

/-- The entries under a key. -/
def under (key : String) (fs : List (String × ν)) : List (String × ν) := fs.filter (·.1 == key)

/-- `visit_map`. -/
def ofMap (fs : List (String × ν)) : Access ν := fun _ key =>
  match under key fs with
  | [] => some none
  | [e] => some (some e.2)
  | _ => none

/-- `visit_seq`. -/
def ofSeq (xs : List ν) : Access ν := fun i _ => some xs[i]?

/-- A field with `#[serde(default)]`. -/
def defaulted (acc : Access ν) (i : ℕ) (key : String) (dec : ν → Option α) (d : α) : Option α :=
  (acc i key).bind fun found => match found with
    | none => some d
    | some v => dec v

end Serde

namespace Vdsm.Storage

open Rust Supervdsm

/-! ## Specs -/

/-- `IscsiTargetSpec`. -/
structure IscsiTargetSpec where
  iqn : String
  portal : String
  port : String
  user : String
  password : String
  tpgt : String
deriving DecidableEq, Repr

namespace IscsiTargetSpec

/-- `IscsiTargetSpec::default()`. -/
def default : IscsiTargetSpec := ⟨"", "", "", "", "", ""⟩

/-- The field that a key stands for: `portal_port` is an alias of `port`. -/
def canonical (key : String) : String := if key = "portal_port" then "port" else key

/-- The fields, each with `#[serde(default)]`. -/
def ofAccess (acc : Serde.Access Value) : Option IscsiTargetSpec := do
  let iqn ← Serde.defaulted acc 0 "iqn" Value.asStr ""
  let portal ← Serde.defaulted acc 1 "portal" Value.asStr ""
  let port ← Serde.defaulted acc 2 "port" Value.asStr ""
  let user ← Serde.defaulted acc 3 "user" Value.asStr ""
  let password ← Serde.defaulted acc 4 "password" Value.asStr ""
  let tpgt ← Serde.defaulted acc 5 "tpgt" Value.asStr ""
  some ⟨iqn, portal, port, user, password, tpgt⟩

/-- `Deserialize` of a spec. -/
def ofValue : Value → Option IscsiTargetSpec
  | .object fields => ofAccess (Serde.ofMap (fields.map fun f => (canonical f.1, f.2)))
  | .array xs => if xs.length ≤ 6 then ofAccess (Serde.ofSeq xs) else none
  | _ => none

/-- The spec of a request: at `con`, or the request itself. One that is not understood is the
default. -/
def ofParams (params : Value) : IscsiTargetSpec :=
  (ofValue ((params.get "con").getD params)).getD default

/-- The portal with its port. -/
def portalArg (spec : IscsiTargetSpec) : String :=
  spec.portal ++ ":" ++ (if spec.port = "" then "3260" else spec.port)

end IscsiTargetSpec

/-! ## The verbs -/

/-- A target of a report. -/
def targetEntry (portal iqn : String) : Value :=
  .object [("portal", .string portal), ("iqn", .string iqn)]

/-- The portal and the target of a line. -/
def targetLine (line : String) : Option (String × String) :=
  match splitWhitespace line with
  | addr :: iqn :: _ => some (addr, iqn)
  | _ => none

/-- The reply of a discovery. -/
def targetReport (found : List (String × String)) : Value :=
  .object [("fullTargets", .array (found.map fun t => targetEntry t.1 t.2)),
    ("targets", .array (found.map fun t => .string t.2))]

/-- `iscsi_discover_send_targets`: the reply, and the op with what became of it. -/
def iscsiDiscoverSendTargets (env : BlockEnv) (params : Value) :
    Except JsonRpcError Value × List Issued :=
  let spec := IscsiTargetSpec.ofParams params
  if spec.portal = "" then (.ok (targetReport []), [])
  else
    let op := PrivOp.iscsiDiscover spec.portalArg
    -- a discovery that failed is one without targets
    let raw := (env.run op).getD ""
    (.ok (targetReport ((lines raw).filterMap targetLine)), [(op, env.run op)])

/-- `iscsi_login`. -/
def iscsiLogin (env : BlockEnv) (params : Value) : Except JsonRpcError Value × List Issued :=
  let spec := IscsiTargetSpec.ofParams params
  if spec.iqn = "" ∨ spec.portal = "" then (.error (.invalidParams "iqn + portal required"), [])
  else
    let op := PrivOp.iscsiLogin spec.iqn spec.portalArg
    (.ok (.object []), [(op, env.run op)])

/-- `iscsi_logout`. -/
def iscsiLogout (env : BlockEnv) (params : Value) : Except JsonRpcError Value × List Issued :=
  let spec := IscsiTargetSpec.ofParams params
  if spec.iqn = "" then (.ok (.object []), [])
  else
    let op := PrivOp.iscsiLogout spec.iqn spec.portalArg
    (.ok (.object []), [(op, env.run op)])

/-! ## What a discovery prints -/

/-- A target behind a portal. -/
structure Target where
  address : String
  port : String
  tpgt : String
  iqn : String
  address_ne : address ≠ ""
  port_ne : port ≠ ""
  portal_ok : isWord (address ++ ":" ++ port ++ "," ++ tpgt) = true
  iqn_ok : isWord iqn = true

namespace Target

/-- The portal as `iscsiadm` prints it. -/
def reported (t : Target) : String := t.address ++ ":" ++ t.port ++ "," ++ t.tpgt

def line (t : Target) : String := " ".intercalate [t.reported, t.iqn]

/-- The spec for a target. -/
def spec (t : Target) : Value :=
  .object [("iqn", .string t.iqn), ("portal", .string t.address), ("port", .string t.port)]

end Target

/-- The output of `iscsiadm -m discovery -t st`. -/
def sendTargets (ts : List Target) : String := unlines (ts.map Target.line)

/-- The parts of a line of `iscsiadm` are words. -/
theorem Target.words (t : Target) : ∀ w ∈ [t.reported, t.iqn], isWord w = true := by
  intro w hw
  rcases List.mem_pair.mp hw with rfl | rfl
  · exact t.portal_ok
  · exact t.iqn_ok

/-- A line for a target is read as its portal and its name. -/
theorem targetLine_line (t : Target) : targetLine t.line = some (t.reported, t.iqn) := by
  rw [targetLine, Target.line, splitWhitespace_unwords t.words]

/-- The output has a line for each target. -/
theorem lines_sendTargets (ts : List Target) : lines (sendTargets ts) = ts.map Target.line := by
  apply lines_unlines_self
  intro l hl
  obtain ⟨t, -, rfl⟩ := List.mem_map.mp hl
  exact isLine_unwords t.words

/-- The targets of a discovery, as they are read. -/
theorem found_sendTargets (ts : List Target) :
    (lines (sendTargets ts)).filterMap targetLine = ts.map fun t => (t.reported, t.iqn) := by
  rw [lines_sendTargets, List.filterMap_map, ← List.filterMap_eq_map]
  exact List.filterMap_congr fun t _ => targetLine_line t

/-- `connectStorageServer` finds the same targets in an output. -/
theorem discovered_eq (raw : String) :
    discovered raw = ((lines raw).filterMap targetLine).map Prod.snd := by
  rw [discovered, List.map_filterMap]
  refine List.filterMap_congr fun l _ => ?_
  rw [targetLine]
  rcases splitWhitespace l with _ | ⟨addr, _ | ⟨iqn, rest⟩⟩ <;> rfl

/-! ## What root does for a login -/

/-- The arguments of a login. -/
def loginArgs (iqn portal : String) : List String :=
  ["-m", "node", "-T", iqn, "-p", portal, "--login"]

/-- A login runs `iscsiadm` once, with the name and the portal as they were given. -/
theorem execute_login (host : Host) {iqn portal : String} (hi : validIqn iqn = true)
    (hp : validPortal portal = true) :
    (execute host (.iscsiLogin iqn portal)).2 = [.spawn "/usr/sbin/iscsiadm" (loginArgs iqn portal)] := by
  simp only [execute, hi, hp]
  rfl

/-- A portal with a group tag is refused. -/
theorem validPortal_tagged (t : Target) (port : String) : validPortal (t.reported ++ port) = false := by
  rw [← Bool.not_eq_true]
  intro h
  simp only [validPortal, validWord, Bool.and_eq_true] at h
  refine not_mem_of_all (c := ',') (by decide) h.2 ?_
  simp [Target.reported]

/-- A portal that is not valid gets no login. -/
theorem run_login_refused (env : BlockEnv) (iqn : String) {portal : String}
    (hp : validPortal portal = false) :
    env.run (.iscsiLogin iqn portal) = none ∧ env.does (.iscsiLogin iqn portal) = [] := by
  have hfails : (execute env.host (.iscsiLogin iqn portal)).1.ok = false ∧
      (execute env.host (.iscsiLogin iqn portal)).2 = [] := by
    simp only [execute, hp]
    split <;> exact ⟨rfl, rfl⟩
  rw [BlockEnv.run, BlockEnv.does]
  split
  · simp [hfails.1, hfails.2, Option.filter]
  · exact ⟨rfl, rfl⟩

/-! ## The specs of a target -/

/-- An entry as the discovery reports it is read as the name and the portal of its target. -/
theorem ofParams_reported (t : Target) :
    IscsiTargetSpec.ofParams (.object [("con", targetEntry t.reported t.iqn)])
      = ⟨t.iqn, t.reported, "", "", "", ""⟩ :=
  rfl

/-- So is a target that is given by its address and port. -/
theorem ofParams_spec (t : Target) :
    IscsiTargetSpec.ofParams (.object [("con", t.spec)]) = ⟨t.iqn, t.address, t.port, "", "", ""⟩ :=
  rfl

theorem Target.iqn_ne (t : Target) : t.iqn ≠ "" := by
  have h := t.iqn_ok
  simp only [isWord, Bool.and_eq_true, bne_iff_ne] at h
  exact h.1

theorem Target.reported_ne (t : Target) : t.reported ≠ "" := by
  have h := t.portal_ok
  simp only [isWord, Bool.and_eq_true, bne_iff_ne] at h
  exact h.1

/-- The op of a login, and of a logout with the same request. -/
theorem iscsiLogin_eq {params : Value} {spec : IscsiTargetSpec}
    (hspec : IscsiTargetSpec.ofParams params = spec) (hiqn : spec.iqn ≠ "") (hportal : spec.portal ≠ "")
    (env : BlockEnv) :
    iscsiLogin env params = (.ok (.object []),
        [(.iscsiLogin spec.iqn spec.portalArg, env.run (.iscsiLogin spec.iqn spec.portalArg))]) ∧
      iscsiLogout env params = (.ok (.object []),
        [(.iscsiLogout spec.iqn spec.portalArg, env.run (.iscsiLogout spec.iqn spec.portalArg))]) := by
  rw [iscsiLogin, iscsiLogout, hspec]
  dsimp only
  rw [if_neg (not_or.mpr ⟨hiqn, hportal⟩), if_neg hiqn]
  exact ⟨rfl, rfl⟩

/-- An entry of a report as the spec of a login: the op is refused, and the reply does not say so. -/
theorem login_reported_refused (env : BlockEnv) (t : Target) :
    iscsiLogin env (.object [("con", targetEntry t.reported t.iqn)])
        = (.ok (.object []), [(.iscsiLogin t.iqn (t.reported ++ ":" ++ "3260"), none)]) ∧
      env.does (.iscsiLogin t.iqn (t.reported ++ ":" ++ "3260")) = [] := by
  have hinvalid : validPortal (t.reported ++ ":" ++ "3260") = false := by
    rw [String.append_assoc]
    exact validPortal_tagged t _
  obtain ⟨hrun, hdoes⟩ := run_login_refused env t.iqn hinvalid
  refine ⟨?_, hdoes⟩
  rw [(iscsiLogin_eq (ofParams_reported t) t.iqn_ne t.reported_ne env).1, ← hrun]
  rfl

/-- Address and port apart as the spec of a login and of the logout. -/
theorem login_spec (env : BlockEnv) (t : Target) :
    iscsiLogin env (.object [("con", t.spec)])
        = (.ok (.object []), [(.iscsiLogin t.iqn (t.address ++ ":" ++ t.port),
            env.run (.iscsiLogin t.iqn (t.address ++ ":" ++ t.port)))]) ∧
      iscsiLogout env (.object [("con", t.spec)])
        = (.ok (.object []), [(.iscsiLogout t.iqn (t.address ++ ":" ++ t.port),
            env.run (.iscsiLogout t.iqn (t.address ++ ":" ++ t.port)))]) := by
  have harg : IscsiTargetSpec.portalArg ⟨t.iqn, t.address, t.port, "", "", ""⟩
      = t.address ++ ":" ++ t.port := by
    rw [IscsiTargetSpec.portalArg, if_neg t.port_ne]
  have h := iscsiLogin_eq (ofParams_spec t) t.iqn_ne t.address_ne env
  rwa [harg] at h

/-! ## Discovery and login -/

/-- A discovery reports, in their order, the targets that `iscsiadm` prints, the ones that
`connectStorageServer` would log in to. None of them can be logged in to with the entry that reports
it, on whatever host: root does nothing, and the reply is that of a success. With address and port
apart, root is asked for the login to exactly this target, and by the logout for the end of it. -/
theorem iscsi_discovered_logins (env : BlockEnv) (params : Value) (ts : List Target)
    (hportal : (IscsiTargetSpec.ofParams params).portal ≠ "")
    (hprints : env.run (.iscsiDiscover (IscsiTargetSpec.ofParams params).portalArg)
      = some (sendTargets ts)) :
    (iscsiDiscoverSendTargets env params).1
        = .ok (targetReport (ts.map fun t => (t.reported, t.iqn))) ∧
      discovered (sendTargets ts) = ts.map Target.iqn ∧
      ∀ t ∈ ts, ∀ host' : BlockEnv,
        (∃ op, iscsiLogin host' (.object [("con", targetEntry t.reported t.iqn)])
            = (.ok (.object []), [(op, none)]) ∧ host'.does op = []) ∧
        ∃ op, iscsiLogin host' (.object [("con", t.spec)])
            = (.ok (.object []), [(op, host'.run op)]) ∧
          (host'.reaches op = true → validIqn t.iqn = true →
            validPortal (t.address ++ ":" ++ t.port) = true →
            host'.does op = [.spawn "/usr/sbin/iscsiadm"
              (loginArgs t.iqn (t.address ++ ":" ++ t.port))]) ∧
          (iscsiLogout host' (.object [("con", t.spec)])).2.map Prod.fst
            = [.iscsiLogout t.iqn (t.address ++ ":" ++ t.port)] := by
  refine ⟨?_, ?_, fun t _ host' =>
    ⟨⟨_, login_reported_refused host' t⟩, _, (login_spec host' t).1, ?_, ?_⟩⟩
  · rw [iscsiDiscoverSendTargets]
    dsimp only
    rw [if_neg hportal, hprints, Option.getD_some, found_sendTargets]
  · rw [discovered_eq, found_sendTargets, List.map_map]
    rfl
  · intro hreach hi hp
    rw [BlockEnv.does, if_pos hreach, execute_login _ hi hp]
  · rw [(login_spec host' t).2]
    rfl

/-- A portal with two targets. -/
def twoTargets : BlockEnv where
  host := { quietHost with
    output := fun _ _ => .ok ⟨true, some 0,
      asBytes "10.0.0.5:3260,1 iqn.2016-04.org:t0\n10.0.0.6:3261,2 iqn.2016-04.org:t1\n", []⟩ }
  reaches := fun _ => true
  fromStr := fun _ => none

def firstTarget : Target := ⟨"10.0.0.5", "3260", "1", "iqn.2016-04.org:t0", by decide, by decide,
  by decide, by decide⟩

def secondTarget : Target := ⟨"10.0.0.6", "3261", "2", "iqn.2016-04.org:t1", by decide, by decide,
  by decide, by decide⟩

def discoverPortal : Value := .object [("con", .object [("portal", .string "10.0.0.5")])]

/-- Two targets are reported in their order, and the second of them is logged in to. -/
theorem iscsi_discovered_logins_two :
    (iscsiDiscoverSendTargets twoTargets discoverPortal).1
        = .ok (targetReport [("10.0.0.5:3260,1", "iqn.2016-04.org:t0"),
            ("10.0.0.6:3261,2", "iqn.2016-04.org:t1")]) ∧
      ∃ op, iscsiLogin twoTargets (.object [("con", secondTarget.spec)])
          = (.ok (.object []), [(op, twoTargets.run op)]) ∧
        twoTargets.does op = [.spawn "/usr/sbin/iscsiadm"
          (loginArgs "iqn.2016-04.org:t1" "10.0.0.6:3261")] := by
  obtain ⟨hreport, -, hlogins⟩ := iscsi_discovered_logins twoTargets discoverPortal
    [firstTarget, secondTarget] (by decide) (by decide)
  obtain ⟨-, op, hlogin, hdoes, -⟩ := hlogins secondTarget (by simp) twoTargets
  exact ⟨hreport, op, hlogin, hdoes rfl (by decide) (by decide)⟩

end Vdsm.Storage
