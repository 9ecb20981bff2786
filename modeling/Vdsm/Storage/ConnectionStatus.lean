import Vdsm.Storage.Connections
import Mathlib.Data.List.Forall2

/-!
# A status for each connection

Both verbs deserialise the whole array of specs at once and take an empty list where that fails, so
one element that is no spec takes all the others with it: `status_per_element_iff` says that only
arrays of specs are answered element by element.

An iSCSI spec may name the target to log in to, but the `iqn` is not among the fields that are read:
`iscsi_target_iff` says when the targets that a portal announces make up for it.
-/

namespace Vdsm.Storage

open Rust Supervdsm

/-! ## Elements -/

/-- A list is converted as a whole exactly if the results correspond to its elements one by one. -/
theorem mapM_eq_some_iff {α β : Type} {f : α → Option β} {xs : List α} {ys : List β} :
    xs.mapM f = some ys ↔ List.Forall₂ (fun x y => f x = some y) xs ys := by
  induction xs generalizing ys with
  | nil => simp [eq_comm]
  | cons x xs ih =>
    rw [List.mapM_cons]
    constructor
    · intro h
      simp only [Option.bind_eq_bind, Option.bind_eq_some_iff, Option.pure_def,
        Option.some.injEq] at h
      obtain ⟨y, hy, ys', hys', rfl⟩ := h
      exact .cons hy (ih.mp hys')
    · rintro (_ | ⟨hy, hys⟩)
      simp [hy, ih.mpr hys]

/-- So one element that cannot be converted loses all. -/
theorem mapM_isSome_iff {α β : Type} {f : α → Option β} {xs : List α} :
    (xs.mapM f).isSome = true ↔ ∀ x ∈ xs, (f x).isSome = true := by
  induction xs with
  | nil => simp
  | cons x xs ih =>
    rw [List.mapM_cons, List.forall_mem_cons, ← ih]
    cases f x <;> cases xs.mapM f <;> simp

/-- A string under the key. -/
def hasString (v : Value) (key : String) : Bool := ((v.get key).bind Value.asStr).isSome

/-- A string under the key, or nothing. -/
def hasOptString (v : Value) (key : String) : Bool := (v.get key).isNone || hasString v key

/-- Is an element a spec? Its fields are taken by name from an object, by position from an array, and
other fields are not looked at. -/
def isSpec : Value → Bool
  | .object fields =>
    ["id", "connection"].all (hasString (.object fields)) &&
      ["vfs_type", "mnt_options", "protocol_version"].all (hasOptString (.object fields))
  | .array xs => decide (2 ≤ xs.length ∧ xs.length ≤ 5) && xs.all fun x => x.asStr.isSome
  | _ => false

/-- A field with a default is read exactly if it is absent or text. -/
theorem defaultField_isSome (key : String) (v : Value) :
    (defaultField key v).isSome = hasOptString v key := by
  rw [defaultField, hasOptString, hasString]
  cases v.get key <;> simp

/-- An element is read exactly if it has the shape of a spec. -/
theorem ofValue_isSome (x : Value) : (StorageServerConnection.ofValue x).isSome = isSpec x := by
  match x with
  | .object fields =>
    simp only [StorageServerConnection.ofValue, isSpec, List.all_cons, List.all_nil, hasString,
      ← defaultField_isSome]
    generalize ((Value.object fields).get "id").bind Value.asStr = id
    generalize ((Value.object fields).get "connection").bind Value.asStr = connection
    generalize defaultField "vfs_type" (.object fields) = vfsType
    generalize defaultField "mnt_options" (.object fields) = mntOptions
    generalize defaultField "protocol_version" (.object fields) = protocolVersion
    cases id <;> cases connection <;> cases vfsType <;> cases mntOptions <;>
      cases protocolVersion <;> rfl
  | .array [] => simp [StorageServerConnection.ofValue, isSpec]
  | .array [a] => cases a <;> simp [StorageServerConnection.ofValue, isSpec]
  | .array (a :: b :: rest) =>
    cases a with
    | string id =>
      cases b with
      | string connection =>
        have hlength : decide (2 ≤ rest.length + 1 + 1 ∧ rest.length + 1 + 1 ≤ 5)
            = decide (rest.length ≤ 3) := by
          rw [decide_eq_decide]
          omega
        have hspec : isSpec (.array (.string id :: .string connection :: rest))
            = (decide (rest.length ≤ 3) && rest.all fun x => x.asStr.isSome) := by
          rw [isSpec, List.length_cons, List.length_cons, hlength]
          rfl
        rw [hspec, StorageServerConnection.ofValue]
        by_cases h : rest.length ≤ 3
        · rw [if_pos h, decide_eq_true h, Bool.true_and, Bool.eq_iff_iff, List.all_eq_true,
            ← mapM_isSome_iff]
          cases rest.mapM Value.asStr <;> rfl
        · rw [if_neg h, decide_eq_false h]
          rfl
      | _ => simp [StorageServerConnection.ofValue, isSpec, Value.asStr]
    | _ => simp [StorageServerConnection.ofValue, isSpec, Value.asStr]
  | .null | .bool _ | .number _ | .string _ => rfl

/-! ## One status each -/

/-- The array a request names its connections in. -/
def requested (params : Value) : Option (List Value) :=
  ((params.get "connectionParams").or (params.get "conList")).bind Value.asArray

/-- The id an element is known by. -/
def idOf (x : Value) : Option String := (x.get "id").bind Value.asStr

/-- What a verb does with one spec: its turn, and whether it can be carried out. -/
structure Handling where
  turn : ServerEnv → StorageServerConnection → Turn
  Usable : ServerEnv → StorageServerConnection → Server → Prop

/-- Connecting. -/
def connecting (domainType : ℤ) : Handling where
  turn env spec := .connect env domainType spec
  Usable env spec w := Connects env domainType spec w

/-- Disconnecting: what is mounted has to go. -/
def disconnecting : Handling where
  turn env spec := .disconnect env spec
  Usable env spec w :=
    w.isMounted env spec.mountpoint = true → env.grants (.umount spec.mountpoint) = true

/-- Element by element, from a position on: an entry with the id of the element, and a status that is
zero exactly where the element can be used. An element that is no spec changes nothing. -/
inductive PerElement (h : Handling) (envs : ℕ → ServerEnv) :
    ℕ → List Value → Server → List (String × ℤ) → Server → Prop where
  | nil (n : ℕ) (w : Server) : PerElement h envs n [] w [] w
  | spec {n : ℕ} {x : Value} {xs : List Value} {w w' : Server} {statuses : List (String × ℤ)}
      {status : ℤ} {spec : StorageServerConnection}
      (hx : StorageServerConnection.ofValue x = some spec)
      (hstatus : status = 0 ↔ h.Usable (envs n) spec w)
      (hrest : PerElement h envs (n + 1) xs ((h.turn (envs n) spec).after w) statuses w') :
      PerElement h envs n (x :: xs) w ((spec.id, status) :: statuses) w'
  | unusable {n : ℕ} {x : Value} {xs : List Value} {w w' : Server} {statuses : List (String × ℤ)}
      {id : String} {status : ℤ} (hx : StorageServerConnection.ofValue x = none)
      (hid : ∀ i, idOf x = some i → id = i) (hstatus : status ≠ 0)
      (hrest : PerElement h envs (n + 1) xs w statuses w') :
      PerElement h envs n (x :: xs) w ((id, status) :: statuses) w'

/-- A result that answers an array element by element. -/
def Answers (h : Handling) (envs : ℕ → ServerEnv) (xs : List Value) (w : Server)
    (result : Except JsonRpcError Value × Server) : Prop :=
  ∃ statuses, result.1 = .ok (statusList statuses) ∧ PerElement h envs 0 xs w statuses result.2

/-- One status for each element. -/
theorem PerElement.length_eq {h : Handling} {envs : ℕ → ServerEnv} {n : ℕ} {xs : List Value}
    {w w' : Server} {statuses : List (String × ℤ)} (hp : PerElement h envs n xs w statuses w') :
    statuses.length = xs.length := by
  induction hp with
  | nil => rfl
  | spec _ _ _ ih => simpa using ih
  | unusable _ _ _ _ ih => simpa using ih

/-- What is connected of a request with an array: all of it, or nothing. -/
theorem conList_eq {params : Value} {xs : List Value} (hxs : requested params = some xs) :
    conList params = (xs.mapM StorageServerConnection.ofValue).getD [] := by
  rw [requested, Option.bind_eq_some_iff] at hxs
  obtain ⟨v, hv, harray⟩ := hxs
  rw [conList, hv]
  simp [harray]

/-- The first spec of a call has its turn, and then the others. -/
theorem perElement_connectAll (envs : ℕ → ServerEnv) (domainType : ℤ) {xs : List Value}
    {specs : List StorageServerConnection}
    (h : List.Forall₂ (fun x spec => StorageServerConnection.ofValue x = some spec) xs specs) (n : ℕ)
    (w : Server) :
    PerElement (connecting domainType) envs n xs w (connectAll envs domainType n specs w).1
      (connectAll envs domainType n specs w).2 := by
  induction h generalizing n w with
  | nil => exact .nil n w
  | cons hx _ ih =>
    rw [connectAll_cons]
    exact .spec hx mountOne_status (ih (n + 1) _)

/-- A disconnecting turn has status 0 unless something stays mounted. -/
theorem disconnectOne_status (env : ServerEnv) (spec : StorageServerConnection) (w : Server) :
    (disconnectOne env spec w).1 = 0 ↔ disconnecting.Usable env spec w := by
  rw [disconnecting, disconnectOne]
  dsimp only
  cases hmounted : w.isMounted env spec.mountpoint with
  | false => simp
  | true =>
    rw [if_pos rfl, Server.call, ServerEnv.grants]
    cases hreaches : env.reaches (.umount spec.mountpoint) with
    | false => simp
    | true => cases hok : (execute env.host (.umount spec.mountpoint)).1.ok <;> simp [hok]

/-- The loop over the disconnections gives a status to each element. -/
theorem perElement_disconnectAll (envs : ℕ → ServerEnv) {xs : List Value}
    {specs : List StorageServerConnection}
    (h : List.Forall₂ (fun x spec => StorageServerConnection.ofValue x = some spec) xs specs) (n : ℕ)
    (w : Server) :
    PerElement disconnecting envs n xs w (disconnectAll envs n specs w).1
      (disconnectAll envs n specs w).2 := by
  induction h generalizing n w with
  | nil => exact .nil n w
  | cons hx _ ih =>
    rw [disconnectAll_cons]
    exact .spec hx (disconnectOne_status _ _ _) (ih (n + 1) _)

/-- An empty answer is one for an empty array. -/
theorem Answers.eq_nil {h : Handling} {envs : ℕ → ServerEnv} {xs : List Value} {w w' : Server}
    (ha : Answers h envs xs w (.ok (statusList []), w')) : xs = [] := by
  obtain ⟨statuses, hok, hp⟩ := ha
  have hnil : statuses = [] := by
    have hmap := Value.array.inj (Except.ok.inj hok)
    exact List.map_eq_nil_iff.mp hmap.symm
  have hlength := hp.length_eq
  rw [hnil] at hlength
  exact List.length_eq_zero_iff.mp hlength.symm

/-- A verb that answers the specs of an array, and nothing where one element is none, answers element
by element exactly the arrays of specs. -/
theorem answers_iff {h : Handling} {envs : ℕ → ServerEnv} {xs : List Value} {w w' : Server}
    {result : List StorageServerConnection → Except JsonRpcError Value × Server}
    (hspecs : ∀ specs, List.Forall₂ (fun x spec => StorageServerConnection.ofValue x = some spec) xs
      specs → Answers h envs xs w (result specs)) (hnone : result [] = (.ok (statusList []), w')) :
    Answers h envs xs w (result ((xs.mapM StorageServerConnection.ofValue).getD [])) ↔
      ∀ x ∈ xs, isSpec x = true := by
  have hall : (∀ x ∈ xs, isSpec x = true) ↔
      (xs.mapM StorageServerConnection.ofValue).isSome = true := by
    rw [mapM_isSome_iff]
    simp only [ofValue_isSome]
  rw [hall]
  cases hmap : xs.mapM StorageServerConnection.ofValue with
  | none =>
    refine iff_of_false (fun ha => ?_) (by simp)
    rw [Option.getD_none, hnone] at ha
    rw [ha.eq_nil] at hmap
    cases hmap
  | some specs => exact iff_of_true (hspecs specs (mapM_eq_some_iff.mp hmap)) rfl

/-- One status for each requested connection. For every array of elements of any shape, each of the two
verbs answers it element by element exactly when all its elements are specs. -/
theorem status_per_element_iff (envs : ℕ → ServerEnv) (params : Value) (xs : List Value) (w : Server)
    (hxs : requested params = some xs) :
    (Answers (connecting (intParamOr "domainType" 1 params)) envs xs w
        (connectStorageServer envs params w) ↔ ∀ x ∈ xs, isSpec x = true) ∧
      (Answers disconnecting envs xs w (disconnectStorageServer envs params w) ↔
        ∀ x ∈ xs, isSpec x = true) := by
  rw [connectStorageServer, disconnectStorageServer, conList_eq hxs]
  constructor
  · let d := intParamOr "domainType" 1 params
    refine @answers_iff (connecting d) envs xs w w (fun specs =>
      (.ok (statusList (connectAll envs d 0 specs w).1), (connectAll envs d 0 specs w).2)) ?_ rfl
    exact fun specs hspecs => ⟨_, rfl, perElement_connectAll envs d hspecs 0 w⟩
  · refine @answers_iff disconnecting envs xs w w (fun specs =>
      (.ok (statusList (disconnectAll envs 0 specs w).1), (disconnectAll envs 0 specs w).2)) ?_ rfl
    exact fun specs hspecs => ⟨_, rfl, perElement_disconnectAll envs hspecs 0 w⟩

/-- Three connections: two exports, the second given by position, and the first again. -/
def threeSpecs : List Value :=
  [.object [("id", .string "a"), ("connection", .string "srv:/a")],
    .array [.string "b", .string "srv:/b"],
    .object [("id", .string "c"), ("connection", .string "srv:/a"), ("vfs_type", .string "nfs")]]

/-- A request for three mounts, connected and disconnected. -/
theorem status_per_element_three :
    Answers (connecting 1) (fun _ => quietServerEnv) threeSpecs bareServer
        (connectStorageServer (fun _ => quietServerEnv)
          (.object [("connectionParams", .array threeSpecs)]) bareServer) ∧
      Answers disconnecting (fun _ => quietServerEnv) threeSpecs bareServer
        (disconnectStorageServer (fun _ => quietServerEnv)
          (.object [("connectionParams", .array threeSpecs)]) bareServer) := by
  obtain ⟨hconnect, hdisconnect⟩ := status_per_element_iff (fun _ => quietServerEnv)
    (.object [("connectionParams", .array threeSpecs)]) threeSpecs bareServer rfl
  exact ⟨hconnect.mpr (by decide), hdisconnect.mpr (by decide)⟩

/-- Two connections, the second of them without a connection string. -/
def mixedSpecs : Value :=
  .object [("connectionParams", .array [.object [("id", .string "a"), ("connection", .string "srv:/a")],
    .object [("id", .string "b")]])]

/-- Neither connection is answered. -/
theorem mixedSpecs_unanswered : ¬∀ envs params xs w, requested params = some xs →
    Answers (connecting (intParamOr "domainType" 1 params)) envs xs w
        (connectStorageServer envs params w) ∧
      Answers disconnecting envs xs w (disconnectStorageServer envs params w) := by
  intro h
  have hconnect := (h (fun _ => quietServerEnv) mixedSpecs _ bareServer rfl).1
  exact absurd hconnect.eq_nil (by simp)

/-! ## iSCSI targets -/

/-- The target an element asks for. -/
def iqnOf (x : Value) : Option String := (x.get "iqn").bind Value.asStr

/-- The target and the portal of a login. -/
def Act.login : Act → Option (String × String)
  | .priv (.iscsiLogin iqn portal) => some (iqn, portal)
  | _ => none

/-- The logins issued so far. -/
def Server.logins (w : Server) : List (String × String) := w.store.trace.filterMap Act.login

/-- The targets that a portal announces, if there is a portal and it can be asked. -/
def announced (env : ServerEnv) (portal : String) : List String :=
  if portal ≠ "" ∧ env.grants (.iscsiDiscover portal) = true then
    discovered (execute env.host (.iscsiDiscover portal)).1.stdout
  else []

/-- A login is noted, whether it goes through or not. -/
@[simp] theorem logins_run (env : ServerEnv) (op : PrivOp) (w : Server) :
    (w.run env op).2.logins = w.logins ++ (Act.priv op).login.toList := by
  cases h : (Act.priv op).login <;> simp [Server.run, Server.call, Server.logins, Store.note, h]

/-- The loop over the names that were discovered tries each of them. -/
theorem logins_foldl {env : ServerEnv} {portal : String} (iqns : List String) (acc : Bool × Server) :
    (iqns.foldl (fun acc iqn => (acc.1 || (acc.2.run env (.iscsiLogin iqn portal)).1.isSome,
      (acc.2.run env (.iscsiLogin iqn portal)).2)) acc).2.logins =
        acc.2.logins ++ iqns.map fun iqn => (iqn, portal) := by
  induction iqns generalizing acc with
  | nil => simp
  | cons iqn iqns ih =>
    rw [List.foldl_cons, ih, logins_run]
    simp [Act.login]

/-- Every target that is announced is logged in to. -/
theorem logins_iscsiLoginOne (env : ServerEnv) (spec : StorageServerConnection) (w : Server) :
    (iscsiLoginOne env spec w).2.logins = w.logins ++
      (announced env spec.connection).map fun iqn => (iqn, spec.connection) := by
  rw [iscsiLoginOne, announced]
  by_cases hempty : spec.connection = ""
  · simp [hempty]
  rw [if_neg hempty]
  dsimp only
  rw [run_eq]
  cases hgranted : env.grants (.iscsiDiscover spec.connection) with
  | false => simp [Server.logins, Store.note, Act.login]
  | true =>
    rw [if_pos rfl, if_pos ⟨hempty, rfl⟩]
    dsimp only
    split
    · rename_i hnone
      simp [hnone, Server.logins, Store.note, Act.login]
    · rw [logins_foldl]
      simp [Server.logins, Store.note, Act.login]

/-- The spec at a position gets its turn after those before it. -/
theorem connectAll_at (envs : ℕ → ServerEnv) (domainType : ℤ)
    {specs : List StorageServerConnection} {i : ℕ} {spec : StorageServerConnection}
    (h : specs[i]? = some spec) (n : ℕ) (w : Server) :
    let before := (connectAll envs domainType n (specs.take i) w).2
    (connectAll envs domainType n specs w).1[i]?
        = some (spec.id, (mountOne (envs (n + i)) domainType spec before).1) ∧
      (connectAll envs domainType n (specs.take (i + 1)) w).2
        = (Turn.connect (envs (n + i)) domainType spec).after before := by
  induction specs generalizing i n w with
  | nil => simp at h
  | cons first specs ih =>
    cases i with
    | zero =>
      obtain rfl : first = spec := by simpa using h
      exact ⟨by rw [connectAll_cons]; rfl, by rw [List.take_succ_cons, connectAll_cons]; rfl⟩
    | succ i =>
      have hrest := ih (by simpa using h) (n + 1)
        ((mountOne (envs n) domainType first w).2.register (mountOne (envs n) domainType first w).1
          first)
      have hn : n + (i + 1) = n + 1 + i := by omega
      simp only [List.take_succ_cons, connectAll_cons, hn] at hrest ⊢
      exact ⟨by simpa using hrest.1, hrest.2⟩

section Targets

variable (envs : ℕ → ServerEnv) (params : Value) (w : Server)

/-- The host when the spec at a position is reached. -/
def hostAt (i : ℕ) : Server :=
  (connectAll envs (intParamOr "domainType" 1 params) 0 ((conList params).take i) w).2

/-- The logins for the spec at a position. -/
def loginsAt (i : ℕ) : List (String × String) :=
  (hostAt envs params w (i + 1)).logins.drop (hostAt envs params w i).logins.length

/-- The statuses that are returned. -/
def statusesOf : List (String × ℤ) :=
  (connectAll envs (intParamOr "domainType" 1 params) 0 (conList params) w).1

/-- For each element that asks for a target there are logins to that target only, and its status is zero
only if one of them succeeded. -/
def LogsInAsAsked (xs : List Value) : Prop :=
  ∀ i x iqn, xs[i]? = some x → iqnOf x = some iqn →
    (∀ login ∈ loginsAt envs params w i, login.1 = iqn) ∧
      ∀ id, (statusesOf envs params w)[i]? = some (id, 0) →
        ∃ login ∈ loginsAt envs params w i, login.1 = iqn ∧
          (envs i).grants (.iscsiLogin login.1 login.2) = true

/-- The portals of the elements announce nothing but what is asked for. -/
def AnnouncedAsAsked (xs : List Value) : Prop :=
  ∀ i x iqn portal, xs[i]? = some x → iqnOf x = some iqn →
    (x.get "connection").bind Value.asStr = some portal → ∀ q ∈ announced (envs i) portal, q = iqn

variable {envs params w}

/-- What the loop does for the element at an index, from the host the earlier ones left. -/
theorem turnAt (hd : intParamOr "domainType" 1 params = 3) {i : ℕ} {spec : StorageServerConnection}
    (h : (conList params)[i]? = some spec) :
    (statusesOf envs params w)[i]?
        = some (spec.id, (iscsiLoginOne (envs i) spec (hostAt envs params w i)).1) ∧
      (hostAt envs params w (i + 1)).store
        = (iscsiLoginOne (envs i) spec (hostAt envs params w i)).2.store := by
  obtain ⟨hstatus, hafter⟩ := connectAll_at envs 3 h 0 w
  rw [statusesOf, hostAt, hostAt, hd]
  rw [Nat.zero_add] at hstatus hafter
  refine ⟨hstatus, ?_⟩
  rw [hafter, Turn.after, Server.register]
  split <;> rfl

/-- The spec at a position has all the targets of its portal logged in to. -/
theorem loginsAt_eq (hd : intParamOr "domainType" 1 params = 3) {i : ℕ}
    {spec : StorageServerConnection} (h : (conList params)[i]? = some spec) :
    loginsAt envs params w i = (announced (envs i) spec.connection).map fun q =>
      (q, spec.connection) := by
  have hlogins : (hostAt envs params w (i + 1)).logins
      = (iscsiLoginOne (envs i) spec (hostAt envs params w i)).2.logins := by
    rw [Server.logins, (turnAt hd h).2, Server.logins]
  rw [loginsAt, hlogins, logins_iscsiLoginOne, List.drop_left]

/-- Without specs nothing happens. -/
theorem logsInAsAsked_of_nil (h : conList params = []) (xs : List Value) :
    LogsInAsAsked envs params w xs := by
  intro i x iqn _ _
  have hlogins : loginsAt envs params w i = [] := by
    rw [loginsAt, hostAt, hostAt, h, List.take_nil, List.take_nil]
    exact List.drop_length
  have hstatuses : statusesOf envs params w = [] := by
    rw [statusesOf, h]
    rfl
  simp [hlogins, hstatuses]

/-- A status is zero only if one of the announced targets was logged in to. -/
theorem login_of_status (hd : intParamOr "domainType" 1 params = 3) {i : ℕ}
    {spec : StorageServerConnection} (h : (conList params)[i]? = some spec) {id : String}
    (hstatus : (statusesOf envs params w)[i]? = some (id, 0)) :
    ∃ login ∈ loginsAt envs params w i,
      (envs i).grants (.iscsiLogin login.1 login.2) = true := by
  rw [(turnAt hd h).1, Option.some.injEq, Prod.mk.injEq, iscsiLoginOne_status] at hstatus
  obtain ⟨-, hne, hgranted, iqn, hiqn, hlogin⟩ := hstatus
  refine ⟨(iqn, spec.connection), ?_, hlogin⟩
  rw [loginsAt_eq hd h, announced, if_pos ⟨hne, hgranted⟩]
  exact List.mem_map.mpr ⟨iqn, hiqn, rfl⟩

/-- An element that asks for a target is an object, and its portal is under a key of it. -/
theorem connection_of_iqn {x : Value} {spec : StorageServerConnection} {iqn : String}
    (hx : StorageServerConnection.ofValue x = some spec) (hiqn : iqnOf x = some iqn) :
    (x.get "connection").bind Value.asStr = some spec.connection := by
  cases x with
  | object fields =>
    simp only [StorageServerConnection.ofValue, Option.bind_eq_bind, Option.bind_eq_some_iff] at hx
    obtain ⟨id, -, connection, hconnection, _, -, _, -, _, -, hspec⟩ := hx
    rw [← Option.some.inj hspec]
    exact Option.bind_eq_some_iff.mpr hconnection
  | _ => simp [iqnOf, Value.get] at hiqn

/-- With specs, the targets that are announced decide. -/
theorem logsInAsAsked_iff (hd : intParamOr "domainType" 1 params = 3) {xs : List Value}
    (h : List.Forall₂ (fun x spec => StorageServerConnection.ofValue x = some spec) xs
      (conList params)) :
    LogsInAsAsked envs params w xs ↔ AnnouncedAsAsked envs xs := by
  have hspec : ∀ (i : ℕ) (x : Value), xs[i]? = some x → ∃ spec, (conList params)[i]? = some spec ∧
      StorageServerConnection.ofValue x = some spec := by
    intro i x hx
    obtain ⟨hi, rfl⟩ := List.getElem?_eq_some_iff.mp hx
    have hi' : i < (conList params).length := h.length_eq ▸ hi
    exact ⟨(conList params)[i], List.getElem?_eq_getElem hi', h.get hi hi'⟩
  constructor
  · intro hlogs i x iqn portal hx hiqn hportal q hq
    obtain ⟨spec, hi, hof⟩ := hspec i x hx
    obtain rfl : spec.connection = portal := by
      simpa [connection_of_iqn hof hiqn] using hportal
    refine (hlogs i x iqn hx hiqn).1 (q, spec.connection) ?_
    rw [loginsAt_eq hd hi]
    exact List.mem_map.mpr ⟨q, hq, rfl⟩
  · intro hasked i x iqn hx hiqn
    obtain ⟨spec, hi, hof⟩ := hspec i x hx
    have honly : ∀ login ∈ loginsAt envs params w i, login.1 = iqn := by
      intro login hlogin
      rw [loginsAt_eq hd hi] at hlogin
      obtain ⟨q, hq, rfl⟩ := List.mem_map.mp hlogin
      exact hasked i x iqn spec.connection hx hiqn (connection_of_iqn hof hiqn) q hq
    refine ⟨honly, fun id hstatus => ?_⟩
    obtain ⟨login, hmem, hgranted⟩ := login_of_status hd hi hstatus
    exact ⟨login, hmem, honly login hmem, hgranted⟩

end Targets

/-- Logins to the requested target. For every iSCSI request, all discoveries and all outcomes of the
logins: each element that names a target has logins to that target only, and a status of zero only if
one of them succeeded, exactly when the portals of these elements announce no other target, or when an
element of the request is no spec and so nothing is done. -/
theorem iscsi_target_iff (envs : ℕ → ServerEnv) (params : Value) (xs : List Value) (w : Server)
    (hxs : requested params = some xs) (hd : intParamOr "domainType" 1 params = 3) :
    LogsInAsAsked envs params w xs ↔
      (∃ x ∈ xs, isSpec x = false) ∨ AnnouncedAsAsked envs xs := by
  have hall : (∃ x ∈ xs, isSpec x = false) ↔ xs.mapM StorageServerConnection.ofValue = none := by
    rw [← Option.not_isSome_iff_eq_none, mapM_isSome_iff]
    simp [ofValue_isSome]
  have hconList := conList_eq hxs
  cases hmap : xs.mapM StorageServerConnection.ofValue with
  | none =>
    rw [hmap] at hconList
    exact iff_of_true (logsInAsAsked_of_nil hconList xs) (.inl (hall.mpr hmap))
  | some specs =>
    rw [hmap] at hall hconList
    rw [or_iff_right (fun hbad => by simpa using hall.mp hbad)]
    exact logsInAsAsked_iff hd (hconList ▸ mapM_eq_some_iff.mp hmap)

/-- An iSCSI spec with a target. -/
def targetSpec (iqn : String) : Value :=
  .object [("id", .string "id"), ("connection", .string "10.0.0.1:3260"), ("iqn", .string iqn)]

/-- A request for one target. -/
def connectTarget (iqn : String) : Value :=
  .object [("domainType", .number (.posInt 3)), ("connectionParams", .array [targetSpec iqn])]

/-- A host where every command succeeds and a discovery prints this. -/
def portalEnv (lines : String) : ServerEnv :=
  { quietServerEnv with
    host := { quietHost with
      output := fun _ args =>
        .ok ⟨true, some 0, if args.contains "discovery" then asBytes lines else [], []⟩ } }

/-- Where the portal has only the target that is asked for, only that is logged in to. -/
theorem iscsi_target_alone :
    LogsInAsAsked (fun _ => portalEnv "10.0.0.1:3260,1 iqn.a\n") (connectTarget "iqn.a") bareServer
      [targetSpec "iqn.a"] := by
  refine (iscsi_target_iff _ (connectTarget "iqn.a") _ bareServer rfl (by decide)).mpr (.inr ?_)
  have hone : announced (portalEnv "10.0.0.1:3260,1 iqn.a\n") "10.0.0.1:3260" = ["iqn.a"] := by
    decide +kernel
  intro i x iqn portal hx hiqn hportal q hq
  obtain rfl : x = targetSpec "iqn.a" := List.mem_singleton.mp (List.mem_of_getElem? hx)
  obtain rfl : "iqn.a" = iqn := Option.some.inj hiqn
  obtain rfl : "10.0.0.1:3260" = portal := Option.some.inj hportal
  rw [hone] at hq
  exact List.mem_singleton.mp hq

/-- A login to a target that was not asked for. -/
theorem iscsi_logs_in_to_all : ¬∀ envs params xs w, requested params = some xs →
    intParamOr "domainType" 1 params = 3 → LogsInAsAsked envs params w xs := by
  intro h
  have hlogs := h (fun _ => portalEnv "10.0.0.1:3260,1 iqn.a\n10.0.0.1:3260,1 iqn.b\n")
    (connectTarget "iqn.a") [targetSpec "iqn.a"] bareServer rfl (by decide) 0 _ "iqn.a" rfl rfl
  have hother := hlogs.1 ("iqn.b", "10.0.0.1:3260") (by decide +kernel)
  exact absurd hother (by decide)

end Vdsm.Storage
