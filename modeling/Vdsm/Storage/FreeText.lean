import Vdsm.Storage.Metadata

/-!
# Free text in the metadata

The description of a volume and the name of a storage domain are written into the metadata without
escaping. Two requests that differ only there leave trees that differ in one file
(`DifferAt`). `free_text_iff` says when `getInfo` still answers the same in all other fields: when it
does not read that file, or when the lines the two texts add below their own settle every key above
alike. Keys below cannot be changed.
-/

namespace Vdsm.Storage

open Rust FileSystem Supervdsm

/-- The requests differ at most in one parameter. -/
def SameExcept (key : String) (params params' : Value) : Prop :=
  ∀ k, k ≠ key → params.get k = params'.get k

/-- A field of an answer. -/
def field (r : Except JsonRpcError Value) (k : String) : Option Value :=
  match r with
  | .ok v => v.get k
  | .error _ => none

/-! ## Two creations -/

/-- Two file volumes that differ in their metadata text. -/
theorem createFileVolume_two {env : Env} {sdPath imgId volId qemuFmt allocStr metaBlob : String}
    {metaBlob' : String} {sizeBytes : UInt64} {st st₁ st₂ : Store}
    (h₁ : createFileVolume env sdPath imgId volId sizeBytes qemuFmt allocStr metaBlob st
      = (.ok (), st₁))
    (h₂ : createFileVolume env sdPath imgId volId sizeBytes qemuFmt allocStr metaBlob' st
      = (.ok (), st₂)) :
    ∃ p, Fs.DifferAt (metaPath sdPath imgId volId) (asBytes metaBlob) (asBytes metaBlob') p
      st₁.fs st₂.fs := by
  simp only [createFileVolume] at h₁ h₂
  split at h₁
  · simp at h₁
  · rename_i hmkdir
    simp only [hmkdir] at h₂
    split at h₁
    · simp at h₁
    · rename_i hqemu
      simp only [hqemu] at h₂
      split_ifs at h₁ h₂
      · simp at h₁
      · split at h₁
        · simp at h₁
        · rename_i hwrite₁
          split at h₂
          · simp at h₂
          · rename_i hwrite₂
            obtain ⟨-, rfl⟩ := Prod.mk.inj h₁
            obtain ⟨-, rfl⟩ := Prod.mk.inj h₂
            obtain ⟨p, hdiff⟩ := Fs.differAt_writeFile (write_eq_ok hwrite₁).1 (write_eq_ok hwrite₂).1
            refine ⟨p, hdiff.writeFile ?_⟩
            -- the lease is written elsewhere
            have hmeta := hdiff.resolve_eq
            rw [metaPath_eq] at hmeta
            rw [pathJoin_append _ _ (by decide)]
            exact Fs.resolve_append_ne (by decide) (by decide) (by decide) hmeta

/-- Two metadata files written to one place in one state differ in their contents only. -/
theorem writeBlockMeta_two {env : Env} {stateDir imgId volId metaBlob metaBlob' : String}
    {st st₁ st₂ : Store}
    (h₁ : writeBlockMeta env stateDir imgId volId metaBlob st = (.ok (), st₁))
    (h₂ : writeBlockMeta env stateDir imgId volId metaBlob' st = (.ok (), st₂)) :
    ∃ p, Fs.DifferAt (metaPath stateDir imgId volId) (asBytes metaBlob) (asBytes metaBlob') p
      st₁.fs st₂.fs := by
  simp only [writeBlockMeta] at h₁ h₂
  split at h₁
  · simp at h₁
  · rename_i hmkdir
    simp only [hmkdir] at h₂
    split at h₁
    · simp at h₁
    · rename_i hwrite₁
      split at h₂
      · simp at h₂
      · rename_i hwrite₂
        obtain ⟨-, rfl⟩ := Prod.mk.inj h₁
        obtain ⟨-, rfl⟩ := Prod.mk.inj h₂
        exact Fs.differAt_writeFile (write_eq_ok hwrite₁).1 (write_eq_ok hwrite₂).1

/-- Two block volumes that differ in their metadata text. -/
theorem createBlockVolume_two {env : Env} {vg stateDir imgId volId qemuFmt metaBlob : String}
    {metaBlob' : String} {sizeBytes : UInt64} {st st₁ st₂ : Store}
    (h₁ : createBlockVolume env vg stateDir imgId volId sizeBytes qemuFmt metaBlob st
      = (.ok (), st₁))
    (h₂ : createBlockVolume env vg stateDir imgId volId sizeBytes qemuFmt metaBlob' st
      = (.ok (), st₂)) :
    ∃ p, Fs.DifferAt (metaPath stateDir imgId volId) (asBytes metaBlob) (asBytes metaBlob') p
      st₁.fs st₂.fs := by
  simp only [createBlockVolume] at h₁ h₂
  split at h₁
  · simp at h₁
  · rename_i hrun
    simp only [hrun] at h₂
    split_ifs at h₁ h₂
    · split at h₁
      · simp at h₁
      · rename_i hqemu
        simp only [hqemu] at h₂
        split_ifs at h₁ h₂
        · simp at h₁
        · exact writeBlockMeta_two h₁ h₂
    · exact writeBlockMeta_two h₁ h₂

/-- A parameter of another name is the same in both requests. -/
theorem stringParam_congr {key k : String} {params params' : Value}
    (h : SameExcept key params params') (hk : k ≠ key) : stringParam k params = stringParam k params' := by
  rw [stringParam, stringParam, h k hk]

theorem stringParamOr_congr {key k default : String} {params params' : Value}
    (h : SameExcept key params params') (hk : k ≠ key) :
    stringParamOr k default params = stringParamOr k default params' := by
  rw [stringParamOr, stringParamOr, h k hk]

theorem intParamOr_congr {key k : String} {default : ℤ} {params params' : Value}
    (h : SameExcept key params params') (hk : k ≠ key) :
    intParamOr k default params = intParamOr k default params' := by
  rw [intParamOr, intParamOr, h k hk]

/-- Two volumes that differ in their description. -/
theorem volumeCreate_two {env : Env} {params params' v v' : Value} {st st₁ st₂ : Store}
    {created : SdBackend} (hsame : SameExcept "desc" params params')
    (hback : sdBackend env.host st.toState (stringParam "storagedomainID" params) = some created)
    (h₁ : volumeCreate env params st = (.ok v, st₁))
    (h₂ : volumeCreate env params' st = (.ok v', st₂)) :
    ∃ p, Fs.DifferAt (metaPath created.dir (stringParam "imageID" params)
        (stringParam "volumeID" params)) (asBytes (volumeMeta env params))
      (asBytes (volumeMeta env params')) p st₁.fs st₂.fs := by
  have hsize : sizeParam params' = sizeParam params := by
    rw [sizeParam, sizeParam, hsame "size" (by decide)]
  simp only [volumeCreate, ← stringParam_congr hsame (k := "volumeID") (by decide),
    ← stringParam_congr hsame (k := "storagedomainID") (by decide),
    ← stringParam_congr hsame (k := "imageID") (by decide),
    ← intParamOr_congr hsame (k := "volFormat") (by decide),
    ← intParamOr_congr hsame (k := "preallocate") (by decide), hsize, hback] at h₁ h₂
  by_cases hids : stringParam "volumeID" params = "" ∨ stringParam "storagedomainID" params = "" ∨
      stringParam "imageID" params = ""
  · simp [hids] at h₁
  · rw [if_neg hids] at h₁ h₂
    split at h₁
    · simp at h₁
    · rename_i hout₁
      split at h₂
      · simp at h₂
      · rename_i hout₂
        obtain ⟨-, rfl⟩ := Prod.mk.inj h₁
        obtain ⟨-, rfl⟩ := Prod.mk.inj h₂
        cases created with
        | file sdPath => exact createFileVolume_two hout₁ hout₂
        | block vgName stateDir => exact createBlockVolume_two hout₁ hout₂

/-- The stubs of two domains. -/
theorem differAt_writeStubs {env : Env} {domMd : String} {contents contents' : List UInt8}
    {p : Location} {st st' : Store} (stubs : List (String × ℕ))
    (hnames : ∀ f ∈ stubs, isNameSuffix f.1 = true ∧ "metadata" ≠ f.1)
    (h : Fs.DifferAt (pathJoin domMd "metadata") contents contents' p st.fs st'.fs) :
    Fs.DifferAt (pathJoin domMd "metadata") contents contents' p (writeStubs env domMd stubs st).fs
      (writeStubs env domMd stubs st').fs := by
  have hjoin : ∀ s : String, startsWith s "/" = false → pathJoin domMd s = pathJoin domMd "" ++ s :=
    fun s hs => by rw [← pathJoin_append domMd "" hs, String.empty_append]
  induction stubs generalizing st st' with
  | nil => exact h
  | cons f stubs ih =>
    obtain ⟨hsfx, hne⟩ := hnames f (by simp)
    have hmeta := h.resolve_eq
    rw [hjoin "metadata" (by decide)] at hmeta
    have helse : st.fs.resolve (pathJoin domMd f.1) ≠ some p := by
      rw [hjoin f.1 (startsWith_slash_of_not_mem (not_mem_slash_of_isNameSuffix hsfx))]
      exact Fs.resolve_append_ne (by decide) hsfx hne hmeta
    have hone : Fs.DifferAt (pathJoin domMd "metadata") contents contents' p
        (st.write env (pathJoin domMd f.1) (List.replicate f.2 0)).2.fs
        (st'.write env (pathJoin domMd f.1) (List.replicate f.2 0)).2.fs := h.writeFile helse
    rw [writeStubs, writeStubs, List.foldl_cons, List.foldl_cons]
    exact ih (fun g hg => hnames g (List.mem_cons_of_mem f hg)) hone

/-- Two domains laid out in one state differ in their metadata file only. -/
theorem layOut_two {env : Env} {p : CreateParams} {name' : String} {v v' : Value}
    {st st₁ st₂ : Store} (h₁ : layOut env p st = (.ok v, st₁))
    (h₂ : layOut env { p with name := name' } st = (.ok v', st₂)) :
    ∃ loc, Fs.DifferAt (pathJoin p.domMd "metadata") (asBytes p.metadata)
      (asBytes { p with name := name' }.metadata) loc st₁.fs st₂.fs := by
  have hlayout : CreateParams.layout { p with name := name' } = p.layout := rfl
  have hdomMd : CreateParams.domMd { p with name := name' } = p.domMd := rfl
  simp only [layOut, hlayout, hdomMd] at h₁ h₂
  split at h₁
  · simp at h₁
  · rename_i hdirs
    simp only [hdirs] at h₂
    split at h₁
    · simp at h₁
    · rename_i hwrite₁
      split at h₂
      · simp at h₂
      · rename_i hwrite₂
        obtain ⟨-, rfl⟩ := Prod.mk.inj h₁
        obtain ⟨-, rfl⟩ := Prod.mk.inj h₂
        obtain ⟨loc, hdiff⟩ := Fs.differAt_writeFile (write_eq_ok hwrite₁).1 (write_eq_ok hwrite₂).1
        exact ⟨loc, differAt_writeStubs _ (by decide) hdiff⟩

/-- Two requests for a domain that differ in the name have the same parameters otherwise. -/
theorem createParams_congr {params params' : Value} (h : SameExcept "name" params params') :
    CreateParams.ofValue params'
      = { CreateParams.ofValue params with name := stringParamOr "name" "nfs" params' } := by
  simp only [CreateParams.ofValue, ← stringParam_congr h (k := "storagedomainID") (by decide),
    ← stringParam_congr h (k := "typeArgs") (by decide),
    ← intParamOr_congr h (k := "domainClass") (by decide),
    ← intParamOr_congr h (k := "domainType") (by decide),
    ← intParamOr_congr h (k := "blockSize") (by decide),
    ← intParamOr_congr h (k := "version") (by decide)]

/-- Two domains that differ in their name. -/
theorem createStorageDomain_two {env : Env} {params params' v v' : Value} {st st₁ st₂ : Store}
    (hsame : SameExcept "name" params params')
    (h₁ : createStorageDomain env params st = (.ok v, st₁))
    (h₂ : createStorageDomain env params' st = (.ok v', st₂)) :
    ∃ p, Fs.DifferAt (pathJoin (CreateParams.ofValue params).domMd "metadata")
      (asBytes (CreateParams.ofValue params).metadata)
      (asBytes (CreateParams.ofValue params').metadata) p st₁.fs st₂.fs := by
  simp only [createStorageDomain, createParams_congr hsame] at h₁ h₂ ⊢
  have hmp : CreateParams.mountpoint
      { CreateParams.ofValue params with name := stringParamOr "name" "nfs" params' }
        = (CreateParams.ofValue params).mountpoint := rfl
  rw [hmp] at h₂
  split_ifs at h₁ h₂
  · simp at h₁
  · simp at h₁
  · simp at h₁
  · exact layOut_two h₁ h₂
  · simp at h₁
  · exact layOut_two h₁ h₂

/-! ## What is read after the two -/

/-- The domains found do not depend on the contents of a file. -/
theorem sdBackend_differAt {s s' : State} {path : String} {contents contents' : List UInt8}
    {p : Location} (h : Fs.DifferAt path contents contents' p s.fs s'.fs) (host : Host)
    (sdUuid : String) :
    sdBackend host s' sdUuid = sdBackend host s sdUuid := by
  simp only [sdBackend, fileBackend, h.readDir_other, h.resolveDir_other]

/-- Nor does what is read from another file. -/
theorem readToString_differAt {path other : String} {contents contents' : List UInt8}
    {p : Location} {fs fs' : Fs} (h : Fs.DifferAt path contents contents' p fs fs')
    (hother : fs.resolve other ≠ some p) : readToString fs' other = readToString fs other := by
  rw [readToString, readToString, h.readFile_other hother]

/-- The fields of `Volume.getInfo` that must not depend on the description. -/
def volumeFields : List String :=
  ["capacity", "format", "type", "disktype", "parent", "legality", "voltype"]

/-- What follows the description in a sidecar. -/
def metaTail (params : Value) : String :=
  keyLines [
    ("DISKTYPE", stringParamOr "diskType" "DATA" params),
    ("DOMAIN", stringParam "storagedomainID" params),
    ("FORMAT", volFormatStr (intParamOr "volFormat" 5 params)),
    ("GEN", "0"),
    ("IMAGE", stringParam "imageID" params),
    ("LEGALITY", "LEGAL"),
    ("PUUID", stringParamOr "srcVolUUID" zeroUuid params),
    ("TYPE", volAllocStr (intParamOr "preallocate" 0 params)),
    ("VOLTYPE", "LEAF")] ++ "EOF\n"

/-- What stands above it. -/
def metaHead (env : Env) (params : Value) : List (String × String) :=
  [("CAP", toString (sizeParam params).toNat), ("CTIME", toString env.now.toNat)]

/-- The metadata of a volume with its description between what comes before and after. -/
theorem volumeMeta_eq (env : Env) (params : Value) :
    volumeMeta env params = keyLines (metaHead env params) ++
      (keyLine "DESCRIPTION" (stringParam "desc" params) ++ metaTail params) := by
  simp [volumeMeta, buildMeta, keyLines, metaHead, metaTail, String.append_assoc]

/-- What comes before is plain. -/
theorem metaHead_plain (env : Env) (params : Value) :
    ∀ f ∈ metaHead env params, isKey f.1 = true ∧ isPlain f.2 = true := by
  simp only [metaHead, List.forall_mem_cons, isPlain_toString_nat, and_true]
  decide

/-- `Volume.getInfo` answers from two sidecars with the same fields exactly when they give the same
capacity: the other fields stand below the description. -/
theorem volumeInfo_same_iff {env : Env} {params params' : Value}
    (hsame : SameExcept "desc" params params') (volId imgId sdId : String) (n n' : ℕ) :
    (∀ k ∈ volumeFields,
        (volumeInfo volId imgId sdId n (parseKeyValues (volumeMeta env params))).get k
          = (volumeInfo volId imgId sdId n' (parseKeyValues (volumeMeta env params'))).get k) ↔
      SettlesAlike "CAP" (toString (sizeParam params).toNat) (metaTail params)
        (stringParam "desc" params) (stringParam "desc" params') := by
  have htail : metaTail params' = metaTail params := by
    simp only [metaTail, ← stringParam_congr hsame (k := "storagedomainID") (by decide),
      ← stringParam_congr hsame (k := "imageID") (by decide),
      ← stringParamOr_congr hsame (k := "diskType") (by decide),
      ← stringParamOr_congr hsame (k := "srcVolUUID") (by decide),
      ← intParamOr_congr hsame (k := "volFormat") (by decide),
      ← intParamOr_congr hsame (k := "preallocate") (by decide)]
  have hhead : metaHead env params' = metaHead env params := by
    simp only [metaHead, sizeParam, hsame "size" (by decide)]
  have hbelow : ∀ key ∈ ["DISKTYPE", "FORMAT", "LEGALITY", "PUUID", "TYPE", "VOLTYPE"],
      (parseKeyValues (volumeMeta env params')).lookup key
        = (parseKeyValues (volumeMeta env params)).lookup key := by
    intro key hkey
    have hset : (lastValue key (lines (metaTail params))).isSome = true := by
      refine lastValue_keyLines_isSome (by simp only [List.forall_mem_cons]; decide) ?_ _
      simp only [List.mem_cons, List.not_mem_nil, or_false] at hkey
      rcases hkey with rfl | rfl | rfl | rfl | rfl | rfl <;> simp
    rw [volumeMeta_eq, volumeMeta_eq, htail, hhead, lookup_below (metaHead_plain env params)
      (by decide) hset, lookup_below (metaHead_plain env params) (by decide) hset]
  have hcap := lookup_above_iff (metaHead_plain env params) (k := "DESCRIPTION") (by decide) "CAP"
    (toString (sizeParam params).toNat) (by decide) (by simp [fieldValue, metaHead])
    (metaTail params) (stringParam "desc" params) (stringParam "desc" params')
  rw [← hcap, ← volumeMeta_eq]
  have htext' : keyLines (metaHead env params) ++
      (keyLine "DESCRIPTION" (stringParam "desc" params') ++ metaTail params)
        = volumeMeta env params' := by rw [volumeMeta_eq, htail, hhead]
  rw [htext']
  simp only [List.forall_mem_cons] at hbelow
  obtain ⟨hdisk, hformat, hlegal, hparent, htype, hvoltype, -⟩ := hbelow
  simp [volumeFields, volumeInfo, Value.get, hdisk, hformat, hlegal, hparent, htype, hvoltype]

/-- `Volume.getInfo` is led to the sidecar that `Volume.create` wrote. -/
def ReadsSidecar (env env' : Env) (params q : Value) (st st' : Store) : Prop :=
  ∃ created backend,
    sdBackend env.host st.toState (stringParam "storagedomainID" params) = some created ∧
      sdBackend env'.host st'.toState (stringParam "storagedomainID" q) = some backend ∧
      st'.fs.resolve (metaPath backend.dir (stringParam "imageID" q) (stringParam "volumeID" q))
        = st'.fs.resolve (metaPath created.dir (stringParam "imageID" params)
          (stringParam "volumeID" params))

/-- `Volume.getInfo` on a sidecar that is another file. -/
theorem volumeGetInfo_elsewhere {env : Env} {q : Value} {st₁ st₂ : Store} {backend : SdBackend}
    {path : String} {contents contents' : List UInt8} {p : Location}
    (hdiff : Fs.DifferAt path contents contents' p st₁.fs st₂.fs)
    (hback : sdBackend env.host st₁.toState (stringParam "storagedomainID" q) = some backend)
    (hres : st₁.fs.resolve (metaPath backend.dir (stringParam "imageID" q)
      (stringParam "volumeID" q)) ≠ some p) :
    ∀ k ∈ volumeFields, field (volumeGetInfo env q st₁).1 k = field (volumeGetInfo env q st₂).1 k := by
  have hback₂ := (sdBackend_differAt hdiff env.host (stringParam "storagedomainID" q)).trans hback
  obtain ⟨n, hinfo⟩ := volumeGetInfo_eq hback
  obtain ⟨n', hinfo'⟩ := volumeGetInfo_eq hback₂
  rw [hinfo, hinfo', readToString_differAt hdiff hres]
  intro k hk
  cases readToString st₁.fs (metaPath backend.dir (stringParam "imageID" q)
      (stringParam "volumeID" q)) with
  | error e => rfl
  | ok content =>
    simp only [volumeFields, List.mem_cons, List.not_mem_nil, or_false] at hk
    rcases hk with rfl | rfl | rfl | rfl | rfl | rfl | rfl <;> simp [field, volumeInfo, Value.get]

/-- Two descriptions change no other field of a volume exactly when its sidecar is not what is read,
or they settle the capacity alike. -/
theorem volume_free_text_iff {env env' : Env} {params params' q v v' : Value} {st st₁ st₂ : Store}
    (hsame : SameExcept "desc" params params')
    (h₁ : volumeCreate env params st = (.ok v, st₁))
    (h₂ : volumeCreate env params' st = (.ok v', st₂)) :
    (∀ k ∈ volumeFields, field (volumeGetInfo env' q st₁).1 k = field (volumeGetInfo env' q st₂).1 k) ↔
      (ReadsSidecar env env' params q st st₁ →
        SettlesAlike "CAP" (toString (sizeParam params).toNat) (metaTail params)
          (stringParam "desc" params) (stringParam "desc" params')) := by
  obtain ⟨created, hcreated, -⟩ := volumeCreate_ok h₁
  obtain ⟨p, hdiff⟩ := volumeCreate_two hsame hcreated h₁ h₂
  have hback₂ := sdBackend_differAt hdiff env'.host (stringParam "storagedomainID" q)
  cases hback : sdBackend env'.host st₁.toState (stringParam "storagedomainID" q) with
  | none =>
    rw [hback] at hback₂
    have hno : ¬ ReadsSidecar env env' params q st st₁ := by
      rintro ⟨c, b, -, hb, -⟩
      simp [hback] at hb
    simp [volumeGetInfo, hback, hback₂, field, hno]
  | some backend =>
    rw [hback] at hback₂
    by_cases hres : st₁.fs.resolve (metaPath backend.dir (stringParam "imageID" q)
        (stringParam "volumeID" q)) = some p
    · -- both read what the creations wrote
      have hreads : ReadsSidecar env env' params q st st₁ :=
        ⟨created, backend, hcreated, hback, hres.trans hdiff.resolve_eq.symm⟩
      obtain ⟨n, hinfo⟩ := volumeGetInfo_of_holds hback ⟨p, hres, hdiff.here⟩
      obtain ⟨n', hinfo'⟩ := volumeGetInfo_of_holds hback₂
        ⟨p, (hdiff.resolve_other _).trans hres, hdiff.there⟩
      rw [hinfo, hinfo']
      simp only [field, hreads, forall_const]
      exact volumeInfo_same_iff hsame _ _ _ n n'
    · -- both read something else, the same
      have hno : ¬ ReadsSidecar env env' params q st st₁ := by
        rintro ⟨c, b, hc, hb, heq⟩
        obtain rfl : created = c := by simpa [hcreated] using hc
        obtain rfl : backend = b := by simpa [hback] using hb
        exact hres (heq.trans hdiff.resolve_eq)
      simp only [hno, false_imp_iff, iff_true]
      exact volumeGetInfo_elsewhere hdiff hback hres

/-- The fields of `StorageDomain.getInfo` that must not depend on the name. -/
def domainFields : List String :=
  ["class", "type", "role", "version", "remotePath", "alignment", "block_size"]

/-- What stands above the name of a domain. -/
def CreateParams.headFields (p : CreateParams) : List (String × String) := [
  ("ALIGNMENT", "1048576"),
  ("BLOCK_SIZE", toString p.blockSize),
  ("CLASS", classToStr p.domainClass)]

/-- The metadata of a domain, taken apart in the same way. -/
theorem metadata_eq (p : CreateParams) :
    p.metadata = keyLines p.headFields ++ (keyLine "DESCRIPTION" p.name ++ keyLines p.tailFields) := by
  simp [CreateParams.metadata, CreateParams.headFields, keyLines, String.append_assoc]

theorem headFields_plain (p : CreateParams) :
    ∀ f ∈ p.headFields, isKey f.1 = true ∧ isPlain f.2 = true := by
  simp only [CreateParams.headFields, List.forall_mem_cons, isPlain_toString_int, isPlain_classToStr,
    and_true]
  decide

/-- Two names of a domain settle the keys above them alike. -/
def NamesSettle (p : CreateParams) (name' : String) : Prop :=
  ∀ f ∈ p.headFields, SettlesAlike f.1 f.2 (keyLines p.tailFields) p.name name'

/-- Two metadata files that agree on the keys below the name are told apart by those above it. -/
theorem domainInfo_eq_iff (sdUuid : String) {m m' : HashMap String String}
    (hremote : m'.lookup "REMOTE_PATH" = m.lookup "REMOTE_PATH")
    (hrole : m'.lookup "ROLE" = m.lookup "ROLE") (htype : m'.lookup "TYPE" = m.lookup "TYPE")
    (hversion : m'.lookup "VERSION" = m.lookup "VERSION") :
    (∀ k ∈ domainFields, (domainInfo sdUuid m).get k = (domainInfo sdUuid m').get k) ↔
      (m.lookup "ALIGNMENT").getD "" = (m'.lookup "ALIGNMENT").getD "" ∧
        (m.lookup "BLOCK_SIZE").getD "" = (m'.lookup "BLOCK_SIZE").getD "" ∧
        (m.lookup "CLASS").getD "" = (m'.lookup "CLASS").getD "" := by
  have hget : ∀ m : HashMap String String, domainFields.map (domainInfo sdUuid m).get
      = ["CLASS", "TYPE", "ROLE", "VERSION", "REMOTE_PATH", "ALIGNMENT", "BLOCK_SIZE"].map
        fun k => some (Value.string ((m.lookup k).getD "")) := by
    intro m
    simp [domainFields, domainInfo, Value.get]
  rw [← List.map_inj_left, hget, hget]
  simp only [List.map_cons, List.map_nil, List.cons.injEq, Option.some.injEq, Value.string.injEq,
    and_true, hremote, hrole, htype, hversion, true_and]
  constructor
  · rintro ⟨hclass, halign, hblock⟩
    exact ⟨halign, hblock, hclass⟩
  · rintro ⟨halign, hblock, hclass⟩
    exact ⟨hclass, halign, hblock⟩

/-- `StorageDomain.getInfo` answers from the metadata of two names with the same fields exactly when
they settle the keys above alike. -/
theorem domainInfo_same_iff (p : CreateParams) (name' sdUuid : String) :
    (∀ k ∈ domainFields, (domainInfo sdUuid (parseKeyValues p.metadata)).get k
        = (domainInfo sdUuid (parseKeyValues { p with name := name' }.metadata)).get k) ↔
      NamesSettle p name' := by
  have htext' : CreateParams.metadata { p with name := name' }
      = keyLines p.headFields ++ (keyLine "DESCRIPTION" name' ++ keyLines p.tailFields) :=
    metadata_eq { p with name := name' }
  have hbelow : ∀ key ∈ ["REMOTE_PATH", "ROLE", "TYPE", "VERSION"],
      (parseKeyValues (CreateParams.metadata { p with name := name' })).lookup key
        = (parseKeyValues p.metadata).lookup key := by
    intro key hkey
    have hset : (lastValue key (lines (keyLines p.tailFields))).isSome = true := by
      have htail : keyLines p.tailFields = keyLines p.tailFields ++ "" := by simp
      rw [htail]
      refine lastValue_keyLines_isSome
        (by simp only [CreateParams.tailFields, List.forall_mem_cons]; decide) ?_ _
      simp only [List.mem_cons, List.not_mem_nil, or_false] at hkey
      rcases hkey with rfl | rfl | rfl | rfl <;> simp [CreateParams.tailFields]
    rw [htext', metadata_eq, lookup_below (headFields_plain p) (by decide) hset,
      lookup_below (headFields_plain p) (by decide) hset]
  have habove : ∀ key default, "DESCRIPTION" ≠ key → fieldValue key p.headFields = some default →
      (((parseKeyValues p.metadata).lookup key).getD ""
          = ((parseKeyValues (CreateParams.metadata { p with name := name' })).lookup key).getD "" ↔
        SettlesAlike key default (keyLines p.tailFields) p.name name') := by
    intro key default hkey hdefault
    rw [htext', metadata_eq]
    exact lookup_above_iff (headFields_plain p) (by decide) key default hkey hdefault _ _ _
  have halign := habove "ALIGNMENT" "1048576" (by decide) (by simp [fieldValue, CreateParams.headFields])
  have hblock := habove "BLOCK_SIZE" (toString p.blockSize) (by decide)
    (by simp [fieldValue, CreateParams.headFields])
  have hclass := habove "CLASS" (classToStr p.domainClass) (by decide)
    (by simp [fieldValue, CreateParams.headFields])
  have hsettle : NamesSettle p name' ↔
      SettlesAlike "ALIGNMENT" "1048576" (keyLines p.tailFields) p.name name' ∧
        SettlesAlike "BLOCK_SIZE" (toString p.blockSize) (keyLines p.tailFields) p.name name' ∧
        SettlesAlike "CLASS" (classToStr p.domainClass) (keyLines p.tailFields) p.name name' := by
    simp only [NamesSettle, CreateParams.headFields, List.forall_mem_cons, List.not_mem_nil,
      false_imp_iff, implies_true, and_true]
  rw [hsettle, ← halign, ← hblock, ← hclass]
  simp only [List.forall_mem_cons] at hbelow
  obtain ⟨hremote, hrole, htype, hversion, -⟩ := hbelow
  exact domainInfo_eq_iff sdUuid hremote hrole htype hversion

/-- `StorageDomain.getInfo` is led to the metadata that `StorageDomain.create` wrote. -/
def ReadsMetadata (env' : Env) (params q : Value) (st' : Store) : Prop :=
  ∃ backend, sdBackend env'.host st'.toState (stringParam "storagedomainID" q) = some backend ∧
    st'.fs.resolve (metadataPath backend.dir)
      = st'.fs.resolve (pathJoin (CreateParams.ofValue params).domMd "metadata")

/-- `StorageDomain.getInfo` on metadata in another file. -/
theorem getStorageDomainInfo_elsewhere {env : Env} {q : Value} {st₁ st₂ : Store}
    {backend : SdBackend} {path : String} {contents contents' : List UInt8} {p : Location}
    (hdiff : Fs.DifferAt path contents contents' p st₁.fs st₂.fs)
    (hback : sdBackend env.host st₁.toState (stringParam "storagedomainID" q) = some backend)
    (hres : st₁.fs.resolve (metadataPath backend.dir) ≠ some p) :
    (getStorageDomainInfo env q st₂).1 = (getStorageDomainInfo env q st₁).1 := by
  have hback₂ := (sdBackend_differAt hdiff env.host (stringParam "storagedomainID" q)).trans hback
  have hexists : st₂.fs.pathExists (metadataPath backend.dir)
      = st₁.fs.pathExists (metadataPath backend.dir) := by
    simp only [Fs.pathExists, hdiff.resolve_other, hdiff.isDir_eq, hdiff.isFile_eq]
  have hread := readToString_differAt hdiff hres
  by_cases hid : stringParam "storagedomainID" q = ""
  · simp [getStorageDomainInfo, hid]
  by_cases hpath : st₁.fs.pathExists (metadataPath backend.dir) = true
  · cases hr : readToString st₁.fs (metadataPath backend.dir) <;>
      simp [getStorageDomainInfo, hid, hback, hback₂, Store.note, hexists, hpath, hread, hr]
  · simp [getStorageDomainInfo, hid, hback, hback₂, Store.note, hexists, hpath]

/-- Two names change no other field of a domain exactly when its metadata is not what is read, or
they settle the keys above them alike. -/
theorem domain_free_text_iff {env env' : Env} {params params' q v v' : Value} {st st₁ st₂ : Store}
    (hsame : SameExcept "name" params params')
    (h₁ : createStorageDomain env params st = (.ok v, st₁))
    (h₂ : createStorageDomain env params' st = (.ok v', st₂)) :
    (∀ k ∈ domainFields,
        field (getStorageDomainInfo env' q st₁).1 k = field (getStorageDomainInfo env' q st₂).1 k) ↔
      (ReadsMetadata env' params q st₁ →
        NamesSettle (CreateParams.ofValue params) (CreateParams.ofValue params').name) := by
  obtain ⟨p, hdiff⟩ := createStorageDomain_two hsame h₁ h₂
  have hback₂ := sdBackend_differAt hdiff env'.host (stringParam "storagedomainID" q)
  cases hback : sdBackend env'.host st₁.toState (stringParam "storagedomainID" q) with
  | none =>
    rw [hback] at hback₂
    have hno : ¬ ReadsMetadata env' params q st₁ := by
      rintro ⟨b, hb, -⟩
      simp [hback] at hb
    simp only [getStorageDomainInfo, hback, hback₂, hno, false_imp_iff, iff_true]
    intro k _
    split_ifs <;> rfl
  | some backend =>
    rw [hback] at hback₂
    by_cases hres : st₁.fs.resolve (metadataPath backend.dir) = some p
    · have hreads : ReadsMetadata env' params q st₁ :=
        ⟨backend, hback, hres.trans hdiff.resolve_eq.symm⟩
      rw [getStorageDomainInfo_of_holds hback ⟨p, hres, hdiff.here⟩,
        getStorageDomainInfo_of_holds hback₂ ⟨p, (hdiff.resolve_other _).trans hres, hdiff.there⟩]
      simp only [field, hreads, forall_const, createParams_congr hsame]
      exact domainInfo_same_iff _ _ _
    · have hno : ¬ ReadsMetadata env' params q st₁ := by
        rintro ⟨b, hb, heq⟩
        obtain rfl : backend = b := by simpa [hback] using hb
        exact hres (heq.trans hdiff.resolve_eq)
      simp [getStorageDomainInfo_elsewhere hdiff hback hres, hno]

/-- Free text and the other fields. Two `Volume.create` that differ only in `desc` lead to the same
answers of `Volume.getInfo`, the description apart, exactly when it does not read the sidecar or the
lines of the two texts settle the capacity alike; two `StorageDomain.create` that differ only in
`name`, exactly when `StorageDomain.getInfo` does not read the metadata or they settle alignment,
block size and class alike. -/
theorem free_text_iff (env env' : Env) (params params' q v v' : Value) (st st₁ st₂ : Store) :
    (SameExcept "desc" params params' → volumeCreate env params st = (.ok v, st₁) →
        volumeCreate env params' st = (.ok v', st₂) →
        ((∀ k ∈ volumeFields,
            field (volumeGetInfo env' q st₁).1 k = field (volumeGetInfo env' q st₂).1 k) ↔
          (ReadsSidecar env env' params q st st₁ →
            SettlesAlike "CAP" (toString (sizeParam params).toNat) (metaTail params)
              (stringParam "desc" params) (stringParam "desc" params')))) ∧
      (SameExcept "name" params params' → createStorageDomain env params st = (.ok v, st₁) →
        createStorageDomain env params' st = (.ok v', st₂) →
        ((∀ k ∈ domainFields, field (getStorageDomainInfo env' q st₁).1 k
            = field (getStorageDomainInfo env' q st₂).1 k) ↔
          (ReadsMetadata env' params q st₁ →
            NamesSettle (CreateParams.ofValue params) (CreateParams.ofValue params').name))) :=
  ⟨volume_free_text_iff, domain_free_text_iff⟩

/-- A request for a new volume, with its description. -/
def describedVolume (desc : String) : Value :=
  .object [("storagedomainID", .string "vg"), ("imageID", .string "disk"), ("volumeID", .string "new"),
    ("size", .string "10"), ("desc", .string desc)]

/-- A request for a new domain, with its name. -/
def namedDomain (name : String) : Value :=
  .object [("storagedomainID", .string "vg"), ("domainType", .number (.posInt 3)),
    ("name", .string name)]

theorem sameExcept_describedVolume (desc desc' : String) :
    SameExcept "desc" (describedVolume desc) (describedVolume desc') := by
  intro k hk
  simp [describedVolume, Value.get, List.find?_cons, Ne.symm hk]

theorem sameExcept_namedDomain (name name' : String) :
    SameExcept "name" (namedDomain name) (namedDomain name') := by
  intro k hk
  simp [namedDomain, Value.get, List.find?_cons, Ne.symm hk]

/-- Texts of one line change nothing else. -/
theorem free_text_of_one_line :
    (∀ k ∈ volumeFields,
      field (volumeGetInfo (vgEnv true) (describedVolume "")
          (volumeCreate (vgEnv true) (describedVolume "a") oneLv).2).1 k
        = field (volumeGetInfo (vgEnv true) (describedVolume "")
          (volumeCreate (vgEnv true) (describedVolume "CAP=1") oneLv).2).1 k) ∧
      ∀ k ∈ domainFields,
        field (getStorageDomainInfo (vgEnv true) (namedDomain "")
            (createStorageDomain (vgEnv true) (namedDomain "a") oneLv).2).1 k
          = field (getStorageDomainInfo (vgEnv true) (namedDomain "")
            (createStorageDomain (vgEnv true) (namedDomain "CLASS=Iso") oneLv).2).1 k := by
  obtain ⟨v, hv⟩ := exists_ok (x := volumeCreate (vgEnv true) (describedVolume "a") oneLv)
    (by decide +kernel)
  obtain ⟨v', hv'⟩ := exists_ok (x := volumeCreate (vgEnv true) (describedVolume "CAP=1") oneLv)
    (by decide +kernel)
  obtain ⟨w, hw⟩ := exists_ok (x := createStorageDomain (vgEnv true) (namedDomain "a") oneLv)
    (by decide +kernel)
  obtain ⟨w', hw'⟩ := exists_ok (x := createStorageDomain (vgEnv true) (namedDomain "CLASS=Iso") oneLv)
    (by decide +kernel)
  constructor
  · refine ((free_text_iff (vgEnv true) (vgEnv true) _ _ _ v v' oneLv _ _).1
      (sameExcept_describedVolume _ _) hv hv').mpr fun _ => .inr ?_
    decide +kernel
  · refine ((free_text_iff (vgEnv true) (vgEnv true) _ _ _ w w' oneLv _ _).2
      (sameExcept_namedDomain _ _) hw hw').mpr fun _ f hf => .inr ?_
    revert f
    decide +kernel

/-- A description of two lines sets the capacity. -/
theorem description_sets_capacity :
    SameExcept "desc" (describedVolume "d") (describedVolume "d\nCAP=1") ∧
      (volumeCreate (vgEnv true) (describedVolume "d") oneLv).1.isOk = true ∧
      (volumeCreate (vgEnv true) (describedVolume "d\nCAP=1") oneLv).1.isOk = true ∧
      ¬ ∀ k ∈ volumeFields,
        field (volumeGetInfo (vgEnv true) (describedVolume "")
            (volumeCreate (vgEnv true) (describedVolume "d") oneLv).2).1 k
          = field (volumeGetInfo (vgEnv true) (describedVolume "")
            (volumeCreate (vgEnv true) (describedVolume "d\nCAP=1") oneLv).2).1 k := by
  have hok : (volumeCreate (vgEnv true) (describedVolume "d") oneLv).1.isOk = true := by
    decide +kernel
  have hok' : (volumeCreate (vgEnv true) (describedVolume "d\nCAP=1") oneLv).1.isOk = true := by
    decide +kernel
  obtain ⟨v, hv⟩ := exists_ok hok
  obtain ⟨v', hv'⟩ := exists_ok hok'
  refine ⟨sameExcept_describedVolume _ _, hok, hok', ?_⟩
  rw [volume_free_text_iff (sameExcept_describedVolume _ _) hv hv']
  intro h
  have hsettle := h ⟨_, _, sdBackend_vgHost _, sdBackend_vgHost _, rfl⟩
  revert hsettle
  rw [SettlesAlike]
  decide +kernel

end Vdsm.Storage
