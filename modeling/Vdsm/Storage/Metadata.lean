import Vdsm.Storage.Domain

/-!
# Metadata round trips

`Volume.create` and `StorageDomain.create` write key-value texts that `getInfo` reads back.
`metadata_reads_back` says that every field survives as long as the strings in it are plain: no line
break, and no white space around them.
-/

namespace Vdsm.Storage

open Rust FileSystem Supervdsm

/-! ## What is read -/

/-- A path that holds a file exists. -/
theorem pathExists_of_holds {fs : Fs} {path : String} {contents : List UInt8}
    (h : fs.Holds path contents) : fs.pathExists path = true := by
  obtain ⟨p, hp, hentry⟩ := h
  simp [Fs.pathExists, hp, Fs.isFile, hentry]

/-- Text that a file holds is read back. -/
theorem readToString_of_holds {fs : Fs} {path text : String} (h : fs.Holds path (asBytes text)) :
    readToString fs path = .ok text := by
  simp [readToString, h.readFile, fromUtf8_asBytes]

/-- `StorageDomain.getInfo` answers from the text it reads. -/
theorem getStorageDomainInfo_of_holds {env : Env} {q : Value} {st : Store} {backend : SdBackend}
    {text : String}
    (hback : sdBackend env.host st.toState (stringParam "storagedomainID" q) = some backend)
    (h : st.fs.Holds (metadataPath backend.dir) (asBytes text)) :
    (getStorageDomainInfo env q st).1
      = .ok (domainInfo (stringParam "storagedomainID" q) (parseKeyValues text)) := by
  have hne : stringParam "storagedomainID" q ≠ "" := by
    intro hempty
    simp [sdBackend, hempty] at hback
  simp [getStorageDomainInfo, hne, hback, Store.note, pathExists_of_holds h, readToString_of_holds h]

/-- `Volume.getInfo` answers from the text it reads; only the two sizes come from elsewhere. -/
theorem volumeGetInfo_eq {env : Env} {q : Value} {st : Store} {backend : SdBackend}
    (hback : sdBackend env.host st.toState (stringParam "storagedomainID" q) = some backend) :
    ∃ apparent, (volumeGetInfo env q st).1 = match readToString st.fs
        (metaPath backend.dir (stringParam "imageID" q) (stringParam "volumeID" q)) with
      | .error e => .error (.internal s!"read meta: {e}")
      | .ok content => .ok (volumeInfo (stringParam "volumeID" q) (stringParam "imageID" q)
          (stringParam "storagedomainID" q) apparent (parseKeyValues content)) := by
  cases backend with
  | file sdPath =>
    refine ⟨fileLength env st.fs (pathJoin (imgDir sdPath (stringParam "imageID" q))
      (stringParam "volumeID" q)), ?_⟩
    simp only [volumeGetInfo, hback, Store.note]
    split <;> simp_all
  | block vg stateDir =>
    refine ⟨(lvSizeBytes env.host vg (stringParam "volumeID" q)).getD 0, ?_⟩
    simp only [volumeGetInfo, hback, Store.note]
    split <;> simp_all

/-- `volume_get_info` reports what the metadata file of the volume holds. -/
theorem volumeGetInfo_of_holds {env : Env} {q : Value} {st : Store} {backend : SdBackend}
    {text : String}
    (hback : sdBackend env.host st.toState (stringParam "storagedomainID" q) = some backend)
    (h : st.fs.Holds (metaPath backend.dir (stringParam "imageID" q) (stringParam "volumeID" q))
      (asBytes text)) :
    ∃ apparent, (volumeGetInfo env q st).1 = .ok (volumeInfo (stringParam "volumeID" q)
      (stringParam "imageID" q) (stringParam "storagedomainID" q) apparent (parseKeyValues text)) := by
  obtain ⟨apparent, hinfo⟩ := volumeGetInfo_eq hback
  exact ⟨apparent, by rw [hinfo, readToString_of_holds h]⟩

/-! ## Plain fields -/

/-- The names of domain classes are plain. -/
theorem isPlain_classToStr (c : ℤ) : isPlain (classToStr c) = true := by
  unfold classToStr
  split_ifs <;> decide

theorem isPlain_typeToStr (t : ℤ) : isPlain (typeToStr t) = true := by
  unfold typeToStr
  split_ifs <;> decide

theorem isPlain_volFormatStr (v : ℤ) : isPlain (volFormatStr v) = true := by
  unfold volFormatStr
  split_ifs <;> decide

theorem isPlain_volAllocStr (v : ℤ) : isPlain (volAllocStr v) = true := by
  unfold volAllocStr
  split_ifs <;> decide

/-- The strings of a new domain hold no line feed and no white space around them. -/
structure CreateParams.Plain (p : CreateParams) : Prop where
  name : isPlain p.name = true
  typeargs : isPlain p.typeargs = true
  sdUuid : isPlain p.sdUuid = true

/-- The fields of the metadata text. -/
def CreateParams.fields (p : CreateParams) : List (String × String) := [
  ("ALIGNMENT", "1048576"),
  ("BLOCK_SIZE", toString p.blockSize),
  ("CLASS", classToStr p.domainClass),
  ("DESCRIPTION", p.name)] ++ p.tailFields

/-- Plain metadata is parsed to its fields. -/
theorem lookup_metadata {p : CreateParams} (h : p.Plain) (key : String) :
    (parseKeyValues p.metadata).lookup key = fieldValue key p.fields := by
  have hremote : isPlain p.remotePath = true := by
    unfold CreateParams.remotePath
    split_ifs
    · exact h.sdUuid
    · exact h.typeargs
  have hfields : ∀ f ∈ p.fields, isKey f.1 = true ∧ isPlain f.2 = true := by
    simp only [CreateParams.fields, CreateParams.tailFields, List.cons_append, List.nil_append,
      List.forall_mem_cons, isPlain_toString_int, isPlain_classToStr, isPlain_typeToStr, h.name,
      h.sdUuid, hremote, and_true]
    decide
  have hread := lastValue_keyLines hfields key ""
  rw [String.append_empty] at hread
  rw [lookup_parseKeyValues, CreateParams.metadata]
  exact hread.trans (by simp [lines, lastValue])

/-- The strings of a new volume hold no line feed and no white space around them. -/
structure PlainVolume (params : Value) : Prop where
  desc : isPlain (stringParam "desc" params) = true
  diskType : isPlain (stringParamOr "diskType" "DATA" params) = true
  srcVol : isPlain (stringParamOr "srcVolUUID" zeroUuid params) = true
  sdId : isPlain (stringParam "storagedomainID" params) = true
  imgId : isPlain (stringParam "imageID" params) = true

/-- The fields of a sidecar. -/
def metaFields (env : Env) (params : Value) : List (String × String) := [
  ("CAP", toString (sizeParam params).toNat),
  ("CTIME", toString env.now.toNat),
  ("DESCRIPTION", stringParam "desc" params),
  ("DISKTYPE", stringParamOr "diskType" "DATA" params),
  ("DOMAIN", stringParam "storagedomainID" params),
  ("FORMAT", volFormatStr (intParamOr "volFormat" 5 params)),
  ("GEN", "0"),
  ("IMAGE", stringParam "imageID" params),
  ("LEGALITY", "LEGAL"),
  ("PUUID", stringParamOr "srcVolUUID" zeroUuid params),
  ("TYPE", volAllocStr (intParamOr "preallocate" 0 params)),
  ("VOLTYPE", "LEAF")]

/-- The mark at the end of the metadata sets no key. -/
theorem lastValue_eof (key : String) : lastValue key (lines "EOF\n") = none := by
  have hlines : lines "EOF\n" = ["EOF"] := by decide
  have hsplit : splitOnce '=' "EOF" = none := by decide
  simp [hlines, lastValue, lineValue, hsplit]

/-- A plain sidecar is parsed to its fields. -/
theorem lookup_volumeMeta {env : Env} {params : Value} (h : PlainVolume params) (key : String) :
    (parseKeyValues (volumeMeta env params)).lookup key = fieldValue key (metaFields env params) := by
  have hfields : ∀ f ∈ metaFields env params, isKey f.1 = true ∧ isPlain f.2 = true := by
    simp only [metaFields, List.forall_mem_cons, isPlain_toString_nat, isPlain_volFormatStr,
      isPlain_volAllocStr, h.desc, h.diskType, h.srcVol, h.sdId, h.imgId, and_true]
    decide
  rw [lookup_parseKeyValues]
  exact (lastValue_keyLines hfields key "EOF\n").trans (by simp [lastValue_eof])

/-- The fields of a plain domain, as `StorageDomain.getInfo` names them. -/
theorem domainInfo_get (sdUuid : String) (p : CreateParams) (m : HashMap String String)
    (h : ∀ key, m.lookup key = fieldValue key p.fields) :
    (domainInfo sdUuid m).get "name" = some (.string p.name) ∧
      (domainInfo sdUuid m).get "remotePath" = some (.string p.remotePath) ∧
      (domainInfo sdUuid m).get "version" = some (.string (toString p.version)) ∧
      (domainInfo sdUuid m).get "block_size" = some (.string (toString p.blockSize)) ∧
      (domainInfo sdUuid m).get "class" = some (.string (classToStr p.domainClass)) ∧
      (domainInfo sdUuid m).get "type" = some (.string (typeToStr p.domainType)) ∧
      (domainInfo sdUuid m).get "role" = some (.string "Regular") := by
  simp [domainInfo, Value.get, h, fieldValue, CreateParams.fields, CreateParams.tailFields]

/-- The fields of a plain sidecar, as `Volume.getInfo` names them. -/
theorem volumeInfo_get (volId imgId sdId : String) (apparent : ℕ) (env : Env) (params : Value)
    (m : HashMap String String) (h : ∀ key, m.lookup key = fieldValue key (metaFields env params)) :
    let info := volumeInfo volId imgId sdId apparent m
    info.get "capacity" = some (.string (toString (sizeParam params).toNat)) ∧
      info.get "ctime" = some (.string (toString env.now.toNat)) ∧
      info.get "description" = some (.string (stringParam "desc" params)) ∧
      info.get "disktype" = some (.string (stringParamOr "diskType" "DATA" params)) ∧
      info.get "format" = some (.string (volFormatStr (intParamOr "volFormat" 5 params))) ∧
      info.get "type" = some (.string (volAllocStr (intParamOr "preallocate" 0 params))) ∧
      info.get "parent" = some (.string (stringParamOr "srcVolUUID" zeroUuid params)) := by
  simp [volumeInfo, Value.get, h, fieldValue, metaFields]

/-- A size given as a decimal string is taken as it is. -/
theorem sizeParam_decimal {params : Value} {s : String} {n : ℕ}
    (hs : params.get "size" = some (.string s)) (hn : parseUnsigned u64Max s = some n) :
    (sizeParam params).toNat = n := by
  have hle : n ≤ u64Max := by
    simp only [parseUnsigned] at hn
    split_ifs at hn with hdigits hmax
    obtain rfl := Option.some.inj hn
    exact hmax
  simp only [sizeParam, hs, Option.bind_some, Value.asStr, hn, Option.getD_some]
  exact UInt64.toNat_ofNat_of_lt (Nat.lt_of_le_of_lt hle (by decide))

/-- Metadata files read back what was written. After a `StorageDomain.create` with plain strings, a
`StorageDomain.getInfo` that is led to the file it wrote returns the values given; after a
`Volume.create` with plain strings, `Volume.getInfo` likewise. -/
theorem metadata_reads_back (env env' : Env) (params q v : Value) (st st' : Store)
    (backend : SdBackend)
    (hback : sdBackend env'.host st'.toState (stringParam "storagedomainID" q) = some backend) :
    let p := CreateParams.ofValue params
    (createStorageDomain env params st = (.ok v, st') → p.Plain →
      st'.fs.resolve (metadataPath backend.dir) = st'.fs.resolve (pathJoin p.domMd "metadata") →
      ∃ info, (getStorageDomainInfo env' q st').1 = .ok info ∧
        info.get "name" = some (.string p.name) ∧
        info.get "remotePath" = some (.string
          (if isBlockType p.domainType then p.sdUuid else p.typeargs)) ∧
        info.get "version" = some (.string (toString p.version)) ∧
        info.get "block_size" = some (.string (toString p.blockSize)) ∧
        info.get "class" = some (.string (classToStr p.domainClass)) ∧
        info.get "type" = some (.string (typeToStr p.domainType)) ∧
        info.get "role" = some (.string "Regular")) ∧
    (∀ created, volumeCreate env params st = (.ok v, st') → PlainVolume params →
      sdBackend env.host st.toState (stringParam "storagedomainID" params) = some created →
      st'.fs.resolve (metaPath backend.dir (stringParam "imageID" q) (stringParam "volumeID" q))
        = st'.fs.resolve (metaPath created.dir (stringParam "imageID" params)
          (stringParam "volumeID" params)) →
      ∃ info, (volumeGetInfo env' q st').1 = .ok info ∧
        info.get "capacity" = some (.string (toString (sizeParam params).toNat)) ∧
        info.get "ctime" = some (.string (toString env.now.toNat)) ∧
        info.get "description" = some (.string (stringParam "desc" params)) ∧
        info.get "disktype" = some (.string (stringParamOr "diskType" "DATA" params)) ∧
        info.get "format" = some (.string (volFormatStr (intParamOr "volFormat" 5 params))) ∧
        info.get "type" = some (.string (volAllocStr (intParamOr "preallocate" 0 params))) ∧
        info.get "parent" = some (.string (stringParamOr "srcVolUUID" zeroUuid params)) ∧
        ∀ s n, params.get "size" = some (.string s) → parseUnsigned u64Max s = some n →
          (sizeParam params).toNat = n) := by
  intro p
  constructor
  · intro hcreate hplain hres
    have hholds := (createStorageDomain_ok hcreate).of_resolve_eq hres
    exact ⟨_, getStorageDomainInfo_of_holds hback hholds,
      domainInfo_get _ _ _ (lookup_metadata hplain)⟩
  · intro created hcreate hplain hcreated hres
    obtain ⟨backend', hback', hholds, -⟩ := volumeCreate_ok hcreate
    obtain rfl : created = backend' := by simpa [hcreated] using hback'
    obtain ⟨apparent, hinfo⟩ := volumeGetInfo_of_holds hback (hholds.of_resolve_eq hres)
    obtain ⟨hcap, hctime, hdesc, hdisk, hformat, htype, hparent⟩ := volumeInfo_get
      (stringParam "volumeID" q) (stringParam "imageID" q) (stringParam "storagedomainID" q) apparent
      env params _ (lookup_volumeMeta hplain)
    exact ⟨_, hinfo, hcap, hctime, hdesc, hdisk, hformat, htype, hparent,
      fun s n => sizeParam_decimal⟩

/-- A new domain and a new volume, with equals signs in their texts. -/
def newObjects : Value :=
  .object [("storagedomainID", .string "vg"), ("imageID", .string "disk"), ("volumeID", .string "new"),
    ("domainType", .number (.posInt 3)), ("name", .string "a=b"), ("desc", .string "c=d"),
    ("size", .string "10")]

/-- A success has a result. -/
theorem exists_ok {α β : Type} {x : Except JsonRpcError α × β} (h : x.1.isOk = true) :
    ∃ v, x = (.ok v, x.2) := by
  obtain ⟨r, s⟩ := x
  cases r with
  | ok v => exact ⟨v, rfl⟩
  | error e => simp [Except.isOk, Except.toBool] at h

/-- The sample host has the domain as a volume group. -/
theorem sdBackend_vgHost (s : State) :
    sdBackend (vgHost true) s "vg" = some (.block "vg" "/var/lib/vdsm/sd/vg") := by
  have hvg : vgExists (vgHost true) "vg" = true := by decide +kernel
  have hdir : pathJoin blockSdStateBase "vg" = "/var/lib/vdsm/sd/vg" := by decide +kernel
  simp [sdBackend, hvg, hdir]

/-- Names and descriptions with a separator in them are read back on a block domain. -/
theorem metadata_reads_back_block :
    (∃ info, (getStorageDomainInfo (vgEnv true) newObjects
        (createStorageDomain (vgEnv true) newObjects oneLv).2).1 = .ok info ∧
        info.get "name" = some (.string "a=b")) ∧
      ∃ info, (volumeGetInfo (vgEnv true) newObjects
        (volumeCreate (vgEnv true) newObjects oneLv).2).1 = .ok info ∧
        info.get "description" = some (.string "c=d") := by
  obtain ⟨v, hdomain⟩ := exists_ok
    (x := createStorageDomain (vgEnv true) newObjects oneLv) (by decide +kernel)
  obtain ⟨w, hvolume⟩ := exists_ok (x := volumeCreate (vgEnv true) newObjects oneLv)
    (by decide +kernel)
  constructor
  · obtain ⟨info, hinfo, hname, -⟩ := (metadata_reads_back (vgEnv true) (vgEnv true) newObjects
      newObjects v oneLv _ _ (sdBackend_vgHost _)).1 hdomain
      ⟨by decide +kernel, by decide +kernel, by decide +kernel⟩ rfl
    exact ⟨info, hinfo, hname⟩
  · obtain ⟨info, hinfo, -, -, hdesc, -⟩ := (metadata_reads_back (vgEnv true) (vgEnv true) newObjects
      newObjects w oneLv _ _ (sdBackend_vgHost _)).2 _ hvolume
      ⟨by decide +kernel, by decide +kernel, by decide +kernel, by decide +kernel, by decide +kernel⟩
      (sdBackend_vgHost _) rfl
    exact ⟨info, hinfo, hdesc⟩

end Vdsm.Storage
