import Vdsm.Lib.HashMap
import Vdsm.Lib.LinkedHashMap
import Vdsm.Schema.Codegen

/-!
# The YAML loader (`vdsm-schema/build.rs`, `LenientLoader`)

The loader turns the parser's events into a document with two stacks: the collections that are open,
innermost last, and for each open mapping the key that waits for its value, with `BadValue` where the
next node is a key. The two agree at every event of a well-formed document: `onEvents_events` says
that the events of a node, whatever the stacks, amount to putting the node's value in its place.
-/

namespace Vdsm.Schema

open Rust LinkedHashMap

/-! ## Events -/

/-- `yaml_rust2::parser::Tag`. -/
structure Tag where
  handle : String
  suffix : String

inductive TScalarStyle where
  | plain | singleQuoted | doubleQuoted | literal | folded
  deriving DecidableEq

/-- `yaml_rust2::parser::Event`. The number is the anchor's id, 0 where there is none. -/
inductive Event where
  | nothing
  | streamStart
  | streamEnd
  | documentStart
  | documentEnd
  | alias (id : ℕ)
  | scalar (v : String) (style : TScalarStyle) (aid : ℕ) (tag : Option Tag)
  | sequenceStart (aid : ℕ) (tag : Option Tag)
  | sequenceEnd
  | mappingStart (aid : ℕ) (tag : Option Tag)
  | mappingEnd

/-- What the loader calls in `yaml_rust2`: `Yaml::from_str` and `Hash::insert`. -/
structure YamlRust2 where
  fromStr : String → Yaml
  insert : List (Yaml × Yaml) → Yaml → Yaml → List (Yaml × Yaml)

/-! ## Scalars -/

/-- `v.parse::<i64>()`. -/
def parseI64 (v : String) : Option ℤ :=
  match v.toList with
  | '-' :: digits =>
    if digits ≠ [] ∧ digits.all Char.isDigit ∧ Nat.ofDigitChars 10 digits 0 ≤ 2 ^ 63 then
      some (-(Nat.ofDigitChars 10 digits 0 : ℤ))
    else none
  | _ => (parseUnsigned (2 ^ 63 - 1) v).map fun n => (n : ℤ)

/-- The text behind an optional sign. -/
def dropSign : List Char → List Char
  | '+' :: cs => cs
  | '-' :: cs => cs
  | cs => cs

/-- Nothing, or an exponent. -/
def isExponent : List Char → Bool
  | [] => true
  | c :: cs => (c == 'e' || c == 'E') && dropSign cs != [] && (dropSign cs).all Char.isDigit

/-- `v.parse::<f64>().is_ok()`. -/
def parsesF64 (v : String) : Bool :=
  let number := dropSign v.toList
  let word := String.ofList (number.map Char.toLower)
  let whole := number.takeWhile Char.isDigit
  word == "inf" || word == "infinity" || word == "nan" ||
    match number.dropWhile Char.isDigit with
    | '.' :: frac =>
      (whole != [] || frac.takeWhile Char.isDigit != []) && isExponent (frac.dropWhile Char.isDigit)
    | rest => whole != [] && isExponent rest

def scalarToYaml (lib : YamlRust2) (v : String) (style : TScalarStyle) (tag : Option Tag) : Yaml :=
  if style ≠ .plain then .string v
  else match tag with
    | some ⟨handle, suffix⟩ =>
      if handle = "tag:yaml.org,2002:" then
        if suffix = "bool" then
          if v = "true" ∨ v = "True" ∨ v = "TRUE" then .boolean true
          else if v = "false" ∨ v = "False" ∨ v = "FALSE" then .boolean false
          else .badValue
        else if suffix = "int" then ((parseI64 v).map Yaml.integer).getD .badValue
        else if suffix = "float" then if parsesF64 v then .real v else .badValue
        else if suffix = "null" then if v = "~" ∨ v = "null" then .null else .badValue
        else .string v
      else .string v
    | none => lib.fromStr v

/-! ## The loader -/

def Yaml.isBadvalue : Yaml → Bool
  | .badValue => true
  | _ => false

/-- `anchor_map`. -/
abbrev Anchors := HashMap ℕ Yaml

/-- The stacks have their last element first. -/
structure LenientLoader where
  docs : List Yaml
  docStack : List (Yaml × ℕ)
  keyStack : List Yaml
  anchorMap : Anchors

/-- The anchor of a complete node. -/
def register (anchors : Anchors) (node : Yaml × ℕ) : Anchors :=
  if node.2 > 0 then anchors.insert node.2 node.1 else anchors

namespace LenientLoader

/-- The part of `insert_node` behind the anchor: the node becomes the document, the next element of
a sequence, the next key of a mapping or the value of its pending key. -/
def place (lib : YamlRust2) (s : LenientLoader) (node : Yaml × ℕ) : Option LenientLoader :=
  match s.docStack with
  | [] => some { s with docStack := [node] }
  | (.array v, aid) :: below => some { s with docStack := (.array (v ++ [node.1]), aid) :: below }
  | (.hash h, aid) :: below =>
    match s.keyStack with
    | [] => none
    | curKey :: keys =>
      if curKey.isBadvalue then some { s with keyStack := node.1 :: keys }
      else
        some { s with
          docStack := (.hash (lib.insert h curKey node.1), aid) :: below
          keyStack := .badValue :: keys }
  | _ => none

def insertNode (lib : YamlRust2) (s : LenientLoader) (node : Yaml × ℕ) : Option LenientLoader :=
  place lib { s with anchorMap := register s.anchorMap node } node

/-- `on_event`; `none` is an `unwrap` on `None` or `unreachable!`. -/
def onEvent (lib : YamlRust2) (s : LenientLoader) : Event → Option LenientLoader
  | .documentStart | .nothing | .streamStart | .streamEnd => some s
  | .documentEnd =>
    match s.docStack with
    | [] => some { s with docs := s.docs ++ [.badValue] }
    | [node] => some { s with docs := s.docs ++ [node.1], docStack := [] }
    | _ => none
  | .sequenceStart aid _ => some { s with docStack := (.array [], aid) :: s.docStack }
  | .sequenceEnd =>
    match s.docStack with
    | [] => none
    | node :: below => insertNode lib { s with docStack := below } node
  | .mappingStart aid _ =>
    some { s with
      docStack := (.hash [], aid) :: s.docStack
      keyStack := .badValue :: s.keyStack }
  | .mappingEnd =>
    match s.keyStack, s.docStack with
    | _ :: keys, node :: below =>
      insertNode lib { s with docStack := below, keyStack := keys } node
    | _, _ => none
  | .scalar v style aid tag => insertNode lib s (scalarToYaml lib v style tag, aid)
  | .alias id => insertNode lib s ((s.anchorMap.lookup id).getD .badValue, 0)

def onEvents (lib : YamlRust2) (s : LenientLoader) (evs : List Event) : Option LenientLoader :=
  evs.foldlM (onEvent lib) s

end LenientLoader

/-! ## Documents -/

/-- A document tree as it is written: keys are arbitrary nodes and may come more than once. -/
inductive Node where
  | scalar (v : String) (style : TScalarStyle) (aid : ℕ) (tag : Option Tag)
  | alias (id : ℕ)
  | sequence (aid : ℕ) (tag : Option Tag) (items : List Node)
  | mapping (aid : ℕ) (tag : Option Tag) (entries : List (Node × Node))

/-- The anchor's id, 0 where there is none. -/
def Node.aid : Node → ℕ
  | .scalar _ _ aid _ => aid
  | .alias _ => 0
  | .sequence aid _ _ => aid
  | .mapping aid _ _ => aid

mutual

/-- The traversal of a tree. -/
def events : Node → List Event
  | .scalar v style aid tag => [.scalar v style aid tag]
  | .alias id => [.alias id]
  | .sequence aid tag items => .sequenceStart aid tag :: (itemEvents items ++ [.sequenceEnd])
  | .mapping aid tag entries => .mappingStart aid tag :: (entryEvents entries ++ [.mappingEnd])

def itemEvents : List Node → List Event
  | [] => []
  | n :: ns => events n ++ itemEvents ns

def entryEvents : List (Node × Node) → List Event
  | [] => []
  | (k, v) :: es => events k ++ (events v ++ entryEvents es)

end

/-- The event stream of a document. -/
def documentEvents (t : Node) : List Event :=
  [.streamStart, .documentStart] ++ (events t ++ [.documentEnd, .streamEnd])

mutual

/-- The last-wins document of a tree. `anchors` are the anchors before the node, with the values of
their nodes, and the last argument has those behind it; an alias to no complete node is
`BadValue`. -/
inductive LastWins (lib : YamlRust2) : Anchors → Node → Yaml → Anchors → Prop
  | scalar {anchors v style aid tag} :
      LastWins lib anchors (.scalar v style aid tag) (scalarToYaml lib v style tag)
        (register anchors (scalarToYaml lib v style tag, aid))
  | alias {anchors id} :
      LastWins lib anchors (.alias id) ((anchors.lookup id).getD .badValue) anchors
  | sequence {anchors anchors₁ aid tag items ys} (hitems : LastWinsItems lib anchors items ys anchors₁) :
      LastWins lib anchors (.sequence aid tag items) (.array ys) (register anchors₁ (.array ys, aid))
  | mapping {anchors anchors₁ aid tag entries pairs h}
      (hentries : LastWinsEntries lib anchors entries pairs anchors₁) (hlast : BindsLast h pairs) :
      LastWins lib anchors (.mapping aid tag entries) (.hash h) (register anchors₁ (.hash h, aid))

/-- The elements of a sequence, in order. -/
inductive LastWinsItems (lib : YamlRust2) : Anchors → List Node → List Yaml → Anchors → Prop
  | nil {anchors} : LastWinsItems lib anchors [] [] anchors
  | cons {anchors anchors₁ anchors₂ n ns y ys} (hhead : LastWins lib anchors n y anchors₁)
      (htail : LastWinsItems lib anchors₁ ns ys anchors₂) :
      LastWinsItems lib anchors (n :: ns) (y :: ys) anchors₂

/-- The keys and values of a mapping, in order and with its duplicates. -/
inductive LastWinsEntries (lib : YamlRust2) :
    Anchors → List (Node × Node) → List (Yaml × Yaml) → Anchors → Prop
  | nil {anchors} : LastWinsEntries lib anchors [] [] anchors
  | cons {anchors anchors₁ anchors₂ anchors₃ k v ky vy es pairs}
      (hkey : LastWins lib anchors k ky anchors₁) (hvalue : LastWins lib anchors₁ v vy anchors₂)
      (htail : LastWinsEntries lib anchors₂ es pairs anchors₃) :
      LastWinsEntries lib anchors ((k, v) :: es) ((ky, vy) :: pairs) anchors₃

end

/-! ## Loading a tree -/

section Load

variable (lib : YamlRust2)

mutual

/-- The value of a node and the anchors behind it. -/
def load : Node → Anchors → Yaml × Anchors
  | .scalar v style aid tag, anchors =>
    (scalarToYaml lib v style tag, register anchors (scalarToYaml lib v style tag, aid))
  | .alias id, anchors => ((anchors.lookup id).getD .badValue, anchors)
  | .sequence aid _ items, anchors =>
    let (ys, anchors₁) := loadItems items anchors
    (.array ys, register anchors₁ (.array ys, aid))
  | .mapping aid _ entries, anchors =>
    let (pairs, anchors₁) := loadEntries entries anchors
    let h := pairs.foldl (fun h e => lib.insert h e.1 e.2) []
    (.hash h, register anchors₁ (.hash h, aid))

def loadItems : List Node → Anchors → List Yaml × Anchors
  | [], anchors => ([], anchors)
  | n :: ns, anchors =>
    let (y, anchors₁) := load n anchors
    let (ys, anchors₂) := loadItems ns anchors₁
    (y :: ys, anchors₂)

def loadEntries : List (Node × Node) → Anchors → List (Yaml × Yaml) × Anchors
  | [], anchors => ([], anchors)
  | (k, v) :: es, anchors =>
    let (ky, anchors₁) := load k anchors
    let (vy, anchors₂) := load v anchors₁
    let (pairs, anchors₃) := loadEntries es anchors₂
    ((ky, vy) :: pairs, anchors₃)

end

mutual

/-- The values that the keys of the mappings in a node load to. -/
def keyValues : Node → Anchors → List Yaml
  | .scalar .., _ => []
  | .alias _, _ => []
  | .sequence _ _ items, anchors => itemKeyValues items anchors
  | .mapping _ _ entries, anchors => entryKeyValues entries anchors

def itemKeyValues : List Node → Anchors → List Yaml
  | [], _ => []
  | n :: ns, anchors => keyValues n anchors ++ itemKeyValues ns (load lib n anchors).2

def entryKeyValues : List (Node × Node) → Anchors → List Yaml
  | [], _ => []
  | (k, v) :: es, anchors =>
    let (ky, anchors₁) := load lib k anchors
    ky :: (keyValues k anchors ++ keyValues v anchors₁ ++
      entryKeyValues es (load lib v anchors₁).2)

end

end Load

mutual

/-- What a tree loads to is its last-wins document. -/
theorem lastWins_load {lib : YamlRust2} (hlib : LawfulInsert lib.insert) :
    ∀ (n : Node) (anchors : Anchors),
      LastWins lib anchors n (load lib n anchors).1 (load lib n anchors).2
  | .scalar _ _ _ _, _ => .scalar
  | .alias _, _ => .alias
  | .sequence _ _ items, anchors => .sequence (lastWins_loadItems hlib items anchors)
  | .mapping _ _ entries, anchors =>
    .mapping (lastWins_loadEntries hlib entries anchors) (bindsLast_foldl hlib _)

/-- The items of a sequence are loaded one by one, with the anchors of the earlier ones in
place. -/
theorem lastWins_loadItems {lib : YamlRust2} (hlib : LawfulInsert lib.insert) :
    ∀ (ns : List Node) (anchors : Anchors),
      LastWinsItems lib anchors ns (loadItems lib ns anchors).1 (loadItems lib ns anchors).2
  | [], _ => .nil
  | n :: ns, anchors => .cons (lastWins_load hlib n anchors) (lastWins_loadItems hlib ns _)

/-- So are the entries of a mapping, where a later value replaces that of an equal key. -/
theorem lastWins_loadEntries {lib : YamlRust2} (hlib : LawfulInsert lib.insert) :
    ∀ (es : List (Node × Node)) (anchors : Anchors),
      LastWinsEntries lib anchors es (loadEntries lib es anchors).1 (loadEntries lib es anchors).2
  | [], _ => .nil
  | (k, v) :: es, anchors =>
    .cons (lastWins_load hlib k anchors) (lastWins_load hlib v _) (lastWins_loadEntries hlib es _)

end

/-! ## The loader follows the tree -/

namespace LenientLoader

variable {lib : YamlRust2}

theorem onEvents_cons (s : LenientLoader) (ev : Event) (evs : List Event) :
    onEvents lib s (ev :: evs) = (onEvent lib s ev).bind fun s' => onEvents lib s' evs :=
  List.foldlM_cons

theorem onEvents_append (s : LenientLoader) (evs evs' : List Event) :
    onEvents lib s (evs ++ evs') = (onEvents lib s evs).bind fun s' => onEvents lib s' evs' :=
  List.foldlM_append

theorem onEvents_singleton (s : LenientLoader) (ev : Event) :
    onEvents lib s [ev] = onEvent lib s ev := by
  rw [onEvents_cons]
  exact Option.bind_fun_some _

/-- A node behind a key is its value. -/
theorem place_value {key : Yaml} (hkey : key ≠ .badValue) (docs : List Yaml)
    (h : List (Yaml × Yaml)) (aid : ℕ) (below : List (Yaml × ℕ)) (keys : List Yaml)
    (anchors : Anchors) (node : Yaml × ℕ) :
    place lib ⟨docs, (.hash h, aid) :: below, key :: keys, anchors⟩ node =
      some ⟨docs, (.hash (lib.insert h key node.1), aid) :: below, .badValue :: keys, anchors⟩ := by
  cases key <;> first | rfl | exact absurd rfl hkey

mutual

/-- The events of a node put its value in its place, and change nothing else but the anchors. -/
theorem onEvents_events : ∀ (n : Node) (docs : List Yaml) (stack : List (Yaml × ℕ))
    (keys : List Yaml) (anchors : Anchors), Yaml.badValue ∉ keyValues lib n anchors →
    onEvents lib ⟨docs, stack, keys, anchors⟩ (events n) =
      place lib ⟨docs, stack, keys, (load lib n anchors).2⟩ ((load lib n anchors).1, n.aid)
  | .scalar _ _ _ _, _, _, _, _, _ => onEvents_singleton _ _
  | .alias _, _, _, _, _, _ => onEvents_singleton _ _
  | .sequence aid tag items, docs, stack, keys, anchors, hkeys => by
    -- the sequence is on top of the stack while its elements come, and its end takes it off
    rw [events, onEvents_cons, onEvent, Option.bind_some, onEvents_append,
      onEvents_itemEvents items _ _ _ _ _ _ hkeys, Option.bind_some, onEvents_singleton]
    rfl
  | .mapping aid tag entries, docs, stack, keys, anchors, hkeys => by
    rw [events, onEvents_cons, onEvent, Option.bind_some, onEvents_append,
      onEvents_entryEvents entries _ _ _ _ _ _ hkeys, Option.bind_some, onEvents_singleton]
    rfl

/-- The events of elements append them to the open sequence. -/
theorem onEvents_itemEvents : ∀ (ns : List Node) (docs v : List Yaml) (aid : ℕ)
    (below : List (Yaml × ℕ)) (keys : List Yaml) (anchors : Anchors),
    Yaml.badValue ∉ itemKeyValues lib ns anchors →
    onEvents lib ⟨docs, (.array v, aid) :: below, keys, anchors⟩ (itemEvents ns) =
      some ⟨docs, (.array (v ++ (loadItems lib ns anchors).1), aid) :: below, keys,
        (loadItems lib ns anchors).2⟩
  | [], docs, v, aid, below, keys, anchors, _ => by
    rw [loadItems, List.append_nil]
    rfl
  | n :: ns, docs, v, aid, below, keys, anchors, hkeys => by
    rw [itemKeyValues, List.mem_append, not_or] at hkeys
    rw [itemEvents, onEvents_append, onEvents_events n _ _ _ _ hkeys.1, place, Option.bind_some,
      onEvents_itemEvents ns _ _ _ _ _ _ hkeys.2, List.append_assoc]
    rfl

/-- The events of entries insert them into the open mapping, with no key pending before and behind
them. -/
theorem onEvents_entryEvents : ∀ (es : List (Node × Node)) (docs : List Yaml)
    (h : List (Yaml × Yaml)) (aid : ℕ) (below : List (Yaml × ℕ)) (keys : List Yaml)
    (anchors : Anchors), Yaml.badValue ∉ entryKeyValues lib es anchors →
    onEvents lib ⟨docs, (.hash h, aid) :: below, .badValue :: keys, anchors⟩ (entryEvents es) =
      some ⟨docs, (.hash ((loadEntries lib es anchors).1.foldl
        (fun h e => lib.insert h e.1 e.2) h), aid) :: below, .badValue :: keys,
        (loadEntries lib es anchors).2⟩
  | [], _, _, _, _, _, _, _ => rfl
  | (k, v) :: es, docs, h, aid, below, keys, anchors, hkeys => by
    rw [entryKeyValues, List.mem_cons, List.mem_append, List.mem_append, not_or, not_or,
      not_or] at hkeys
    obtain ⟨hbad, ⟨hk, hv⟩, hes⟩ := hkeys
    -- the key goes where the sentinel is, and the value puts the sentinel back
    rw [entryEvents, onEvents_append, onEvents_events k _ _ _ _ hk, place]
    simp only [Yaml.isBadvalue, if_true, Option.bind_some]
    rw [onEvents_append, onEvents_events v _ _ _ _ hv, place_value (Ne.symm hbad),
      Option.bind_some, onEvents_entryEvents es _ _ _ _ _ _ hes]
    rfl

end

end LenientLoader

/-- **Last wins.** From any state between two documents the loader takes the events of a document in
which no key is `BadValue` without a panic, leaves both stacks empty and adds the last-wins document
of the tree. -/
theorem lenientLoader_lastWins (lib : YamlRust2) (hlib : LawfulInsert lib.insert)
    (s : LenientLoader) (hdoc : s.docStack = []) (hkey : s.keyStack = []) (t : Node)
    (hkeys : Yaml.badValue ∉ keyValues lib t s.anchorMap) :
    ∃ doc anchors, LastWins lib s.anchorMap t doc anchors ∧
      s.onEvents lib (documentEvents t) =
        some { docs := s.docs ++ [doc], docStack := [], keyStack := [], anchorMap := anchors } := by
  obtain ⟨docs, docStack, keyStack, anchors⟩ := s
  subst hdoc hkey
  refine ⟨_, _, lastWins_load hlib t anchors, ?_⟩
  -- the root has no parent, so it is alone on the stack when the document ends
  have hroot := LenientLoader.onEvents_events t docs [] [] anchors hkeys
  rw [documentEvents, LenientLoader.onEvents_append]
  show LenientLoader.onEvents lib _ (events t ++ _) = _
  rw [LenientLoader.onEvents_append, hroot]
  rfl

/-- The library on integers and words, with the map that puts an inserted entry last. -/
noncomputable def integersAndWords : YamlRust2 where
  fromStr v := ((parseI64 v).map Yaml.integer).getD (.string v)
  insert := @insertBack _ _ (Classical.decEq _)

/-- `{a: 1, b: &x [one], a: *x, {c: 2}: 3}`: a duplicate key, an alias and a mapping as a key. -/
def duplicateKeys : Node :=
  .mapping 0 none
    [(.scalar "a" .plain 0 none, .scalar "1" .plain 0 none),
      (.scalar "b" .plain 0 none, .sequence 1 none [.scalar "one" .plain 0 none]),
      (.scalar "a" .plain 0 none, .alias 1),
      (.mapping 0 none [(.scalar "c" .plain 0 none, .scalar "2" .plain 0 none)],
        .scalar "3" .plain 0 none)]

/-- A document with a key twice loads, with the later value. -/
theorem lenientLoader_duplicateKeys :
    ∃ doc anchors, LastWins integersAndWords ∅ duplicateKeys doc anchors ∧
      LenientLoader.onEvents integersAndWords ⟨[], [], [], ∅⟩ (documentEvents duplicateKeys) =
        some { docs := [doc], docStack := [], keyStack := [], anchorMap := anchors } :=
  lenientLoader_lastWins integersAndWords (@lawfulInsert_insertBack _ _ (Classical.decEq _))
    ⟨[], [], [], ∅⟩ rfl rfl duplicateKeys (by
      simp [duplicateKeys, keyValues, entryKeyValues, itemKeyValues, load, scalarToYaml,
        integersAndWords, parseI64, parseUnsigned])

end Vdsm.Schema
