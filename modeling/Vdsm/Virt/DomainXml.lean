import Vdsm.Lib.XmlTemplate
import Vdsm.Virt.Registry

/-!
# Domain XML (`vdsm-virt/src/domain_xml.rs`)

`to_xml` fills a fixed template with the fields of a `DomainSpec`. The name is escaped, the uuid is
not, and it is whatever string the request has as `vmID`. The document is judged by what an XML
reader makes of it: the template's tags, and the fields as the texts of their elements.
-/

namespace Vdsm.Virt

open Rust Machine

/-- `xml_escape`. -/
def xmlEscape (s : String) : String :=
  s |> replaceWith '&' "&amp;" |> replaceWith '<' "&lt;" |> replaceWith '>' "&gt;"
    |> replaceWith '"' "&quot;" |> replaceWith '\x27' "&apos;"

/-- The template of `to_xml`, with its holes filled. -/
def render (name uuid mem vcpus : String) : String :=
  s!"<domain type='kvm'>
  <name>{name}</name>
  <uuid>{uuid}</uuid>
  <memory unit='MiB'>{mem}</memory>
  <currentMemory unit='MiB'>{mem}</currentMemory>
  <vcpu placement='static'>{vcpus}</vcpu>
  <os>
    <type arch='x86_64' machine='q35'>hvm</type>
    <boot dev='hd'/>
    <boot dev='cdrom'/>
    <boot dev='network'/>
  </os>
  <features>
    <acpi/>
    <apic/>
  </features>
  <cpu mode='host-passthrough' check='none'/>
  <clock offset='utc'/>
  <on_poweroff>destroy</on_poweroff>
  <on_reboot>restart</on_reboot>
  <on_crash>destroy</on_crash>
  <devices>
    <emulator>/usr/bin/qemu-system-x86_64</emulator>
    <controller type='usb' model='qemu-xhci'/>
    <serial type='pty'><target port='0'/></serial>
    <console type='pty'><target type='serial' port='0'/></console>
    <input type='tablet' bus='usb'/>
    <graphics type='vnc' port='-1' autoport='yes' listen='127.0.0.1'/>
    <video><model type='virtio'/></video>
    <memballoon model='virtio'/>
  </devices>
</domain>
"

/-- `DomainSpec::to_xml`. -/
def DomainSpec.toXml (spec : DomainSpec) : String :=
  render (xmlEscape spec.name) spec.uuid (toString spec.memMb) (toString spec.vcpus)

/-- The template with nothing in its holes. -/
def template : String := render "" "" "" ""

/-- What a document has to be: the tags of the template, and the fields as the texts of their
elements. -/
structure FillsTemplate (spec : DomainSpec) (doc : String) : Prop where
  tags_eq : Xml.tags doc = Xml.tags template
  name_eq : Xml.text "name" doc = some spec.name
  uuid_eq : Xml.text "uuid" doc = some spec.uuid
  memory_eq : Xml.text "memory" doc = some (toString spec.memMb)
  vcpu_eq : Xml.text "vcpu" doc = some (toString spec.vcpus)

/-! ## Escaped text -/

/-- `xml_escape`, of one character. -/
def escapeChar : Char → List Char
  | '&' => ['&', 'a', 'm', 'p', ';']
  | '<' => ['&', 'l', 't', ';']
  | '>' => ['&', 'g', 't', ';']
  | '"' => ['&', 'q', 'u', 'o', 't', ';']
  | '\x27' => ['&', 'a', 'p', 'o', 's', ';']
  | c => [c]

/-- Escaping goes character by character. -/
theorem toList_xmlEscape (s : String) : (xmlEscape s).toList = s.toList.flatMap escapeChar := by
  simp only [xmlEscape, replaceWith, String.toList_ofList, List.flatMap_assoc]
  congr 1
  funext c
  by_cases hspecial : c ∈ ['&', '<', '>', '"', '\x27']
  · simp only [List.mem_cons, List.not_mem_nil, or_false] at hspecial
    rcases hspecial with rfl | rfl | rfl | rfl | rfl <;> rfl
  · obtain ⟨hamp, hlt, hgt, hquot, hapos⟩ : c ≠ '&' ∧ c ≠ '<' ∧ c ≠ '>' ∧ c ≠ '"' ∧ c ≠ '\x27' := by
      simpa using hspecial
    have hescape : escapeChar c = [c] := by
      rw [escapeChar] <;> assumption
    simp only [hamp, hlt, hgt, hquot, hapos, hescape, if_false, List.flatMap_cons, List.flatMap_nil,
      List.append_nil]

/-- An escaped character is read as the character. -/
theorem run_escapeChar {c : Char} (hc : Xml.isChar c) (k : ℕ) :
    ∃ k', run Xml.step (.text k) (escapeChar c) = some (.text k', [.char c]) := by
  unfold escapeChar
  split
  · exact ⟨0, rfl⟩
  · exact ⟨0, rfl⟩
  · exact ⟨0, rfl⟩
  · exact ⟨0, rfl⟩
  · exact ⟨0, rfl⟩
  · rename_i hamp hlt hgt hquot hapos
    have hstep := Xml.step_text_of_data (k := k) hc hlt hamp fun h => hgt h.1
    exact ⟨_, run_cons_eq_some.mpr ⟨_, _, [], hstep, rfl, rfl⟩⟩

/-- An XML reader gives back what was escaped, as text. -/
theorem run_escape {cs : List Char} (h : ∀ c ∈ cs, Xml.isChar c) (k : ℕ) :
    ∃ k', run Xml.step (.text k) (cs.flatMap escapeChar) = some (.text k', cs.map .char) := by
  induction cs generalizing k with
  | nil => exact ⟨k, rfl⟩
  | cons c cs ih =>
    obtain ⟨hc, hcs⟩ := List.forall_mem_cons.mp h
    obtain ⟨k₁, hrun⟩ := run_escapeChar hc k
    obtain ⟨k₂, hrest⟩ := ih hcs k₁
    exact ⟨k₂, run_append_eq_some.mpr ⟨.text k₁, _, _, hrun, hrest, rfl⟩⟩

/-- Escaping hides no character that XML does not have. -/
theorem isChar_of_escape {cs : List Char} (h : ∀ d ∈ cs.flatMap escapeChar, Xml.isChar d) :
    ∀ c ∈ cs, Xml.isChar c := by
  intro c hc
  have hmem : ∀ d ∈ escapeChar c, Xml.isChar d := fun d hd => h d (List.mem_flatMap.mpr ⟨c, hc, hd⟩)
  unfold escapeChar at hmem
  split at hmem
  · decide
  · decide
  · decide
  · decide
  · decide
  · exact hmem c List.mem_cons_self

/-- No CR or LF comes out of an escape, and none is escaped. -/
theorem escapeChar_lineEnd {c d : Char} (hd : d = '\r' ∨ d = '\n') : d ∈ escapeChar c ↔ c = d := by
  unfold escapeChar
  split <;> rcases hd with rfl | rfl <;> simp_all [eq_comm]

/-- No character is escaped to nothing. -/
theorem escapeChar_ne_nil (c : Char) : escapeChar c ≠ [] := by
  unfold escapeChar
  split <;> simp

/-- Escaping leaves line ends alone. -/
theorem lineEnds_escape (cs : List Char) :
    Xml.lineEnds (cs.flatMap escapeChar) = (Xml.lineEnds cs).flatMap escapeChar := by
  fun_induction Xml.lineEnds cs with
  | case1 cs ih => simpa [escapeChar, Xml.lineEnds] using ih
  | case2 cs hlf ih =>
    have hhead : ∀ ds, cs.flatMap escapeChar ≠ '\n' :: ds := by
      intro ds heq
      cases cs with
      | nil => simp at heq
      | cons c cs =>
        obtain ⟨x, xs, hx⟩ := List.exists_cons_of_ne_nil (escapeChar_ne_nil c)
        rw [List.flatMap_cons, hx, List.cons_append] at heq
        obtain ⟨rfl, -⟩ := List.cons.inj heq
        have hc : c = '\n' := (escapeChar_lineEnd (.inr rfl)).mp (by simp [hx])
        exact hlf cs (by rw [hc])
    have hcr : escapeChar '\r' = ['\r'] ∧ escapeChar '\n' = ['\n'] := ⟨rfl, rfl⟩
    rw [List.flatMap_cons, List.flatMap_cons, hcr.1, hcr.2, List.singleton_append,
      List.singleton_append, Xml.lineEnds, ih]
    exact hhead
  | case3 c cs hcrlf hcr ih =>
    have hnot : '\r' ∉ escapeChar c := fun h => hcr ((escapeChar_lineEnd (.inl rfl)).mp h)
    rw [List.flatMap_cons, Xml.lineEnds_append_of_not_mem hnot, ih, List.flatMap_cons]
  | case4 => rfl

/-- An escaped text without a CR is read as the text. -/
theorem readsAs_escape {s : String} (h : ∀ c ∈ s.toList, Xml.isChar c ∧ c ≠ '\r') :
    Xml.ReadsAs (Xml.lineEnds (xmlEscape s).toList) s.toList := by
  have hcr : '\r' ∉ s.toList := fun hmem => (h _ hmem).2 rfl
  rw [toList_xmlEscape, lineEnds_escape, Xml.lineEnds_of_not_mem hcr]
  exact run_escape (fun c hc => (h c hc).1) 0

/-! ## The escape as an encoding -/

/-- The five entities. -/
def entities : List String := ["&amp;", "&lt;", "&gt;", "&quot;", "&apos;"]

/-- Replaces the entities by the characters they stand for. -/
def unescapeChars : List Char → List Char
  | '&' :: 'a' :: 'm' :: 'p' :: ';' :: l => '&' :: unescapeChars l
  | '&' :: 'l' :: 't' :: ';' :: l => '<' :: unescapeChars l
  | '&' :: 'g' :: 't' :: ';' :: l => '>' :: unescapeChars l
  | '&' :: 'q' :: 'u' :: 'o' :: 't' :: ';' :: l => '"' :: unescapeChars l
  | '&' :: 'a' :: 'p' :: 'o' :: 's' :: ';' :: l => '\x27' :: unescapeChars l
  | c :: l => c :: unescapeChars l
  | [] => []

def xmlUnescape (s : String) : String := String.ofList (unescapeChars s.toList)

/-- What is no entity is left alone. -/
theorem unescapeChars_cons {c : Char} (h : c ≠ '&') (l : List Char) :
    unescapeChars (c :: l) = c :: unescapeChars l := by
  rw [unescapeChars] <;> simp [h]

/-- Each character that was escaped is read back. -/
theorem unescapeChars_escapeChar (c : Char) (l : List Char) :
    unescapeChars (escapeChar c ++ l) = c :: unescapeChars l := by
  unfold escapeChar
  split
  · rfl
  · rfl
  · rfl
  · rfl
  · rfl
  · rename_i hamp _ _ _ _
    exact unescapeChars_cons hamp l

/-- So is the whole text. -/
theorem xmlUnescape_xmlEscape (s : String) : xmlUnescape (xmlEscape s) = s := by
  have hchars : ∀ cs : List Char, unescapeChars (cs.flatMap escapeChar) = cs := by
    intro cs
    induction cs with
    | nil => rfl
    | cons c cs ih => rw [List.flatMap_cons, unescapeChars_escapeChar, ih]
  rw [xmlUnescape, toList_xmlEscape, hchars, String.ofList_toList]

/-- A special character becomes an entity, any other is kept. -/
theorem escapeChar_cases (c : Char) :
    String.ofList (escapeChar c) ∈ entities ∨
      (c ∉ ['&', '<', '>', '"', '\x27'] ∧ escapeChar c = [c]) := by
  unfold escapeChar
  split
  · exact .inl (by decide)
  · exact .inl (by decide)
  · exact .inl (by decide)
  · exact .inl (by decide)
  · exact .inl (by decide)
  · rename_i hamp hlt hgt hquot hapos
    exact .inr ⟨by simpa using ⟨hamp, hlt, hgt, hquot, hapos⟩, rfl⟩

/-- Past its ampersand an entity has no special character. -/
theorem entity_tail {e : String} (he : e ∈ entities) :
    ∃ l, e.toList = '&' :: l ∧ ∀ d ∈ ['&', '<', '>', '"', '\x27'], d ∉ l := by
  simp only [entities, List.mem_cons, List.not_mem_nil, or_false] at he
  rcases he with rfl | rfl | rfl | rfl | rfl
  · exact ⟨['a', 'm', 'p', ';'], rfl, by simp⟩
  · exact ⟨['l', 't', ';'], rfl, by simp⟩
  · exact ⟨['g', 't', ';'], rfl, by simp⟩
  · exact ⟨['q', 'u', 'o', 't', ';'], rfl, by simp⟩
  · exact ⟨['a', 'p', 'o', 's', ';'], rfl, by simp⟩

/-- No delimiter is left of a character. -/
theorem not_mem_escapeChar {c d : Char} (hd : d ∈ ['<', '>', '"', '\x27']) : d ∉ escapeChar c := by
  have hspecial : d ∈ ['&', '<', '>', '"', '\x27'] := List.mem_cons_of_mem _ hd
  intro hmem
  obtain hent | ⟨hplain, heq⟩ := escapeChar_cases c
  · obtain ⟨l, hl, htail⟩ := entity_tail hent
    rw [String.toList_ofList] at hl
    rw [hl, List.mem_cons] at hmem
    obtain rfl | hmem := hmem
    · simp at hd
    · exact htail d hspecial hmem
  · rw [heq, List.mem_singleton] at hmem
    exact hplain (hmem ▸ hspecial)

/-- An ampersand in an escaped character starts it, and it is an entity. -/
theorem escapeChar_amp {c : Char} {l r : List Char} (h : escapeChar c = l ++ '&' :: r) :
    l = [] ∧ String.ofList (escapeChar c) ∈ entities := by
  obtain hent | ⟨hplain, heq⟩ := escapeChar_cases c
  · refine ⟨?_, hent⟩
    obtain ⟨t, ht, htail⟩ := entity_tail hent
    rw [String.toList_ofList, h] at ht
    cases l with
    | nil => rfl
    | cons a l =>
      obtain ⟨-, rfl⟩ := List.cons.inj ht
      exact absurd (by simp) (htail '&' (by simp))
  · have hmem : '&' ∈ [c] := heq ▸ h ▸ by simp
    rw [List.mem_singleton] at hmem
    exact absurd (by simp [← hmem]) hplain

/-- An ampersand in escaped text begins an entity. -/
theorem escape_amp {cs l r : List Char} (h : cs.flatMap escapeChar = l ++ '&' :: r) :
    ∃ e ∈ entities, e.toList <+: '&' :: r := by
  induction cs generalizing l with
  | nil => simp at h
  | cons c cs ih =>
    rw [List.flatMap_cons, List.append_eq_append_iff] at h
    obtain ⟨m, rfl, hrest⟩ | ⟨m, hesc, hrest⟩ := h
    · exact ih hrest
    · cases m with
      | nil => exact ih (l := []) (by simpa using hrest.symm)
      | cons d m =>
        obtain ⟨rfl, rfl⟩ := List.cons.inj hrest
        obtain ⟨rfl, hent⟩ := escapeChar_amp hesc
        exact ⟨_, hent, by rw [String.toList_ofList, hesc]; simp⟩

/-- Successive replacement is a faithful encoding. For every text, `xml_escape` is the substitution of
each special character by its entity in one pass; it leaves none of the four delimiters and no
ampersand that does not start an entity, and decoding the entities gives the text back, so no two
texts have the same encoding. -/
theorem xmlEscape_faithful (s : String) :
    (xmlEscape s).toList = s.toList.flatMap escapeChar ∧
      (∀ d ∈ ['<', '>', '"', '\x27'], d ∉ (xmlEscape s).toList) ∧
      (∀ l r, (xmlEscape s).toList = l ++ '&' :: r → ∃ e ∈ entities, e.toList <+: '&' :: r) ∧
      xmlUnescape (xmlEscape s) = s ∧
      ∀ t, xmlEscape s = xmlEscape t → s = t := by
  have hlist := toList_xmlEscape s
  refine ⟨hlist, ?_, ?_, xmlUnescape_xmlEscape s, ?_⟩
  · intro d hd hmem
    rw [hlist, List.mem_flatMap] at hmem
    obtain ⟨c, -, hc⟩ := hmem
    exact not_mem_escapeChar hd hc
  · intro l r h
    exact escape_amp (hlist ▸ h)
  · intro t h
    rw [← xmlUnescape_xmlEscape s, h, xmlUnescape_xmlEscape]

/-! ## Numbers -/

/-- Digits are characters of XML. -/
theorem isChar_of_isDigit {c : Char} (h : c.isDigit) : Xml.isChar c := by
  have hrange := toNat_of_isDigit h
  have hchar : 0x20 ≤ c.toNat ∧ c.toNat ≠ 0xFFFE ∧ c.toNat ≠ 0xFFFF := by omega
  simp [Xml.isChar, hchar]

/-- A printed number is read as it stands. -/
theorem literal_toString (n : ℕ) : Xml.Literal (toString n).toList := by
  have hne : ∀ {c : Char}, c ∈ (toString n).toList → ∀ d : Char, d.isDigit = false → c ≠ d := by
    rintro c hc d hd rfl
    simp [isDigit_of_mem_toString hc] at hd
  refine ⟨fun c hc => ⟨isChar_of_isDigit (isDigit_of_mem_toString hc), hne hc _ rfl, hne hc _ rfl,
    hne hc _ rfl⟩, fun hend => ?_⟩
  have hmem : '>' ∈ (toString n).toList := hend.subset (by decide)
  exact hne hmem '>' rfl rfl

/-- Within a comment or the like a number ends nothing. -/
theorem inert_toString {m : Xml.Mode} (hm : m ∈ Xml.swallowing) (n : ℕ) :
    Xml.Inert m (Xml.lineEnds (toString n).toList) := by
  have hcr : '\r' ∉ (toString n).toList := fun h => by simpa using isDigit_of_mem_toString h
  rw [Xml.lineEnds_of_not_mem hcr]
  refine Xml.inert_of_forall hm fun c hc => ?_
  have hd := isDigit_of_mem_toString hc
  refine ⟨isChar_of_isDigit hd, ?_, ?_, ?_⟩ <;> rintro rfl <;> simp at hd

/-! ## The template -/

/-- None of these is the start tag of the element. -/
def Avoids (name : String) (ts : List Xml.Token) : Prop :=
  ∀ x ∈ ts, x.startName? ≠ some name.toList

instance (name : String) (ts : List Xml.Token) : Decidable (Avoids name ts) :=
  inferInstanceAs (Decidable (∀ x ∈ ts, x.startName? ≠ some name.toList))

/-- The pieces of the template between its holes, each ending in the start tag of the element whose
text the hole is. -/
structure Layout where
  toName : Xml.Piece
  toUuid : Xml.Piece
  toMemory : Xml.Piece
  toCurrentMemory : Xml.Piece
  toVcpu : Xml.Piece
  last : Xml.Piece
  name : Xml.UpTo "name" toName.tokens
  uuid : Avoids "uuid" toName.tokens ∧ Xml.UpTo "uuid" toUuid.tokens
  memory : Avoids "memory" (toName.tokens ++ toUuid.tokens) ∧ Xml.UpTo "memory" toMemory.tokens
  vcpu :
    Avoids "vcpu" (toName.tokens ++ toUuid.tokens ++ toMemory.tokens ++ toCurrentMemory.tokens) ∧
      Xml.UpTo "vcpu" toVcpu.tokens
  render_eq : ∀ name uuid mem vcpus : String, (render name uuid mem vcpus).toList =
    toName.chars ++ (name.toList ++ (toUuid.chars ++ (uuid.toList ++ (toMemory.chars ++
      (mem.toList ++ (toCurrentMemory.chars ++ (mem.toList ++ (toVcpu.chars ++
        (vcpus.toList ++ last.chars)))))))))

/-- The template with its holes, piece by piece. -/
theorem toList_pieces {name uuid mem vcpus : String} {a b c d e f : List Char} :
    (String.ofList a ++ name ++ String.ofList b ++ uuid ++ String.ofList c ++ mem ++
      String.ofList d ++ mem ++ String.ofList e ++ vcpus ++ String.ofList f).toList =
      a ++ (name.toList ++ (b ++ (uuid.toList ++ (c ++ (mem.toList ++ (d ++ (mem.toList ++
        (e ++ (vcpus.toList ++ f))))))))) := by
  simp

set_option maxRecDepth 20000 in
/-- The template as the literals of its text, which are read by evaluation. -/
theorem exists_pieces : ∃ a b c d e f : List Char,
    (∀ name uuid mem vcpus : String, (render name uuid mem vcpus).toList =
      a ++ (name.toList ++ (b ++ (uuid.toList ++ (c ++ (mem.toList ++ (d ++ (mem.toList ++
        (e ++ (vcpus.toList ++ f)))))))))) ∧
    ∃ ta ∈ Xml.piece? a, ∃ tb ∈ Xml.piece? b, ∃ tc ∈ Xml.piece? c, ∃ td ∈ Xml.piece? d,
      ∃ te ∈ Xml.piece? e, ∃ _tf ∈ Xml.piece? f,
      Xml.UpTo "name" ta ∧ (Avoids "uuid" ta ∧ Xml.UpTo "uuid" tb) ∧
        (Avoids "memory" (ta ++ tb) ∧ Xml.UpTo "memory" tc) ∧
        (Avoids "vcpu" (ta ++ tb ++ tc ++ td) ∧ Xml.UpTo "vcpu" te) :=
  -- unification finds the pieces as lists of characters: to evaluate `toList` on them is slow
  ⟨_, _, _, _, _, _, fun _ _ _ _ => toList_pieces, by decide +kernel⟩

/-- The pieces of the template are markup. -/
theorem exists_layout : Nonempty Layout := by
  obtain ⟨a, b, c, d, e, f, hrender, ta, ha, tb, hb, tc, hc, td, hd, te, he, tf, hf, hname, huuid,
    hmemory, hvcpu⟩ := exists_pieces
  obtain ⟨pa, rfl, rfl⟩ := Xml.exists_piece ha
  obtain ⟨pb, rfl, rfl⟩ := Xml.exists_piece hb
  obtain ⟨pc, rfl, rfl⟩ := Xml.exists_piece hc
  obtain ⟨pd, rfl, rfl⟩ := Xml.exists_piece hd
  obtain ⟨pe, rfl, rfl⟩ := Xml.exists_piece he
  obtain ⟨pf, rfl, -⟩ := Xml.exists_piece hf
  exact ⟨⟨pa, pb, pc, pd, pe, pf, hname, huuid, hmemory, hvcpu, hrender⟩⟩

namespace Layout

variable (l : Layout)

/-- The holes, each with what is put in and what is to be read. -/
def fields (name uuid mem vcpus : List Char × List Char) : List Xml.Field :=
  [⟨l.toName, name.1, name.2⟩, ⟨l.toUuid, uuid.1, uuid.2⟩, ⟨l.toMemory, mem.1, mem.2⟩,
    ⟨l.toCurrentMemory, mem.1, mem.2⟩, ⟨l.toVcpu, vcpus.1, vcpus.2⟩]

/-- The rendered document is the template with its holes filled. -/
theorem toList_render (name uuid mem vcpus : String) (name' uuid' mem' vcpus' : List Char) :
    (render name uuid mem vcpus).toList =
      Xml.fill (l.fields (name.toList, name') (uuid.toList, uuid') (mem.toList, mem')
        (vcpus.toList, vcpus')) l.last :=
  l.render_eq name uuid mem vcpus

/-- The template filled with texts that are read as these. -/
theorem scan_render {name uuid mem vcpus : String} {name' uuid' mem' vcpus' : List Char}
    (hname : Xml.ReadsAs (Xml.lineEnds name.toList) name')
    (huuid : Xml.ReadsAs (Xml.lineEnds uuid.toList) uuid')
    (hmem : Xml.ReadsAs (Xml.lineEnds mem.toList) mem')
    (hvcpus : Xml.ReadsAs (Xml.lineEnds vcpus.toList) vcpus') :
    Xml.scan (render name uuid mem vcpus) =
      some (Xml.fillTokens (l.fields (name.toList, name') (uuid.toList, uuid') (mem.toList, mem')
        (vcpus.toList, vcpus')) l.last) := by
  refine Xml.scan_eq_fillTokens (l.toList_render name uuid mem vcpus name' uuid' mem' vcpus') ?_
  simp only [fields, List.forall_mem_cons]
  exact ⟨hname, huuid, hmem, hmem, hvcpus, by simp⟩

/-- The tags do not depend on the texts. -/
theorem tags_fields (name uuid mem vcpus name' uuid' mem' vcpus' : List Char × List Char) :
    (Xml.fillTokens (l.fields name uuid mem vcpus) l.last).filterMap Xml.Token.tag? =
      (Xml.fillTokens (l.fields name' uuid' mem' vcpus') l.last).filterMap Xml.Token.tag? := by
  rw [Xml.filterMap_tag_fillTokens, Xml.filterMap_tag_fillTokens]
  rfl

/-- The texts of the elements with holes. -/
theorem textAfter_fields (name uuid mem vcpus : List Char × List Char) :
    let ts := Xml.fillTokens (l.fields name uuid mem vcpus) l.last
    Xml.textAfter "name" ts = some name.2 ∧ Xml.textAfter "uuid" ts = some uuid.2 ∧
      Xml.textAfter "memory" ts = some mem.2 ∧ Xml.textAfter "vcpu" ts = some vcpus.2 := by
  obtain ⟨huuid, huuid'⟩ := l.uuid
  obtain ⟨hmemory, hmemory'⟩ := l.memory
  obtain ⟨hvcpu, hvcpu'⟩ := l.vcpu
  simp only [Avoids, List.forall_mem_append, and_assoc] at huuid hmemory hvcpu
  refine ⟨Xml.textAfter_fillTokens [] (List.forall_mem_nil _) l.name,
    Xml.textAfter_fillTokens [_] ?_ huuid', Xml.textAfter_fillTokens [_, _] ?_ hmemory',
    Xml.textAfter_fillTokens [_, _, _, _] ?_ hvcpu'⟩
  · simpa only [List.forall_mem_singleton] using huuid
  · rw [List.forall_mem_cons, List.forall_mem_singleton]
    exact hmemory
  · rw [List.forall_mem_cons, List.forall_mem_cons, List.forall_mem_cons, List.forall_mem_singleton]
    exact hvcpu

end Layout

/-! ## What is read -/

/-- Nothing reads as nothing. -/
theorem readsAs_empty : Xml.ReadsAs (Xml.lineEnds "".toList) [] := ⟨0, rfl⟩

/-- The tokens of the document, if the name and the uuid are read as these. -/
theorem Layout.scan_toXml (l : Layout) {spec : DomainSpec} {name uuid : List Char}
    (hname : Xml.ReadsAs (Xml.lineEnds (xmlEscape spec.name).toList) name)
    (huuid : Xml.ReadsAs (Xml.lineEnds spec.uuid.toList) uuid) :
    Xml.scan spec.toXml =
      some (Xml.fillTokens (l.fields ((xmlEscape spec.name).toList, name) (spec.uuid.toList, uuid)
        ((toString spec.memMb).toList, (toString spec.memMb).toList)
        ((toString spec.vcpus).toList, (toString spec.vcpus).toList)) l.last) :=
  l.scan_render hname huuid (literal_toString spec.memMb.toNat).readsAs
    (literal_toString spec.vcpus.toNat).readsAs

/-- A literal uuid, and a name of characters that come through: the template is filled. -/
theorem fillsTemplate_toXml {spec : DomainSpec}
    (hname : ∀ c ∈ spec.name.toList, Xml.isChar c ∧ c ≠ '\r')
    (huuid : Xml.Literal spec.uuid.toList) : FillsTemplate spec spec.toXml := by
  obtain ⟨l⟩ := exists_layout
  have hdoc := l.scan_toXml (readsAs_escape hname) huuid.readsAs
  have htemplate : Xml.scan template = _ :=
    l.scan_render readsAs_empty readsAs_empty readsAs_empty readsAs_empty
  obtain ⟨htname, htuuid, htmemory, htvcpu⟩ := l.textAfter_fields
    ((xmlEscape spec.name).toList, spec.name.toList) (spec.uuid.toList, spec.uuid.toList)
    ((toString spec.memMb).toList, (toString spec.memMb).toList)
    ((toString spec.vcpus).toList, (toString spec.vcpus).toList)
  refine ⟨?_, ?_, ?_, ?_, ?_⟩
  · rw [Xml.tags, Xml.tags, hdoc, htemplate, Option.map_some, Option.map_some, l.tags_fields]
  · exact Xml.text_eq_some.mpr ⟨_, hdoc, htname⟩
  · exact Xml.text_eq_some.mpr ⟨_, hdoc, htuuid⟩
  · exact Xml.text_eq_some.mpr ⟨_, hdoc, htmemory⟩
  · exact Xml.text_eq_some.mpr ⟨_, hdoc, htvcpu⟩

/-- The holes behind the uuid, which hold numbers. -/
theorem Layout.inert_rest {l : Layout} {m : Xml.Mode} (hm : m ∈ Xml.swallowing) (mem vcpus : ℕ)
    (mem' vcpus' : List Char) :
    ∀ f ∈ [(⟨l.toMemory, (toString mem).toList, mem'⟩ : Xml.Field),
      ⟨l.toCurrentMemory, (toString mem).toList, mem'⟩, ⟨l.toVcpu, (toString vcpus).toList, vcpus'⟩],
      Xml.Inert m (Xml.lineEnds f.raw) := by
  simp only [List.forall_mem_cons]
  exact ⟨inert_toString hm mem, inert_toString hm mem, inert_toString hm vcpus, by simp⟩

/-- A document that fills the template has a literal uuid, and a name of characters that come
through. -/
theorem literal_of_fillsTemplate {spec : DomainSpec} (h : FillsTemplate spec spec.toXml) :
    (∀ c ∈ spec.name.toList, Xml.isChar c ∧ c ≠ '\r') ∧ Xml.Literal spec.uuid.toList := by
  obtain ⟨l⟩ := exists_layout
  obtain ⟨ts, hscan, hname⟩ := Xml.text_eq_some.mp h.name_eq
  obtain ⟨ts', hscan', huuid⟩ := Xml.text_eq_some.mp h.uuid_eq
  obtain rfl : ts = ts' := by simpa [hscan] using hscan'
  obtain ⟨k, hrun⟩ := Xml.scan_eq_some.mp hscan
  rw [DomainSpec.toXml, l.toList_render _ _ _ _ [] [] [] [], Layout.fields,
    Xml.lineEnds_fill_cons] at hrun
  obtain ⟨o, hafter, rfl⟩ := l.toName.markup.run_append_eq_some.mp hrun
  obtain ⟨m, o₁, o₂, hesc, hrest, rfl⟩ := run_append_eq_some.mp hafter
  -- of the name its line ends are normalised, and nothing else changes
  rw [toList_xmlEscape, lineEnds_escape] at hesc
  have hchars := isChar_of_escape (Xml.isChar_of_run hesc)
  obtain ⟨k₁, hesc'⟩ := run_escape hchars 0
  rw [hesc'] at hesc
  obtain ⟨rfl, rfl⟩ := Prod.mk.inj (Option.some.inj hesc)
  obtain ⟨o₃, rfl⟩ : ∃ o₃, o₂ = l.toUuid.tokens ++ o₃ := by
    rw [Xml.lineEnds_fill_cons] at hrest
    obtain ⟨o₃, -, heq⟩ := l.toUuid.markup.run_append_eq_some.mp hrest
    exact ⟨o₃, heq⟩
  constructor
  -- a name with a CR would not be read as itself
  · rw [l.name.textAfter_append] at hname
    obtain ⟨t, r, htag⟩ := l.toUuid.markup.tag_first
    rw [htag, List.cons_append, Xml.leading_data_tag, Option.some.injEq] at hname
    have hcr := Xml.cr_not_mem_lineEnds spec.name.toList
    rw [hname] at hchars hcr
    exact fun c hc => ⟨hchars c hc, fun h => hcr (h ▸ hc)⟩
  · rw [Xml.textAfter_append_of_forall _ l.uuid.1, Xml.textAfter_data, l.uuid.2.textAfter_append,
      Option.some.injEq] at huuid
    exact Xml.literal_of_leading_eq
      (fun m hm => l.inert_rest hm spec.memMb.toNat spec.vcpus.toNat _ _) hrest huuid

/-- Injection into domain XML. A reader finds the tags of the template and the fields as the texts
of their elements exactly if the id is literal text, and the name, if one is given, has only
characters that XML has and no CR. -/
theorem domain_xml_fills_template_iff (vmId : String) (params : Value) :
    FillsTemplate (DomainSpec.fromVmParams vmId params)
        (DomainSpec.fromVmParams vmId params).toXml ↔
      Xml.Literal vmId.toList ∧
        ∀ name, firstStr ((params.get "vmParams").getD params) ["vmName"] = some name →
          ∀ c ∈ name.toList, Xml.isChar c ∧ c ≠ '\r' := by
  constructor
  · intro h
    obtain ⟨hname, huuid⟩ := literal_of_fillsTemplate h
    refine ⟨huuid, fun name hvm => ?_⟩
    simpa [DomainSpec.fromVmParams, hvm] using hname
  · rintro ⟨huuid, hname⟩
    refine fillsTemplate_toXml ?_ huuid
    cases hvm : firstStr ((params.get "vmParams").getD params) ["vmName"] with
    | some name => simpa [DomainSpec.fromVmParams, hvm] using hname name hvm
    | none =>
      have hsame : (DomainSpec.fromVmParams vmId params).name = vmId := by
        simp [DomainSpec.fromVmParams, hvm]
      rw [hsame]
      intro c hc
      obtain ⟨hchar, -, -, hcr⟩ := huuid.chars c hc
      exact ⟨hchar, hcr⟩

/-- An id that closes its element, adds one and opens its own again. -/
def injectedId : String := "u</uuid><sysinfo/><uuid>"

def injectedParams : Value := .object [("vmParams", .object [("vmName", .string "vm")])]

example : run Xml.step (.text 0) injectedId.toList =
    some (.text 0, [.char 'u', .tag ⟨.stop, "uuid".toList, []⟩, .tag ⟨.empty, "sysinfo".toList, []⟩,
      .tag ⟨.start, "uuid".toList, []⟩]) := by
  decide +kernel

/-- An id that closes its element does not fill the template. -/
theorem injectedId_not_filled :
    ¬FillsTemplate (DomainSpec.fromVmParams injectedId injectedParams)
      (DomainSpec.fromVmParams injectedId injectedParams).toXml := by
  intro h
  obtain ⟨-, huuid⟩ := literal_of_fillsTemplate h
  have hlt : '<' ∈ injectedId.toList := by decide +kernel
  exact (huuid.chars '<' hlt).2.1 rfl

end Vdsm.Virt
