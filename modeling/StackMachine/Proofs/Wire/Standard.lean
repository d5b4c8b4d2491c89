import Mathlib.Data.List.Perm.Basic
import StackMachine.Proofs.Wire.Laws
import StackMachine.Wire.Standard

/-! The codec of the concise binary object representation does what is relied on. What is read of an
item does not depend on what follows it, so the items of an array are read one after the other. -/
namespace StackMachine.Wire

open Text.Utf8 (valid)

section Heads

private theorem takeExactly_append (s rest : Bytes) :
    takeExactly s.length (s ++ rest) = .ok (s, rest) := by
  induction s with
  | nil => rfl
  | cons b s ih => rw [List.length_cons, List.cons_append, takeExactly, ih]

private theorem toNat_lead {major info : Nat} (hmajor : major < 8) (hinfo : info < 32) :
    (UInt8.ofNat (major * 32 + info)).toNat = major * 32 + info := by
  rw [UInt8.toNat_ofNat']
  omega

private theorem readHead_short {major n : Nat} (hmajor : major < 8) (hn : n < 24) (rest : Bytes) :
    readHead (UInt8.ofNat (major * 32 + n) :: rest) = .ok (⟨major, n, n⟩, rest) := by
  have hdiv : (major * 32 + n) / 32 = major := by omega
  have hmod : (major * 32 + n) % 32 = n := by omega
  simp only [readHead, toNat_lead hmajor (show n < 32 by omega), hdiv, hmod, if_pos hn]

private theorem readHead_wide {major info : Nat} {tail : Bytes} (hmajor : major < 7)
    (hwidth : valueWidth? info = some tail.length) (rest : Bytes) :
    readHead (UInt8.ofNat (major * 32 + info) :: tail ++ rest) =
      .ok (⟨major, info, ofBigEndian tail⟩, rest) := by
  have hinfo : 24 ≤ info ∧ info < 28 := by
    unfold valueWidth? at hwidth
    split_ifs at hwidth <;> omega
  have hdiv : (major * 32 + info) / 32 = major := by omega
  have hmod : (major * 32 + info) % 32 = info := by omega
  have hindef : info ≠ indefinite := by unfold indefinite; omega
  simp only [List.cons_append, readHead, toNat_lead (show major < 8 by omega)
    (show info < 32 by omega), hdiv, hmod, if_neg (show ¬ info < 24 by omega), if_neg hindef,
    hwidth, takeExactly_append]
  rw [if_neg (by omega)]

private theorem valueWidth?_of_mem {info width : Nat}
    (h : (info, width) ∈ [(24, 1), (25, 2), (26, 4), (27, 8)]) :
    valueWidth? info = some width ∧ info < 28 := by
  simp only [List.mem_cons, Prod.mk.injEq, List.not_mem_nil, or_false] at h
  rcases h with ⟨rfl, rfl⟩ | ⟨rfl, rfl⟩ | ⟨rfl, rfl⟩ | ⟨rfl, rfl⟩ <;> exact ⟨rfl, by decide⟩

/-- A head is read, with a definite length. -/
theorem IsHead.readHead_append {major n : Nat} {bytes : Bytes} (h : IsHead major n bytes)
    (hmajor : major < 7) (rest : Bytes) :
    ∃ info, info ≠ indefinite ∧ readHead (bytes ++ rest) = .ok (⟨major, info, n⟩, rest) := by
  have hne {info : Nat} (h : info < 28) : info ≠ indefinite := by unfold indefinite; omega
  cases h with
  | short hn => exact ⟨n, hne (by omega), readHead_short (by omega) hn rest⟩
  | wide hwidth hvalue =>
    obtain ⟨hwidth, hinfo⟩ := valueWidth?_of_mem hwidth
    subst hvalue
    exact ⟨_, hne hinfo, readHead_wide hmajor hwidth rest⟩

theorem IsHead.startsTag_append {major n : Nat} {bytes : Bytes} (h : IsHead major n bytes)
    (hmajor : major < 6) (rest : Bytes) : startsTag (bytes ++ rest) = false := by
  have hlead {info : Nat} (h : info < 32) (tail : Bytes) :
      startsTag (UInt8.ofNat (major * 32 + info) :: tail) = false := by
    rw [startsTag, toNat_lead (by omega) h, beq_eq_false_iff_ne]
    omega
  cases h with
  | short hn => exact hlead (by omega) _
  | wide hwidth _ => exact hlead (Nat.lt_trans (valueWidth?_of_mem hwidth).2 (by decide)) _

end Heads

section Items

private theorem readTags_of_untagged {input : Bytes} (h : startsTag input = false) (fuel : Nat) :
    readTags (fuel + 1) input = .ok ([], input) := by
  simp [readTags, h]

private theorem readChunks_text {info : Nat} (hinfo : info ≠ indefinite) (major : Nat)
    (s rest : Bytes) :
    readChunks ⟨major, info, s.length⟩ (s ++ rest) = .ok ([s], rest) := by
  simp only [readChunks, if_neg hinfo, takeExactly_append]

private theorem readElements_definite {α : Type} {read : Bytes → Read α} {limit : WireFault}
    {info n : Nat} (hinfo : info ≠ indefinite) (hn : n ≤ maxElements) (major : Nat)
    (input : Bytes) :
    readElements limit read ⟨major, info, n⟩ input = readMany read n input := by
  simp only [readElements, if_neg hinfo, if_neg (Nat.not_lt.mpr hn)]

private theorem readMany_flatten {α : Type} {read : Bytes → Read α} {bodies : List Bytes}
    {elements : List α}
    (h : List.Forall₂ (fun body element => ∀ rest, read (body ++ rest) = .ok (element, rest)) bodies
      elements) (rest : Bytes) :
    readMany read elements.length (bodies.flatten ++ rest) = .ok (elements, rest) := by
  induction h with
  | nil => rfl
  | cons hbody _ ih =>
    rw [List.length_cons, List.flatten_cons, List.append_assoc, readMany, hbody]
    simp only
    rw [ih]

/-- What follows the head of an item that has no tag. -/
private def readBody (levels depth : Nat) (h : Head) (input : Bytes) : Read Item :=
  match h.major with
  | 0 => .ok (.unsigned h.value, input)
  | 1 => .ok (.negative h.value, input)
  | 2 => (readChunks h input).map fun (chunks, rest) => (.blob chunks, rest)
  | 3 => (readChunks h input).map fun (chunks, rest) => (.text chunks, rest)
  | 4 =>
    if maxDepth < depth + 1 then .error .tooDeep
    else (readElements .tooManyElements (readItem levels (depth + 1)) h input).map
      fun (items, rest) => (.array items, rest)
  | 5 =>
    if maxDepth < depth + 1 then .error .tooDeep
    else (readElements .tooManyPairs (readPair (readItem levels (depth + 1))) h input).map
      fun (pairs, rest) => (.map pairs, rest)
  | _ => if h.info ≤ 24 then .ok (.simple h.value, input) else .ok (.float, input)

private theorem readItem_untagged {levels depth : Nat} {input rest : Bytes} {h : Head}
    (htag : startsTag input = false) (hdepth : depth ≤ maxDepth)
    (hhead : readHead input = .ok (h, rest)) :
    readItem (levels + 1) depth input = readBody levels depth h rest := by
  simp only [readItem, readTags_of_untagged htag, List.length_nil, Nat.zero_sub, Nat.add_zero,
    if_neg (Nat.not_lt.mpr hdepth), hhead]
  obtain ⟨major, info, value⟩ := h
  unfold readBody
  rcases major with _ | _ | _ | _ | _ | _ | major
  · rfl
  · rfl
  · dsimp only
    cases readChunks _ rest <;> rfl
  · dsimp only
    cases readChunks _ rest <;> rfl
  · by_cases hinner : maxDepth < depth + 1
    · simp only [if_pos hinner]
    · simp only [if_neg hinner]
      cases readElements _ _ _ rest <;> rfl
  · by_cases hinner : maxDepth < depth + 1
    · simp only [if_pos hinner]
    · simp only [if_neg hinner]
      cases readElements _ _ _ rest <;> rfl
  · rfl

/-- The bytes are read as an item, whatever follows them, where `levels` more levels of nesting are
free. -/
def ReadsAs (levels : Nat) (bytes : Bytes) (item : Item) : Prop :=
  ∀ depth rest, depth + levels ≤ maxDepth →
    readItem (levels + 1) depth (bytes ++ rest) = .ok (item, rest)

/-- The bytes are read as a pair of a text and an item. -/
def ReadsAsField (levels : Nat) (bytes : Bytes) (field : Bytes × Item) : Prop :=
  ∀ depth rest, depth + levels ≤ maxDepth →
    readPair (readItem (levels + 1) depth) (bytes ++ rest) = .ok ((.text [field.1], field.2), rest)

variable {levels : Nat}

private theorem IsHead.readItem_append {major n : Nat} {bytes : Bytes} (h : IsHead major n bytes)
    (hmajor : major < 6) {depth : Nat} (hdepth : depth ≤ maxDepth) (rest : Bytes) :
    ∃ info, info ≠ indefinite ∧ readItem (levels + 1) depth (bytes ++ rest) =
      readBody levels depth ⟨major, info, n⟩ rest := by
  obtain ⟨info, hinfo, hhead⟩ := h.readHead_append (by omega) rest
  exact ⟨info, hinfo, readItem_untagged (h.startsTag_append hmajor rest) hdepth hhead⟩

theorem readsAs_unsigned {n : Nat} {bytes : Bytes} (h : IsHead 0 n bytes) :
    ReadsAs levels bytes (.unsigned n) := by
  intro depth rest hdepth
  obtain ⟨info, -, hread⟩ := h.readItem_append (by omega) (show depth ≤ maxDepth by omega) rest
  exact hread

theorem readsAs_negative {n : Nat} {bytes : Bytes} (h : IsHead 1 n bytes) :
    ReadsAs levels bytes (.negative n) := by
  intro depth rest hdepth
  obtain ⟨info, -, hread⟩ := h.readItem_append (by omega) (show depth ≤ maxDepth by omega) rest
  exact hread

theorem readsAs_text {s bytes : Bytes} (h : WrittenText s bytes) :
    ReadsAs levels bytes (.text [s]) := by
  intro depth rest hdepth
  obtain ⟨length, hlength, rfl⟩ := h
  obtain ⟨info, hinfo, hread⟩ :=
    hlength.readItem_append (by omega) (show depth ≤ maxDepth by omega) (s ++ rest)
  rw [List.append_assoc, hread, readBody]
  simp only [readChunks_text hinfo]
  rfl

theorem readsAs_simple {n : Nat} (hn : n < 24) : ReadsAs levels [simpleByte n] (.simple n) := by
  intro depth rest hdepth
  have hle : depth ≤ maxDepth := by omega
  have hhead := readHead_short (show 7 < 8 by omega) hn rest
  have htag : startsTag (simpleByte n :: rest) = false := by
    rw [startsTag, simpleByte, toNat_lead (by omega) (by omega), beq_eq_false_iff_ne]
    omega
  rw [List.singleton_append, readItem_untagged htag hle hhead]
  exact if_pos (Nat.le_of_lt hn)

theorem readsAs_array {bodies : List Bytes} {items : List Item} {count : Bytes}
    (hcount : IsHead 4 items.length count) (hlen : items.length ≤ maxElements)
    (h : List.Forall₂ (ReadsAs levels) bodies items) :
    ReadsAs (levels + 1) (count ++ bodies.flatten) (.array items) := by
  intro depth rest hdepth
  have hinner : ¬ maxDepth < depth + 1 := by omega
  obtain ⟨info, hinfo, hread⟩ :=
    hcount.readItem_append (by omega) (show depth ≤ maxDepth by omega) (bodies.flatten ++ rest)
  have hmany := readMany_flatten
    (h.imp fun _ _ hbody rest => hbody (depth + 1) rest (by omega)) rest
  rw [List.append_assoc, hread]
  simp only [readBody, if_neg hinner, readElements_definite hinfo hlen, hmany]
  rfl

theorem readsAs_map {entries : List Bytes} {fields : List (Bytes × Item)} {count : Bytes}
    (hcount : IsHead 5 fields.length count) (hlen : fields.length ≤ maxElements)
    (h : List.Forall₂ (ReadsAsField levels) entries fields) :
    ReadsAs (levels + 1) (count ++ entries.flatten)
      (.map (fields.map fun (name, item) => (.text [name], item))) := by
  intro depth rest hdepth
  have hinner : ¬ maxDepth < depth + 1 := by omega
  obtain ⟨info, hinfo, hread⟩ :=
    hcount.readItem_append (by omega) (show depth ≤ maxDepth by omega) (entries.flatten ++ rest)
  have hmany := readMany_flatten (List.forall₂_map_right_iff.mpr
    (h.imp fun _ _ hentry rest => hentry (depth + 1) rest (by omega))) rest
  rw [List.length_map] at hmany
  rw [List.append_assoc, hread]
  simp only [readBody, if_neg hinner, readElements_definite hinfo hlen, hmany]
  rfl

theorem readsAsField_append {name key value : Bytes} {item : Item} (hkey : WrittenText name key)
    (hvalue : ReadsAs levels value item) : ReadsAsField levels (key ++ value) (name, item) := by
  intro depth rest hdepth
  rw [List.append_assoc, readPair, readsAs_text hkey depth (value ++ rest) hdepth]
  simp only
  rw [hvalue depth rest hdepth]

end Items

section Shapes

/-- The bytes are read as an item that is read as the value. -/
def Reaches (levels : Nat) (shape : Shape) (value : shape.Value) (bytes : Bytes) : Prop :=
  ∃ item, ReadsAs levels bytes item ∧ shape.read item = .ok value

variable {levels : Nat}

private theorem readText_valid {s : Bytes} (h : valid s = true) : readText (.text [s]) = .ok s := by
  simp [readText, Item.datum, Item.textOf, h]

private theorem reaches_integer {n lowest beyond : Int} {bytes : Bytes} (hlo : lowest ≤ n)
    (hhi : n < beyond) (h : WrittenInteger n bytes) :
    ∃ item, ReadsAs levels bytes item ∧ readInteger lowest beyond item = .ok n := by
  unfold WrittenInteger at h
  split at h
  · refine ⟨_, readsAs_negative h, ?_⟩
    have hn : -1 - ((-1 - n).toNat : Int) = n := by omega
    simp only [readInteger, Item.datum, hn, if_pos (And.intro hlo hhi)]
  · refine ⟨_, readsAs_unsigned h, ?_⟩
    have hn : (n.toNat : Int) = n := by omega
    simp only [readInteger, Item.datum, hn, if_pos (And.intro hlo hhi)]

private theorem reaches_int64 {n : Int64} {bytes : Bytes} (h : WrittenInteger n.toInt bytes) :
    Reaches levels .int64 n bytes := by
  obtain ⟨item, hitem, hread⟩ := reaches_integer n.le_toInt n.toInt_lt h
  have hvalue := congrArg (Except.map Int64.ofInt) hread
  rw [Except.map, Int64.ofInt_toInt] at hvalue
  exact ⟨item, hitem, hvalue⟩

private theorem reaches_uint32 {n : UInt32} {bytes : Bytes} (h : WrittenInteger n.toNat bytes) :
    Reaches levels .uint32 n bytes := by
  have hlt : (n.toNat : Int) < 0x100000000 := Int.ofNat_lt.mpr n.toNat_lt
  obtain ⟨item, hitem, hread⟩ := reaches_integer (Int.natCast_nonneg _) hlt h
  have hvalue := congrArg (Except.map fun m => UInt32.ofNat m.toNat) hread
  rw [Except.map, Int.toNat_natCast, UInt32.ofNat_toNat] at hvalue
  exact ⟨item, hitem, hvalue⟩

private theorem reaches_elements {element : Shape} {values : List element.Value}
    {bodies : List Bytes} (h : List.Forall₂ (Reaches levels element) values bodies) :
    ∃ items, List.Forall₂ (ReadsAs levels) bodies items ∧ items.length = values.length ∧
      readAll element.read items = .ok values := by
  induction h with
  | nil => exact ⟨[], .nil, rfl, rfl⟩
  | cons hbody _ ih =>
    obtain ⟨item, hitem, hread⟩ := hbody
    obtain ⟨items, hitems, hlen, hreads⟩ := ih
    refine ⟨item :: items, .cons hitem hitems, by simp [hlen], ?_⟩
    rw [readAll, hread]
    simp only
    rw [hreads]

private theorem fields_map {sent : List (Bytes × Item)}
    (h : ∀ field ∈ sent, ∀ b ∈ field.1, b < 0x80) :
    (Item.map (sent.map fun (name, item) => (.text [name], item))).fields = .ok sent := by
  simp only [Item.fields, Item.datum]
  induction sent with
  | nil => rfl
  | cons field sent ih =>
    obtain ⟨hfield, hsent⟩ := List.forall_mem_cons.mp h
    have hname : Item.textOf [field.1] = .ok field.1 := by
      simp [Item.textOf, Text.Utf8.valid_of_ascii hfield]
    simp [Item.namedFields, Item.fieldName, hname, ih hsent]

/-- A field is found by its name if no other has the same name. -/
private theorem find?_of_nodup {sent : List (Bytes × Item)}
    (h : (sent.map fun field => Bytes.asciiLower field.1).Nodup) {field : Bytes × Item}
    (hfield : field ∈ sent) :
    (sent.find? fun (key, _) => Bytes.asciiLower key == Bytes.asciiLower field.1) = some field := by
  induction sent with
  | nil => cases hfield
  | cons first sent ih =>
    rw [List.map_cons, List.nodup_cons] at h
    rcases List.mem_cons.mp hfield with rfl | hfield
    · exact List.find?_cons_of_pos (by simp)
    · have hne : Bytes.asciiLower first.1 ≠ Bytes.asciiLower field.1 := by
        intro heq
        exact h.1 (heq ▸ List.mem_map.mpr ⟨field, hfield, rfl⟩)
      rw [List.find?_cons_of_neg (by simpa using hne)]
      exact ih h.2 hfield

mutual

/-- A value is read from all bytes that write it. -/
theorem Shape.reaches_of_written : (shape : Shape) → (levels : Nat) → (value : shape.Value) →
    (bytes : Bytes) → shape.admitted levels = true → shape.Written value bytes →
    Reaches levels shape value bytes
  | .text, _, _, _, _, ⟨hvalid, h⟩ => ⟨_, readsAs_text h, readText_valid hvalid⟩
  | .truth, _, b, _, _, h => by
    subst h
    cases b with
    | false => exact ⟨_, readsAs_simple (by decide), rfl⟩
    | true => exact ⟨_, readsAs_simple (by decide), rfl⟩
  | .int64, _, _, _, _, h => reaches_int64 h
  | .uint32, _, _, _, _, h => reaches_uint32 h
  | .list _, _, none, _, _, h => by
    subst h
    exact ⟨_, readsAs_simple (by decide), rfl⟩
  | .list element, levels, some values, _, hadmitted, ⟨hlen, _, bodies, hcount, hbodies, hbytes⟩ =>
    by
    subst hbytes
    obtain ⟨inner, rfl, helement⟩ := Shape.admitted_list.mp hadmitted
    obtain ⟨items, hitems, hlength, hread⟩ := reaches_elements <| hbodies.imp fun value body =>
      element.reaches_of_written inner value body helement
    rw [← hlength] at hcount hlen
    refine ⟨_, readsAs_array hcount hlen hitems, ?_⟩
    simp only [Shape.read, readList, Item.datum, hread]
    rfl
  | .record fields, levels, values, _, hadmitted, ⟨_, declared, sent, hcount, hdeclared, hperm,
      hbytes⟩ => by
    subst hbytes
    obtain ⟨inner, rfl, hnamed, hfields⟩ := Shape.admitted_record.mp hadmitted
    obtain ⟨hdistinct, hlen, hnames⟩ := Fields.wellNamed_iff.mp hnamed
    obtain ⟨found, hfound, hfst, hread⟩ :=
      fields.reads_of_written inner values declared hfields hdeclared
    -- The entries were sent in another order, and are found in that order.
    obtain ⟨pairs, hpairs, horder⟩ := List.perm_comp_forall₂ hperm hfound
    have hmem {pair : Bytes × Item} : pair ∈ pairs ↔ pair ∈ found := horder.mem_iff
    have hkeys : (pairs.map fun pair => Bytes.asciiLower pair.1).Nodup := by
      rw [(horder.map _).nodup_iff]
      rw [← hfst, List.map_map] at hdistinct
      exact hdistinct
    have hascii : ∀ pair ∈ pairs, ∀ b ∈ pair.1, b < 0x80 := by
      intro pair hpair
      have hname : pair.1 ∈ fields.names := hfst ▸ List.mem_map_of_mem (hmem.mp hpair)
      exact (hnames pair.1 hname).1
    have hcount' : pairs.length = fields.names.length := by
      rw [horder.length_eq, ← hfst, List.length_map]
    rw [hpairs.length_eq] at hcount
    refine ⟨_, readsAs_map hcount (Nat.le_trans (Nat.le_of_eq hcount') hlen) hpairs, ?_⟩
    rw [Shape.read, fields_map hascii]
    exact hread pairs fun pair hpair => find?_of_nodup hkeys (hmem.mpr hpair)

/-- Fields are read from entries that write them, in whatever order they are found. -/
theorem Fields.reads_of_written : (fields : Fields) → (levels : Nat) → (values : fields.Value) →
    (entries : List Bytes) → fields.admitted levels = true → fields.Written values entries →
    ∃ found : List (Bytes × Item), List.Forall₂ (ReadsAsField levels) entries found ∧
      found.map Prod.fst = fields.names ∧
      ∀ sent : List (Bytes × Item), (∀ field ∈ found, (sent.find? fun (key, _) =>
        Bytes.asciiLower key == Bytes.asciiLower field.1) = some field) →
          fields.read sent = .ok values
  | .none, _, _, _, _, h => by
    subst h
    exact ⟨[], .nil, rfl, fun _ _ => rfl⟩
  | .field name shape rest, levels, values, _, hadmitted, ⟨_, value, others, hkey, hvalue, hothers,
      hentries⟩ => by
    subst hentries
    obtain ⟨hshape, hrest⟩ := Bool.and_eq_true_iff.mp hadmitted
    obtain ⟨item, hitem, hread⟩ := shape.reaches_of_written levels values.1 value hshape hvalue
    obtain ⟨found, hfound, hfst, hreads⟩ :=
      rest.reads_of_written levels values.2 others hrest hothers
    refine ⟨(name, item) :: found, .cons (readsAsField_append hkey hitem) hfound,
      congrArg (name :: ·) hfst, fun sent hsent => ?_⟩
    obtain ⟨hfirst, hlater⟩ := List.forall_mem_cons.mp hsent
    rw [Fields.read, readField, hfirst]
    simp only
    rw [hread]
    simp only
    rw [hreads sent hlater]
    rfl

end

end Shapes

/-- The codec does what is relied on. -/
theorem Codec.lawful_standard : Codec.standard.Lawful where
  marshal_canonical _ := rfl
  unmarshal_written {shape value bytes} hadmitted hwritten := by
    obtain ⟨item, hitem, hread⟩ := shape.reaches_of_written maxDepth value bytes hadmitted hwritten
    have hdecode : Item.decode bytes = .ok item := by
      have h := hitem 0 [] (by simp)
      rw [List.append_nil] at h
      rw [Item.decode, h]
    show ((Item.decode bytes).bind shape.read).mapError WireFault.message = .ok value
    rw [hdecode]
    exact congrArg (Except.mapError WireFault.message) hread

end StackMachine.Wire
