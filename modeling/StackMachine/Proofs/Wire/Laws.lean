import Mathlib.Algebra.Group.Nat.Defs
import Mathlib.Data.List.Forall2
import StackMachine.Proofs.Text.Utf8
import StackMachine.Wire.Canonical
import StackMachine.Wire.Message

/-! What is relied on of a codec. It writes values in their canonical form and reads every value that
the concise binary object representation can write, with heads of any length and the fields of a
record in any order. So it reads what it writes. -/
namespace StackMachine.Wire

open Text.Utf8 (valid)

section Values

mutual

/-- The texts in a value. -/
def Shape.texts : (shape : Shape) → shape.Value → List Bytes
  | .text => fun s => [s]
  | .truth | .int64 | .uint32 => fun _ => []
  | .list element => fun values? => (Option.getD values? []).flatMap element.texts
  | .record fields => fields.texts

/-- The texts in fields. -/
def Fields.texts : (fields : Fields) → fields.Value → List Bytes
  | .none => fun _ => []
  | .field _ shape rest => fun values => shape.texts values.1 ++ rest.texts values.2

end

mutual

/-- The numbers of elements of the lists in a value; a missing list has none. -/
def Shape.lengths : (shape : Shape) → shape.Value → List Nat
  | .text | .truth | .int64 | .uint32 => fun _ => []
  | .list element => fun
    | none => []
    | some values => values.length :: values.flatMap element.lengths
  | .record fields => fields.lengths

/-- The numbers of elements of the lists in fields. -/
def Fields.lengths : (fields : Fields) → fields.Value → List Nat
  | .none => fun _ => []
  | .field _ shape rest => fun values => shape.lengths values.1 ++ rest.lengths values.2

end

/-- The texts are well-formed and not too long for their length to be told, and no list has more
elements than are read. -/
structure Fitting (texts : List Bytes) (lengths : List Nat) : Prop where
  text : ∀ t ∈ texts, valid t = true ∧ t.length < headBound
  list : ∀ n ∈ lengths, n ≤ maxElements

theorem Fitting.mono {texts texts' : List Bytes} {lengths lengths' : List Nat}
    (h : Fitting texts lengths) (htexts : texts' ⊆ texts) (hlengths : lengths' ⊆ lengths) :
    Fitting texts' lengths' :=
  ⟨fun t ht => h.text t (htexts ht), fun n hn => h.list n (hlengths hn)⟩

def Shape.Fits (shape : Shape) (value : shape.Value) : Prop :=
  Fitting (shape.texts value) (shape.lengths value)

def Fields.Fits (fields : Fields) (values : fields.Value) : Prop :=
  Fitting (fields.texts values) (fields.lengths values)

variable {name : Bytes} {shape : Shape} {rest : Fields}

theorem Fields.Fits.first {values : (Fields.field name shape rest).Value}
    (h : (Fields.field name shape rest).Fits values) : shape.Fits values.1 :=
  Fitting.mono h (List.subset_append_left _ _) (List.subset_append_left _ _)

theorem Fields.Fits.others {values : (Fields.field name shape rest).Value}
    (h : (Fields.field name shape rest).Fits values) : rest.Fits values.2 :=
  Fitting.mono h (List.subset_append_right _ _) (List.subset_append_right _ _)

theorem Shape.Fits.length_le {values : List shape.Value}
    (h : (Shape.list shape).Fits (some values)) : values.length ≤ maxElements :=
  h.list _ List.mem_cons_self

theorem Shape.Fits.element {values : List shape.Value}
    (h : (Shape.list shape).Fits (some values)) {value : shape.Value} (hvalue : value ∈ values) :
    shape.Fits value :=
  Fitting.mono h (fun _ ht => List.mem_flatMap.mpr ⟨value, hvalue, ht⟩)
    fun _ hn => List.mem_cons_of_mem _ (List.mem_flatMap.mpr ⟨value, hvalue, hn⟩)

end Values

section Shapes

theorem Fields.wellNamed_iff {fields : Fields} : fields.wellNamed = true ↔
    (fields.names.map Bytes.asciiLower).Nodup ∧ fields.names.length ≤ maxElements ∧
      ∀ name ∈ fields.names, (∀ b ∈ name, b < 0x80) ∧ name.length < headBound := by
  simp [wellNamed, and_assoc]

theorem Shape.admitted_list {levels : Nat} {element : Shape} :
    (Shape.list element).admitted levels = true ↔
      ∃ inner, levels = inner + 1 ∧ element.admitted inner = true := by
  cases levels <;> simp [Shape.admitted]

theorem Shape.admitted_record {levels : Nat} {fields : Fields} :
    (Shape.record fields).admitted levels = true ↔
      ∃ inner, levels = inner + 1 ∧ fields.wellNamed = true ∧ fields.admitted inner = true := by
  cases levels <;> simp [Shape.admitted]

end Shapes

section Writing

/-- The bytes are a head with a major type and a number. The number is in the first byte, or in one,
two, four or eight bytes after it; nothing says that it could not be in fewer. -/
inductive IsHead (major n : Nat) : Bytes → Prop where
  | short : n < 24 → IsHead major n [UInt8.ofNat (major * 32 + n)]
  | wide {info : Nat} {tail : Bytes} :
      (info, tail.length) ∈ [(24, 1), (25, 2), (26, 4), (27, 8)] → ofBigEndian tail = n →
      IsHead major n (UInt8.ofNat (major * 32 + info) :: tail)

/-- The bytes write a text. -/
def WrittenText (s bytes : Bytes) : Prop :=
  ∃ length, IsHead 3 s.length length ∧ bytes = length ++ s

/-- The bytes write an integer. -/
def WrittenInteger (n : Int) (bytes : Bytes) : Prop :=
  if n < 0 then IsHead 1 (-1 - n).toNat bytes else IsHead 0 n.toNat bytes

mutual

/-- The bytes write a value. The fields of a record may stand in any order. -/
def Shape.Written : (shape : Shape) → shape.Value → Bytes → Prop
  | .text => fun s bytes => valid s = true ∧ WrittenText s bytes
  | .truth => fun b bytes => bytes = [truthByte b]
  | .int64 => fun n bytes => WrittenInteger (Int64.toInt n) bytes
  | .uint32 => fun n bytes => WrittenInteger (UInt32.toNat n) bytes
  | .list element => fun
    | none, bytes => bytes = [nullByte]
    | some values, bytes => values.length ≤ maxElements ∧ ∃ (count : Bytes) (bodies : List Bytes),
        IsHead 4 values.length count ∧ List.Forall₂ element.Written values bodies ∧
          bytes = count ++ bodies.flatten
  | .record fields => fun values bytes => ∃ (count : Bytes) (declared sent : List Bytes),
      IsHead 5 sent.length count ∧ fields.Written values declared ∧ sent.Perm declared ∧
        bytes = count ++ sent.flatten

/-- Each of the entries writes the name of a field and its value. -/
def Fields.Written : (fields : Fields) → fields.Value → List Bytes → Prop
  | .none => fun _ entries => entries = []
  | .field name shape rest => fun values entries =>
    ∃ (key value : Bytes) (others : List Bytes), WrittenText name key ∧
      shape.Written values.1 value ∧ rest.Written values.2 others ∧ entries = (key ++ value) :: others

end

theorem length_bigEndian (width n : Nat) : (bigEndian width n).length = width := by
  induction width generalizing n with
  | zero => rfl
  | succ width ih => rw [bigEndian, List.length_append, ih, List.length_singleton]

theorem ofBigEndian_bigEndian {width n : Nat} (h : n < 256 ^ width) :
    ofBigEndian (bigEndian width n) = n := by
  induction width generalizing n with
  | zero =>
    rw [Nat.pow_zero, Nat.lt_one_iff] at h
    rw [h]
    rfl
  | succ width ih =>
    have hdiv : n / 256 < 256 ^ width := Nat.div_lt_of_lt_mul (by rwa [← Nat.pow_succ'])
    have hlast : (UInt8.ofNat n).toNat = n % 256 := UInt8.toNat_ofNat'
    have hinit := ih hdiv
    unfold ofBigEndian at hinit ⊢
    rw [bigEndian, List.foldl_append, hinit, List.foldl_cons, List.foldl_nil, hlast]
    omega

/-- The shortest head is a head. -/
theorem isHead_head {n : Nat} (h : n < headBound) (major : Nat) : IsHead major n (head major n) := by
  have hwide {info width : Nat} (hinfo : (info, width) ∈ [(24, 1), (25, 2), (26, 4), (27, 8)])
      (hn : n < 256 ^ width) :
      IsHead major n (UInt8.ofNat (major * 32 + info) :: bigEndian width n) :=
    .wide (by rwa [length_bigEndian]) (ofBigEndian_bigEndian hn)
  unfold headBound at h
  unfold head
  split_ifs
  · exact .short (by assumption)
  · exact hwide (by decide) (by omega)
  · exact hwide (by decide) (by omega)
  · exact hwide (by decide) (by omega)
  · exact hwide (by decide) (by omega)

theorem writtenText_canonical {s : Bytes} (h : s.length < headBound) :
    WrittenText s (canonicalText s) :=
  ⟨_, isHead_head h 3, rfl⟩

theorem writtenInteger_canonical {n : Int} (hlo : -0x8000000000000000 ≤ n)
    (hhi : n < 0x8000000000000000) : WrittenInteger n (canonicalInteger n) := by
  unfold WrittenInteger canonicalInteger
  split
  · exact isHead_head (by unfold headBound; omega) 1
  · exact isHead_head (by unfold headBound; omega) 0

theorem insertField_perm (field : Bytes × Bytes) (fields : List (Bytes × Bytes)) :
    (insertField field fields).Perm (field :: fields) := by
  induction fields with
  | nil => rfl
  | cons f rest ih =>
    rw [insertField]
    split
    · rfl
    · exact (ih.cons f).trans (.swap field f rest)

theorem sortFields_perm (fields : List (Bytes × Bytes)) : (sortFields fields).Perm fields := by
  induction fields with
  | nil => rfl
  | cons field rest ih => exact (insertField_perm field _).trans (ih.cons field)

theorem Fields.length_canonical : (fields : Fields) → (values : fields.Value) →
    (fields.canonical values).length = fields.names.length
  | .none, _ => rfl
  | .field _ _ rest, values => congrArg (· + 1) (rest.length_canonical values.2)

mutual

/-- The canonical form writes its value. -/
theorem Shape.written_canonical : (shape : Shape) → (levels : Nat) → (value : shape.Value) →
    shape.admitted levels = true → shape.Fits value → shape.Written value (shape.canonical value)
  | .text, _, s, _, hfits => by
    obtain ⟨hvalid, hlen⟩ := hfits.text s List.mem_cons_self
    exact ⟨hvalid, writtenText_canonical hlen⟩
  | .truth, _, _, _, _ => rfl
  | .int64, _, n, _, _ => writtenInteger_canonical (Int64.le_toInt n) (Int64.toInt_lt n)
  | .uint32, _, n, _, _ => by
    have hlt := UInt32.toNat_lt n
    exact writtenInteger_canonical (by omega) (by omega)
  | .list _, _, none, _, _ => rfl
  | .list element, levels, some values, hadmitted, hfits => by
    have hlen := hfits.length_le
    obtain ⟨inner, -, helement⟩ := Shape.admitted_list.mp hadmitted
    have hvalues : List.Forall₂ element.Written values (values.map element.canonical) := by
      rw [List.forall₂_map_right_iff, List.forall₂_same]
      intro value hvalue
      exact element.written_canonical inner value helement (hfits.element hvalue)
    exact ⟨hlen, _, _, isHead_head (Nat.lt_of_le_of_lt hlen (by decide)) 4, hvalues, rfl⟩
  | .record fields, levels, values, hadmitted, hfits => by
    obtain ⟨inner, -, hnamed, hfields⟩ := Shape.admitted_record.mp hadmitted
    obtain ⟨-, hcount, hnames⟩ := Fields.wellNamed_iff.mp hnamed
    let entries := fields.canonical values
    have hperm : ((sortFields entries).map canonicalField).Perm (entries.map canonicalField) :=
      (sortFields_perm entries).map canonicalField
    have hhead :
        IsHead 5 ((sortFields entries).map canonicalField).length (head 5 entries.length) := by
      rw [hperm.length_eq, List.length_map, fields.length_canonical values]
      exact isHead_head (Nat.lt_of_le_of_lt hcount (by decide)) 5
    exact ⟨_, _, _, hhead, fields.written_canonical inner values hfields
      (fun name hname => (hnames name hname).2) hfits, hperm, rfl⟩

/-- The canonical forms of fields write their names and values. -/
theorem Fields.written_canonical : (fields : Fields) → (levels : Nat) → (values : fields.Value) →
    fields.admitted levels = true → (∀ name ∈ fields.names, name.length < headBound) →
    fields.Fits values →
    fields.Written values ((fields.canonical values).map canonicalField)
  | .none, _, _, _, _, _ => rfl
  | .field name shape rest, levels, values, hadmitted, hnames, hfits => by
    obtain ⟨hname, hothers⟩ := List.forall_mem_cons.mp hnames
    obtain ⟨hshape, hrest⟩ := Bool.and_eq_true_iff.mp hadmitted
    exact ⟨_, _, _, writtenText_canonical hname,
      shape.written_canonical levels values.1 hshape hfits.first,
      rest.written_canonical levels values.2 hrest hothers hfits.others, rfl⟩

end

end Writing

section Length

private theorem head_append_ne_nil (major n : Nat) (rest : Bytes) : head major n ++ rest ≠ [] := by
  unfold head
  split_ifs <;> exact List.cons_ne_nil _ _

theorem Shape.canonical_ne_nil (shape : Shape) (value : shape.Value) :
    shape.canonical value ≠ [] := by
  have hinteger (n : Int) : canonicalInteger n ≠ [] := by
    unfold canonicalInteger
    split <;> simpa using head_append_ne_nil _ _ []
  cases shape with
  | text => exact head_append_ne_nil _ _ _
  | truth => exact List.cons_ne_nil _ _
  | int64 | uint32 => exact hinteger _
  | list element =>
    cases value with
    | none => exact List.cons_ne_nil _ _
    | some values => exact head_append_ne_nil _ _ _
  | record fields => exact head_append_ne_nil _ _ _

end Length

namespace Codec

/-- The codec writes the canonical form of every value that fits, and reads a value from all bytes
that write it. -/
structure Lawful (codec : Codec) : Prop where
  marshal_canonical {shape : Shape} {value : shape.Value} :
    shape.Fits value → codec.marshal shape value = shape.canonical value
  unmarshal_written {shape : Shape} {value : shape.Value} {bytes : Bytes} :
    shape.admitted maxDepth = true → shape.Written value bytes →
      codec.unmarshal shape bytes = .ok value

/-- The codec reads what it writes, which is never nothing. -/
structure Faithful (codec : Codec) : Prop where
  unmarshal_marshal {shape : Shape} {value : shape.Value} : shape.admitted maxDepth = true →
    shape.Fits value → codec.unmarshal shape (codec.marshal shape value) = .ok value
  marshal_ne_nil {shape : Shape} {value : shape.Value} :
    shape.Fits value → codec.marshal shape value ≠ []

theorem Lawful.faithful {codec : Codec} (h : codec.Lawful) : codec.Faithful where
  unmarshal_marshal hadmitted hfits :=
    h.unmarshal_written hadmitted
      (h.marshal_canonical hfits ▸ Shape.written_canonical _ _ _ hadmitted hfits)
  marshal_ne_nil hfits := by
    rw [h.marshal_canonical hfits]
    exact Shape.canonical_ne_nil _ _

end Codec

end StackMachine.Wire
