import StackMachine.Proofs.Assembly.Reassembly
import StackMachine.Proofs.Fault

/-! What a listing tells. It goes on to the first opcode that is not registered. Each of its rows
has the index, the mnemonic and the argument of an instruction as words, so that assembled code can
be told from its listing. -/
namespace StackMachine

namespace Listing

open Assembly (assemble tokens)

/-- How many instructions a listing has: the index of the first one whose opcode is not registered,
or the number of all if there is none. -/
def reach (r : Registry) (code : Code) : Nat :=
  code.findIdx fun i => (r.describe i.op).isNone

/-- A numbered line of a listing, without the newline that ends it. -/
def row (index : Nat) (name : Bytes) (arg : Int64) : Bytes :=
  Text.Decimal.padded 4 index ++ utf8 "  " ++ column 12 name ++ [space] ++ Text.Decimal.ofInt64 arg

/-- The rows of a code. -/
def rows (r : Registry) (code : Code) : List Bytes :=
  code.mapIdx fun n i => row n (r.nameOf i.op) i.arg

variable {format : Nat → Bytes → Int64 → Bytes} {r : Registry} {code : Code}

section Reach

theorem reach_cons_of_registered {i : Instruction} {name : Bytes}
    (h : r.describe i.op = some name) (code : Code) : reach r (i :: code) = reach r code + 1 := by
  simp [reach, List.findIdx_cons, h]

theorem reach_cons_of_unregistered {i : Instruction} (h : r.describe i.op = none) (code : Code) :
    reach r (i :: code) = 0 := by
  simp [reach, List.findIdx_cons, h]

theorem reach_le_length (r : Registry) (code : Code) : reach r code ≤ code.length :=
  List.findIdx_le_length

theorem reach_of_registered (h : ∀ i ∈ code, (r.describe i.op).isSome = true) :
    reach r code = code.length := by
  rw [reach, List.findIdx_eq_length]
  intro i hi
  rw [Option.isNone_eq_false_iff]
  exact h i hi

theorem registered_of_mem_take {i : Instruction} (h : i ∈ code.take (reach r code)) :
    (r.describe i.op).isSome = true := by
  have hnone := List.false_of_mem_take_findIdx h
  simpa using hnone

/-- What stands after the first opcode that is not registered does not show. -/
theorem text_fromIndex_take (index : Nat) (code : Code) :
    (fromIndex format r index (code.take (reach r code))).text =
      (fromIndex format r index code).text := by
  induction code generalizing index with
  | nil => rfl
  | cons i rest ih =>
    cases hname : r.describe i.op with
    | none => rw [reach_cons_of_unregistered hname, List.take_zero, fromIndex, fromIndex, hname]
    | some name =>
      rw [reach_cons_of_registered hname, List.take_succ_cons, fromIndex, fromIndex, hname]
      exact congrArg (format index name i.arg ++ ·) (ih (index + 1))

/-- A listing fails exactly at the first opcode that is not registered, and tells it. -/
theorem fault_fromIndex (index : Nat) (code : Code) :
    (fromIndex format r index code).fault =
      ((code[reach r code]?).map fun i =>
        Fault.listing (index + reach r code : Nat) i.op).getD .absent := by
  induction code generalizing index with
  | nil => rfl
  | cons i rest ih =>
    cases hname : r.describe i.op with
    | none =>
      rw [reach_cons_of_unregistered hname, fromIndex, hname]
      rfl
    | some name =>
      rw [reach_cons_of_registered hname, fromIndex, hname, List.getElem?_cons_succ,
        ← Nat.add_assoc, Nat.add_right_comm]
      exact ih (index + 1)

/-- Where a listing stops is told in a well-formed text. -/
theorem valid_message_fault (format : Nat → Bytes → Int64 → Bytes) (r : Registry) (index : Nat)
    (code : Code) : Text.Utf8.valid (fromIndex format r index code).fault.message = true := by
  rw [fault_fromIndex]
  cases code[reach r code]? with
  | none => exact Text.Utf8.valid_utf8 _
  | some i => exact Fault.valid_message_listing _ _

theorem isPresent_fault_ofCode_iff (r : Registry) (code : Code) :
    (ofCode r code).fault.isPresent = true ↔ reach r code < code.length := by
  rw [ofCode, fault_fromIndex]
  constructor
  · intro hpresent
    apply Nat.lt_of_not_le
    intro hle
    rw [List.getElem?_eq_none hle] at hpresent
    cases hpresent
  · intro hlt
    rw [List.getElem?_eq_getElem hlt]
    rfl

theorem fault_ofCode_of_getElem? {i : Instruction} (h : code[reach r code]? = some i) :
    (ofCode r code).fault = .listing (reach r code) i.op := by
  rw [ofCode, fault_fromIndex, h, Nat.zero_add]
  rfl

/-- Assembled code is listed to its end. -/
theorem fault_ofCode_of_assemble {source : Bytes} (h : assemble r source = .ok code) :
    (ofCode r code).fault = .absent := by
  have hregistered : ∀ i ∈ code, (r.describe i.op).isSome = true := by
    intro i hi
    obtain ⟨line, -, hreads⟩ := Assembly.exists_line_of_mem h hi
    obtain ⟨mnemonic, -, hresolve⟩ := Assembly.exists_resolve_of_reads hreads
    exact Registry.isSome_describe_of_resolve hresolve
  rw [ofCode, fault_fromIndex, reach_of_registered hregistered,
    List.getElem?_eq_none (Nat.le_refl _)]
  rfl

end Reach

section Rows

private theorem text_of_registered (h : ∀ i ∈ code, (r.describe i.op).isSome = true) (index : Nat) :
    (fromIndex numberedLine r index code).text =
      (code.mapIdx fun n i => row (index + n) (r.nameOf i.op) i.arg).flatMap (· ++ [newline]) := by
  induction code generalizing index with
  | nil => rfl
  | cons i rest ih =>
    obtain ⟨hi, hrest⟩ := List.forall_mem_cons.mp h
    obtain ⟨name, hname⟩ := Option.isSome_iff_exists.mp hi
    -- The rows of the rest are numbered from the next index.
    have hshift : (fun n (j : Instruction) => row (index + (n + 1)) (r.nameOf j.op) j.arg) =
        fun n j => row (index + 1 + n) (r.nameOf j.op) j.arg := by
      funext n j
      rw [Nat.add_assoc, Nat.add_comm 1]
    rw [fromIndex, hname, List.mapIdx_cons, List.flatMap_cons, Registry.nameOf_of_describe hname,
      hshift, ← ih hrest]
    rfl

/-- The text of a listing is its rows, each ended by a newline. -/
theorem text_ofCode (r : Registry) (code : Code) :
    (ofCode r code).text = (rows r (code.take (reach r code))).flatMap (· ++ [newline]) := by
  rw [ofCode, ← text_fromIndex_take, text_of_registered (fun i => registered_of_mem_take)]
  simp only [Nat.zero_add]
  rfl

theorem length_rows_take (r : Registry) (code : Code) :
    (rows r (code.take (reach r code))).length = reach r code := by
  rw [rows, List.length_mapIdx, List.length_take, Nat.min_eq_left (reach_le_length r code)]

private theorem flatMap_newline {rs : List Bytes} (h : rs ≠ []) :
    rs.flatMap (· ++ [newline]) = Bytes.join [newline] rs ++ [newline] := by
  induction rs with
  | nil => exact absurd rfl h
  | cons row rest ih =>
    cases rest with
    | nil => exact List.append_nil _
    | cons next rest =>
      rw [List.flatMap_cons, ih (List.cons_ne_nil next rest), Bytes.join_eq_intercalate,
        Bytes.join_eq_intercalate, List.intercalate_cons_cons]
      simp only [List.append_assoc]

/-- Rows without newlines are the lines of the listing that they make. -/
theorem lines_of_rows {l : Listing} {rs : List Bytes} (h : l.text = rs.flatMap (· ++ [newline]))
    (hrs : ∀ row ∈ rs, newline ∉ row) : l.lines = if rs = [] then none else some rs := by
  by_cases hne : rs = []
  · rw [if_pos hne, lines, h, hne]
    rfl
  · have htext : l.text = Bytes.join [newline] rs ++ [newline] := h.trans (flatMap_newline hne)
    rw [if_neg hne, lines, htext, if_neg (by simp), Bytes.dropFinal_concat,
      Text.pieces_join hne hrs]

theorem newline_not_mem_row {index : Nat} {name : Bytes} {arg : Int64} (h : newline ∉ name) :
    newline ∉ row index name arg := by
  have hindex : newline ∉ Text.Decimal.padded 4 index := Text.Decimal.not_mem_padded rfl
  have hspaces (n : Nat) : newline ∉ List.replicate n space := fun hmem =>
    absurd (List.eq_of_mem_replicate hmem) (by decide)
  have harg : newline ∉ Text.Decimal.ofInt64 arg := fun hmem =>
    (Assembly.operand_bytes arg hmem).2.1 rfl
  have hgap : newline ∉ utf8 "  " := by decide
  have hbefore : newline ∉ [space] := by decide
  simp only [row, column, List.mem_append, not_or]
  exact ⟨⟨⟨⟨hindex, hgap⟩, h, hspaces _⟩, hbefore⟩, harg⟩

private theorem row_eq (index : Nat) (name : Bytes) (arg : Int64) :
    row index name arg = Text.Decimal.padded 4 index ++ space :: space :: (name ++
      space :: (List.replicate (12 - Text.Utf8.count name) space ++ Text.Decimal.ofInt64 arg)) := by
  have hgap : utf8 "  " = [space, space] := by decide
  have hfill (n : Nat) (t : Bytes) :
      List.replicate n space ++ space :: t = space :: (List.replicate n space ++ t) := by
    rw [← List.cons_append, ← List.replicate_succ, List.replicate_succ', List.append_assoc]
    rfl
  simp only [row, column, hgap, List.append_assoc, List.cons_append, List.nil_append, hfill]

/-- The words of a row are the index, the name and the argument. -/
theorem tokens_row {name : Bytes} (hne : name ≠ []) (hspace : space ∉ name) (index : Nat)
    (arg : Int64) : tokens (row index name arg) =
      [Text.Decimal.padded 4 index, name, Text.Decimal.ofInt64 arg] := by
  have hindex : space ∉ Text.Decimal.padded 4 index := Text.Decimal.not_mem_padded rfl
  have harg : space ∉ Text.Decimal.ofInt64 arg := fun hmem =>
    (Assembly.operand_bytes arg hmem).1 rfl
  rw [← Assembly.words_eq_tokens, Text.words, row_eq, Text.fields_append_cons,
    Text.fields_of_not_mem hindex (Text.Decimal.padded_ne_nil 4 index), Text.fields_cons_self,
    Text.fields_append_cons, Text.fields_of_not_mem hspace hne, Text.fields_replicate_append,
    Text.fields_of_not_mem harg (Text.Decimal.ofInt64_ne_nil arg)]
  rfl

end Rows

section Whole

/-- If no name has a newline, the lines of a listing are its rows. -/
theorem lines_ofCode (h : ∀ i ∈ code.take (reach r code), newline ∉ r.nameOf i.op) :
    ((ofCode r code).lines = none ↔ reach r code = 0) ∧
      (ofCode r code).lines.getD [] = rows r (code.take (reach r code)) := by
  have hlines := lines_of_rows (text_ofCode r code) fun line hline => by
    obtain ⟨n, hn, rfl⟩ := List.mem_mapIdx.mp hline
    exact newline_not_mem_row (h _ (List.getElem_mem hn))
  have hzero : rows r (code.take (reach r code)) = [] ↔ reach r code = 0 := by
    rw [← List.length_eq_zero_iff, length_rows_take]
  rw [hlines, ← hzero]
  by_cases hnil : rows r (code.take (reach r code)) = []
  · rw [if_pos hnil, hnil]
    exact ⟨by simp, rfl⟩
  · rw [if_neg hnil]
    exact ⟨by simp [hnil], rfl⟩

theorem getElem?_rows_take {n : Nat} {i : Instruction} (hn : n < reach r code)
    (hi : code[n]? = some i) :
    (rows r (code.take (reach r code)))[n]? = some (row n (r.nameOf i.op) i.arg) := by
  rw [rows, List.getElem?_mapIdx, List.getElem?_take_of_lt hn, hi, Option.map_some]

/-- Legible instructions with the same row are the same. -/
private theorem eq_of_row_eq (hr : r.Reachable) {i j : Instruction} (hi : r.Legible i.op)
    (hj : r.Legible j.op) {index : Nat}
    (h : row index (r.nameOf i.op) i.arg = row index (r.nameOf j.op) j.arg) : i = j := by
  obtain ⟨name, hname, hshadow, hspace, -⟩ := hi
  obtain ⟨name', hname', hshadow', hspace', -⟩ := hj
  rw [Registry.nameOf_of_describe hname, Registry.nameOf_of_describe hname'] at h
  have htokens := congrArg tokens h
  rw [tokens_row (hr.describe_ne_nil hname) hspace, tokens_row (hr.describe_ne_nil hname') hspace',
    List.cons.injEq, List.cons.injEq, List.cons.injEq] at htokens
  obtain ⟨-, rfl, harg, -⟩ := htokens
  -- Neither opcode is shadowed, so both are what the name resolves to.
  have hop : some i.op = some j.op :=
    ((Registry.isShadowed_eq_false_iff hname).mp hshadow).symm.trans
      ((Registry.isShadowed_eq_false_iff hname').mp hshadow')
  have hread : Except.ok i.arg = .ok j.arg :=
    (Text.Decimal.readInt64_ofInt64 i.arg).symm.trans
      (harg ▸ Text.Decimal.readInt64_ofInt64 j.arg)
  obtain ⟨op, arg⟩ := i
  cases hop
  cases hread
  rfl

/-- All instructions with legible opcodes are listed. -/
private theorem lines_of_legible (h : ∀ i ∈ code, r.Legible i.op) :
    (ofCode r code).lines.getD [] = rows r code := by
  have hreach : reach r code = code.length := reach_of_registered fun i hi => by
    obtain ⟨name, hname, -⟩ := h i hi
    rw [hname, Option.isSome_some]
  have hnames : ∀ i ∈ code.take (reach r code), newline ∉ r.nameOf i.op := by
    intro i hi
    obtain ⟨name, hname, -, -, hnewline⟩ := h i (List.mem_of_mem_take hi)
    rwa [Registry.nameOf_of_describe hname]
  rw [(lines_ofCode hnames).2, hreach, List.take_length]

/-- Code of legible opcodes can be told from its listing. -/
theorem eq_of_text_eq (hr : r.Reachable) {code' : Code} (h : ∀ i ∈ code, r.Legible i.op)
    (h' : ∀ i ∈ code', r.Legible i.op) (htext : (ofCode r code).text = (ofCode r code').text) :
    code = code' := by
  have hsame : rows r code = rows r code' := by
    rw [← lines_of_legible h, ← lines_of_legible h', lines, lines, htext]
  apply List.ext_getElem?
  intro n
  have hn := congrArg (·[n]?) hsame
  simp only [rows, List.getElem?_mapIdx] at hn
  cases hi : code[n]? with
  | none =>
    rw [hi, Option.map_none, eq_comm, Option.map_eq_none_iff] at hn
    exact hn.symm
  | some i =>
    rw [hi, Option.map_some, eq_comm, Option.map_eq_some_iff] at hn
    obtain ⟨j, hj, hrow⟩ := hn
    rw [hj, eq_of_row_eq hr (h' j (List.mem_of_getElem? hj)) (h i (List.mem_of_getElem? hi)) hrow]

/-- A listing is that of the instructions before the first one whose opcode is not registered, and
fails exactly there. If their names have no newlines, it has one line for each of them, and where
the name has no spaces, the words of the line are the index with at least four digits, the name and
the argument. Assembled code is listed without fail, and while opcodes do not run out it can be told
from its listing. -/
theorem ofCode_faithful (hr : r.Reachable) :
    (∀ code : Code,
      (ofCode r code).text = (ofCode r (code.take (reach r code))).text ∧
      ((ofCode r code).fault.isPresent = true ↔ reach r code < code.length) ∧
      (∀ i, code[reach r code]? = some i →
        (ofCode r code).fault = .listing (reach r code) i.op) ∧
      ((∀ i ∈ code.take (reach r code), newline ∉ r.nameOf i.op) →
        ((ofCode r code).lines = none ↔ reach r code = 0) ∧
        ((ofCode r code).lines.getD []).length = reach r code ∧
        ∀ n i mnemonic, n < reach r code → code[n]? = some i →
          r.describe i.op = some mnemonic → space ∉ mnemonic →
          ∃ line, ((ofCode r code).lines.getD [])[n]? = some line ∧
            tokens line = [(utf8 (toString n)).leftpad 4 48, mnemonic,
              utf8 (toString i.arg.toInt)])) ∧
    (∀ source code, assemble r source = .ok code → (ofCode r code).fault = .absent) ∧
    (r.size < UInt32.size → ∀ source source' code code', assemble r source = .ok code →
      assemble r source' = .ok code' → (ofCode r code).text = (ofCode r code').text →
      code = code') := by
  refine ⟨fun code => ⟨?_, isPresent_fault_ofCode_iff r code, ?_, fun hnames => ?_⟩, ?_, ?_⟩
  · exact (text_fromIndex_take 0 code).symm
  · exact fun i hi => fault_ofCode_of_getElem? hi
  · obtain ⟨hnone, hrows⟩ := lines_ofCode hnames
    rw [hrows]
    refine ⟨hnone, length_rows_take r code, fun n i mnemonic hn hi hmnemonic hspace => ?_⟩
    refine ⟨_, getElem?_rows_take hn hi, ?_⟩
    rw [Registry.nameOf_of_describe hmnemonic,
      tokens_row (hr.describe_ne_nil hmnemonic) hspace, Text.Decimal.padded_eq_leftpad,
      Text.Decimal.ofInt64, Text.Decimal.ofInt_eq_utf8]
  · exact fun source code h => fault_ofCode_of_assemble h
  · intro hsize source source' code code' h h'
    exact eq_of_text_eq hr (Assembly.legible_of_assemble hsize h)
      (Assembly.legible_of_assemble hsize h')

/-- A registry with a name of twelve characters that is longer in bytes, and a name of two words. -/
def lambdas : Registry :=
  .ofEntries [⟨utf8 "\u03BBABSTRACTION", Builtin.effect .loadConst⟩,
    ⟨utf8 "A B", Builtin.effect .pop⟩]

/-- A code with an unknown opcode, and one that is known from its listing. -/
theorem ofCode_faithful_lambdas :
    let code : Code := [⟨0, -5⟩, ⟨1, 7⟩, ⟨9, 1⟩, ⟨0, 2⟩]
    let listing := ofCode lambdas code
    lambdas.Reachable ∧ lambdas.size < UInt32.size ∧ reach lambdas code = 2 ∧
    listing.text = (ofCode lambdas (code.take 2)).text ∧ listing.fault = .listing 2 9 ∧
    (listing.lines.getD []).length = 2 ∧
    (∃ line, (listing.lines.getD [])[0]? = some line ∧
      tokens line = [utf8 "0000", utf8 "\u03BBABSTRACTION", utf8 "-5"]) ∧
    ∀ source code, assemble lambdas source = .ok code →
      (ofCode lambdas code).text = utf8 "0000  \u03BBABSTRACTION 3\n" → code = [⟨0, 3⟩] := by
  intro code listing
  have hr : lambdas.Reachable := by
    rw [Registry.reachable_iff]
    decide
  have hsize : lambdas.size < UInt32.size := by decide
  have hreach : reach lambdas code = 2 := by decide
  have hnames : ∀ i ∈ code.take 2, newline ∉ lambdas.nameOf i.op := by decide
  have hassembled : assemble lambdas (utf8 " \u03BBABSTRACTION  +3") = .ok [⟨0, 3⟩] := by
    decide +kernel
  have hlisted : (ofCode lambdas [⟨0, 3⟩]).text = utf8 "0000  \u03BBABSTRACTION 3\n" := by
    decide +kernel
  obtain ⟨hall, -, hknown⟩ := ofCode_faithful hr
  obtain ⟨htext, -, hstops, hlines⟩ := hall code
  rw [hreach] at htext hstops hlines
  obtain ⟨-, hlength, hwords⟩ := hlines hnames
  refine ⟨hr, hsize, hreach, htext, hstops ⟨9, 1⟩ rfl, hlength, ?_, fun source known h hsame => ?_⟩
  · exact hwords 0 ⟨0, -5⟩ _ (by decide) rfl rfl (by decide)
  · exact hknown hsize _ _ _ _ h hassembled (hsame.trans hlisted.symm)

end Whole

end Listing

end StackMachine
