import Mathlib.Data.List.Induction
import StackMachine.Path
import StackMachine.Proofs.Text.Fields

/-! Paths from the root. Resolving a path that starts at the root leaves a list of names, and writing
these down again gives a path that is resolved already. The way up removes the last name, until
only the root is left, which is above itself. -/
namespace StackMachine.Path

/-- The segment is the name of an entry of a directory. -/
structure IsName (segment : Bytes) : Prop where
  ne_nil : segment ≠ []
  ne_here : segment ≠ here
  ne_above : segment ≠ above
  no_slash : slash ∉ segment

/-- The path that leads from the root along the names. -/
def fromRoot (names : List Bytes) : Bytes :=
  slash :: Bytes.join [slash] names

/-- The names, each with a slash behind it. -/
def stem (names : List Bytes) : Bytes :=
  names.flatMap fun name => name ++ [slash]

section Writing

variable {names : List Bytes} {name : Bytes}

theorem join_concat (names : List Bytes) (name : Bytes) :
    Bytes.join [slash] (names ++ [name]) = stem names ++ name := by
  induction names with
  | nil => rfl
  | cons first rest ih =>
    obtain ⟨second, others, hrest⟩ := List.exists_cons_of_ne_nil (l := rest ++ [name]) (by simp)
    rw [List.cons_append, hrest, Bytes.join, ← hrest, ih]
    · simp [stem]
    · rintro ⟨⟩

theorem fromRoot_concat (names : List Bytes) (name : Bytes) :
    fromRoot (names ++ [name]) = slash :: stem names ++ name := by
  rw [fromRoot, join_concat, List.cons_append]

theorem pieces_stem (h : ∀ name ∈ names, slash ∉ name) (rest : Bytes) :
    Text.pieces slash (stem names ++ rest) = names ++ Text.pieces slash rest := by
  induction names with
  | nil => rfl
  | cons first others ih =>
    obtain ⟨hfirst, hothers⟩ := List.forall_mem_cons.mp h
    have hcut : stem (first :: others) ++ rest = first ++ slash :: (stem others ++ rest) := by
      simp [stem]
    rw [hcut, Text.pieces_append_cons, Text.pieces_of_not_mem hfirst, ih hothers,
      List.singleton_append, List.cons_append]

/-- No path is longer in names than in bytes. -/
theorem length_lt_length_fromRoot (h : ∀ name ∈ names, name ≠ []) :
    names.length < (fromRoot names).length := by
  have hstem (names : List Bytes) : names.length ≤ (stem names).length := by
    induction names with
    | nil => exact Nat.le_refl 0
    | cons first rest ih =>
      rw [stem, List.flatMap_cons, List.length_append, List.length_append, List.length_singleton,
        List.length_cons]
      rw [stem] at ih
      omega
  cases names using List.reverseRecOn with
  | nil => exact Nat.zero_lt_one
  | append_singleton init last =>
    have hlast := List.length_pos_iff.mpr (h last (by simp))
    have hinit := hstem init
    rw [fromRoot_concat]
    simp only [List.length_append, List.length_cons, List.length_nil]
    omega

end Writing

section Resolving

variable {names : List Bytes} {name path base : Bytes}

theorem step_of_isName (h : IsName name) (rooted : Bool) (kept : List Bytes) :
    step rooted kept name = name :: kept := by
  unfold step
  rw [if_neg (by simp [h.ne_nil, h.ne_here]), if_neg h.ne_above]

theorem step_nil (rooted : Bool) (kept : List Bytes) : step rooted kept [] = kept :=
  if_pos (.inl rfl)

/-- Names are kept as they come. -/
theorem foldl_step_of_isName (h : ∀ name ∈ names, IsName name) (rooted : Bool)
    (kept : List Bytes) : names.foldl (step rooted) kept = names.reverse ++ kept := by
  induction names generalizing kept with
  | nil => rfl
  | cons first rest ih =>
    obtain ⟨hfirst, hrest⟩ := List.forall_mem_cons.mp h
    rw [List.foldl_cons, step_of_isName hfirst, ih hrest, List.reverse_cons, List.append_assoc,
      List.singleton_append]

/-- Below the root a step leaves nothing but names. -/
theorem isName_of_mem_step {kept : List Bytes} (hkept : ∀ name ∈ kept, IsName name)
    {segment : Bytes} (hsegment : slash ∉ segment) :
    ∀ name ∈ step true kept segment, IsName name := by
  unfold step
  split
  · exact hkept
  · rename_i hplain
    obtain ⟨hne, hhere⟩ := not_or.mp hplain
    split
    · cases kept with
      | nil => exact hkept
      | cons last rest =>
        obtain ⟨hlast, hrest⟩ := List.forall_mem_cons.mp hkept
        simp only [if_neg hlast.ne_above]
        exact hrest
    · rename_i habove
      exact List.forall_mem_cons.mpr ⟨⟨hne, hhere, habove, hsegment⟩, hkept⟩

theorem isName_of_mem_resolved (h : isAbsolute path = true) :
    ∀ name ∈ resolved path, IsName name := by
  have hfold (segments kept : List Bytes) (hsegments : ∀ segment ∈ segments, slash ∉ segment)
      (hkept : ∀ name ∈ kept, IsName name) :
      ∀ name ∈ segments.foldl (step true) kept, IsName name := by
    induction segments generalizing kept with
    | nil => exact hkept
    | cons first rest ih =>
      obtain ⟨hfirst, hrest⟩ := List.forall_mem_cons.mp hsegments
      exact ih _ hrest (isName_of_mem_step hkept hfirst)
  intro name hname
  rw [resolved, h, List.mem_reverse] at hname
  exact hfold _ [] (fun segment hsegment => (Text.mem_pieces hsegment).1) (by simp) name hname

theorem clean_of_isAbsolute (h : isAbsolute path = true) :
    clean path = fromRoot (resolved path) := by
  rw [clean, h]
  rfl

/-- A path of names with a slash before each of them and one more at its end leads along the
names. -/
theorem resolved_stem (h : ∀ name ∈ names, IsName name) : resolved (slash :: stem names) = names := by
  have hpieces := pieces_stem (fun name hname => (h name hname).no_slash) []
  rw [List.append_nil] at hpieces
  rw [resolved, Text.pieces, if_pos rfl, hpieces, List.foldl_cons, step_nil, List.foldl_append,
    foldl_step_of_isName h, List.append_nil]
  simp [Text.pieces, step_nil]

theorem resolved_fromRoot (h : ∀ name ∈ names, IsName name) : resolved (fromRoot names) = names := by
  cases names using List.reverseRecOn with
  | nil => rfl
  | append_singleton init last =>
    have hlast : slash ∉ last := (h last (by simp)).no_slash
    have hinit : ∀ name ∈ init, slash ∉ name := fun name hname =>
      (h name (List.mem_append_left _ hname)).no_slash
    rw [fromRoot_concat, resolved, List.cons_append, Text.pieces, if_pos rfl, pieces_stem hinit,
      Text.pieces_of_not_mem hlast, List.foldl_cons, step_nil, foldl_step_of_isName h,
      List.append_nil, List.reverse_reverse]

/-- A name joined to a path of names is one name more on it. -/
theorem join_fromRoot (h : ∀ n ∈ names, IsName n) (hname : IsName name) :
    join (fromRoot names) name = fromRoot (names ++ [name]) := by
  have hfold : (Text.pieces slash (fromRoot names)).foldl (step true) [] = names.reverse := by
    rw [← List.reverse_eq_iff]
    exact resolved_fromRoot h
  have hresolved : resolved (fromRoot names ++ slash :: name) = names ++ [name] := by
    have habsolute : isAbsolute (fromRoot names ++ slash :: name) = true := rfl
    rw [resolved, habsolute, Text.pieces_append_cons, Text.pieces_of_not_mem hname.no_slash,
      List.foldl_append, hfold, List.foldl_cons, step_of_isName hname, List.foldl_nil,
      List.reverse_cons, List.reverse_reverse]
  have hcut : join (fromRoot names) name = clean (fromRoot names ++ slash :: name) := rfl
  rw [hcut, clean_of_isAbsolute rfl, hresolved]

/-- A path of names is clean. -/
theorem clean_fromRoot (h : ∀ name ∈ names, IsName name) :
    clean (fromRoot names) = fromRoot names := by
  rw [clean_of_isAbsolute rfl, resolved_fromRoot h]

theorem fromRoot_inj {others : List Bytes} (h : ∀ name ∈ names, IsName name)
    (hothers : ∀ name ∈ others, IsName name) (heq : fromRoot names = fromRoot others) :
    names = others := by
  rw [← resolved_fromRoot h, heq, resolved_fromRoot hothers]

/-- Every path means one from the root, if the directory that relative ones start in is given by
such a path. -/
theorem exists_absolute_eq (hbase : isAbsolute base = true) (path : Bytes) :
    ∃ names, (∀ name ∈ names, IsName name) ∧ absolute base path = fromRoot names := by
  unfold absolute
  split
  · rename_i habsolute
    exact ⟨_, isName_of_mem_resolved habsolute, clean_of_isAbsolute habsolute⟩
  · obtain ⟨b, rest, rfl⟩ := List.exists_cons_of_ne_nil (l := base) (by rintro rfl; cases hbase)
    have hjoined : isAbsolute ((b :: rest) ++ slash :: path) = true := hbase
    exact ⟨_, isName_of_mem_resolved hjoined, clean_of_isAbsolute hjoined⟩

theorem absolute_fromRoot (base : Bytes) (h : ∀ name ∈ names, IsName name) :
    absolute base (fromRoot names) = fromRoot names := by
  rw [absolute, if_pos (by rfl), clean_fromRoot h]

end Resolving

section Upward

variable {names : List Bytes} {name : Bytes}

theorem parent_root : parent (fromRoot []) = fromRoot [] := by
  decide

/-- The way up removes the last name. -/
theorem parent_fromRoot_concat (h : ∀ n ∈ names ++ [name], IsName n) :
    parent (fromRoot (names ++ [name])) = fromRoot names := by
  have hnames : ∀ n ∈ names, IsName n := fun n hn => h n (List.mem_append_left _ hn)
  have hname : ∀ b ∈ name.reverse, (b != slash) = true := by
    intro b hb
    rw [bne_iff_ne]
    rintro rfl
    exact (h name (by simp)).no_slash (List.mem_reverse.mp hb)
  -- What is left of the path ends in a slash.
  obtain ⟨front, hfront⟩ : ∃ front, slash :: stem names = front ++ [slash] := by
    cases names using List.reverseRecOn with
    | nil => exact ⟨[], rfl⟩
    | append_singleton init last =>
      exact ⟨slash :: (stem init ++ last), by simp [stem]⟩
  have hdrop : ((fromRoot (names ++ [name])).reverse.dropWhile (· != slash)).reverse =
      slash :: stem names := by
    rw [fromRoot_concat, List.reverse_append, List.dropWhile_append_of_pos hname, hfront]
    simp
  rw [parent, hdrop, clean_of_isAbsolute rfl, resolved_stem hnames]

theorem parent_fromRoot_ne (h : ∀ n ∈ names ++ [name], IsName n) :
    parent (fromRoot (names ++ [name])) ≠ fromRoot (names ++ [name]) := by
  intro heq
  rw [parent_fromRoot_concat h] at heq
  have hsame := fromRoot_inj (fun n hn => h n (List.mem_append_left _ hn)) h heq
  exact absurd (congrArg List.length hsame) (by simp)

end Upward

end StackMachine.Path
