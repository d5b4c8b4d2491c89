import StackMachine.Config.Settings
import StackMachine.Proofs.Path

/-! The search for a manifest. From a directory it goes up to the root, a turn for each directory on
the way, and it loads the first file that it meets: a file further up is not looked at, whatever the
first one turns out to be. -/
namespace StackMachine.Config.Manifest

/-- The search from a directory ends after so many turns with the directory that it has found, if
it has found one. A turn looks for the file and goes up, unless the directory is above itself. -/
inductive Climbs (disk : Disk) : Bytes → Nat → Option Bytes → Prop where
  | found {directory : Bytes} (held : disk.holds (Path.join directory fileName) = true) :
      Climbs disk directory 1 (some directory)
  | root {directory : Bytes} (missing : disk.holds (Path.join directory fileName) = false)
      (top : Path.parent directory = directory) : Climbs disk directory 1 none
  | up {directory : Bytes} {turns : Nat} {result : Option Bytes}
      (missing : disk.holds (Path.join directory fileName) = false)
      (below : Path.parent directory ≠ directory)
      (rest : Climbs disk (Path.parent directory) turns result) :
      Climbs disk directory (turns + 1) result

/-- The directory that the names lead to has an entry of the name of the file. -/
def Held (disk : Disk) (names : List Bytes) : Prop :=
  disk.holds (Path.fromRoot (names ++ [fileName])) = true

/-- On the way from the names up to the root, the level is the first to have the file. -/
structure Nearest (disk : Disk) (names level : List Bytes) : Prop where
  onWay : level <+: names
  held : Held disk level
  first : ∀ other, other <+: names → Held disk other → other <+: level

/-- The manifest comes from the file at the level, which has been read and found in order. -/
structure LoadedAt (parse : SettingsReader) (disk : Disk) (level : List Bytes) (m : Manifest) :
    Prop where
  directory : m.directory = Path.fromRoot level
  absolute : Path.isAbsolute m.directory = true
  diagnostics : m.diagnostics.name = utf8 "stdout" ∨ m.diagnostics.name = utf8 "stderr"
  maxSteps : 0 ≤ m.maxSteps
  port : m.port ≠ 0
  settings : ∃ text s, disk.read (Path.fromRoot (level ++ [fileName])) = .ok text ∧
    parse text = .ok s ∧ m.maxSteps = s.maxSteps ∧
    (m.diagnostics.name = s.diagnostics ∨ s.diagnostics = [] ∧ m.diagnostics = .stdout) ∧
    (m.port = s.port ∨ s.port = 0 ∧ m.port = defaultPort)

section Climbing

variable {disk : Disk} {names level : List Bytes}

theorem isName_fileName : Path.IsName fileName where
  ne_nil := by decide
  ne_here := by decide
  ne_above := by decide
  no_slash := by decide

theorem held_iff (h : ∀ name ∈ names, Path.IsName name) :
    Held disk names ↔ disk.holds (Path.join (Path.fromRoot names) fileName) = true := by
  rw [Held, Path.join_fromRoot h isName_fileName]

/-- A search that ends is the one along the directories above, as long as the fuel lasts. -/
theorem Climbs.find?_ancestorsWithin {directory : Bytes} {turns : Nat} {result : Option Bytes}
    (h : Climbs disk directory turns result) {fuel : Nat} (hfuel : turns ≤ fuel) :
    (Path.ancestorsWithin fuel directory).find?
      (fun d => disk.holds (Path.join d fileName)) = result := by
  induction h generalizing fuel with
  | found held =>
    obtain ⟨fuel, rfl⟩ := Nat.exists_eq_add_of_le' hfuel
    rw [Path.ancestorsWithin]
    split
    · exact List.find?_cons_of_pos held
    · exact List.find?_cons_of_pos held
  | root missing top =>
    obtain ⟨fuel, rfl⟩ := Nat.exists_eq_add_of_le' hfuel
    rw [Path.ancestorsWithin, if_pos top, List.find?_cons_of_neg (by simp [missing]),
      List.find?_nil]
  | up missing below rest ih =>
    obtain ⟨fuel, rfl⟩ := Nat.exists_eq_add_of_le' (Nat.le_of_add_left_le hfuel)
    rw [Path.ancestorsWithin, if_neg below, List.find?_cons_of_neg (by simp [missing])]
    exact ih (by omega)

theorem Nearest.self (h : Held disk names) : Nearest disk names names where
  onWay := List.prefix_rfl
  held := h
  first _ hother _ := hother

/-- A directory without the file is passed on the way up. -/
theorem Nearest.pass {name : Bytes} (h : Nearest disk names level)
    (hmissing : ¬ Held disk (names ++ [name])) : Nearest disk (names ++ [name]) level where
  onWay := h.onWay.trans (List.prefix_append names [name])
  held := h.held
  first other hother hheld := by
    obtain rfl | habove := List.prefix_concat_iff.mp hother
    · exact absurd hheld hmissing
    · exact h.first other habove hheld

/-- The search ends, after at most one turn for each directory on the way, at the nearest file or,
without one, at the root. -/
theorem exists_climbs (disk : Disk) {names : List Bytes}
    (h : ∀ name ∈ names, Path.IsName name) :
    ∃ turns, turns ≤ names.length + 1 ∧
      ((∃ level, Nearest disk names level ∧
          Climbs disk (Path.fromRoot names) turns (some (Path.fromRoot level))) ∨
        (∀ level, level <+: names → ¬ Held disk level) ∧
          Climbs disk (Path.fromRoot names) turns none) := by
  induction names using List.reverseRecOn with
  | nil =>
    refine ⟨1, Nat.le_refl 1, ?_⟩
    by_cases hheld : Held disk []
    · exact .inl ⟨[], .self hheld, .found ((held_iff h).mp hheld)⟩
    · have hmissing := (held_iff h).not.mp hheld
      refine .inr ⟨?_, .root (Bool.eq_false_iff.mpr hmissing) Path.parent_root⟩
      intro level hlevel
      rwa [List.prefix_nil.mp hlevel]
  | append_singleton names name ih =>
    by_cases hheld : Held disk (names ++ [name])
    · exact ⟨1, by omega, .inl ⟨_, .self hheld, .found ((held_iff h).mp hheld)⟩⟩
    · have hmissing := Bool.eq_false_iff.mpr ((held_iff h).not.mp hheld)
      have hbelow := Path.parent_fromRoot_ne h
      have hup := Path.parent_fromRoot_concat h
      obtain ⟨turns, hturns, hrest⟩ := ih fun n hn => h n (List.mem_append_left _ hn)
      rw [← hup] at hrest
      refine ⟨turns + 1, by simpa using hturns, ?_⟩
      obtain ⟨level, hnearest, hclimbs⟩ | ⟨hnone, hclimbs⟩ := hrest
      · exact .inl ⟨level, hnearest.pass hheld, .up hmissing hbelow hclimbs⟩
      · refine .inr ⟨?_, .up hmissing hbelow hclimbs⟩
        intro level hlevel
        obtain rfl | habove := List.prefix_concat_iff.mp hlevel
        · exact hheld
        · exact hnone level habove

/-- The fuel of the search lasts to its end. -/
theorem Climbs.find?_ancestors (h : ∀ name ∈ names, Path.IsName name) {turns : Nat}
    {result : Option Bytes} (hclimbs : Climbs disk (Path.fromRoot names) turns result)
    (hturns : turns ≤ names.length + 1) :
    (Path.ancestors (Path.fromRoot names)).find?
      (fun d => disk.holds (Path.join d fileName)) = result := by
  have hlength := Path.length_lt_length_fromRoot fun name hname => (h name hname).ne_nil
  exact hclimbs.find?_ancestorsWithin (by omega)

end Climbing

section Loading

variable {parse : SettingsReader} {disk : Disk} {base : Bytes} {level : List Bytes} {m : Manifest}

/-- The stream of a name has that name, and the empty name means standard output. -/
theorem name_of_stream? {name : Bytes} {stream : Stream} (h : stream? name = some stream) :
    stream.name = name ∨ name = [] ∧ stream = .stdout := by
  unfold stream? at h
  split at h
  · rename_i hout
    cases h
    obtain rfl | rfl := hout
    · exact .inr ⟨rfl, rfl⟩
    · exact .inl rfl
  · split at h
    · rename_i herr
      cases h
      exact .inl herr.symm
    · cases h

theorem stream_name (stream : Stream) :
    stream.name = utf8 "stdout" ∨ stream.name = utf8 "stderr" := by
  cases stream with
  | stdout => exact .inl rfl
  | stderr => exact .inr rfl

/-- The port that is used is the one that is set, unless none is. -/
theorem eq_or_defaultPort (port : Int64) :
    (if port = 0 then defaultPort else port) = port ∨
      port = 0 ∧ (if port = 0 then defaultPort else port) = defaultPort := by
  by_cases hport : port = 0
  · exact .inr ⟨hport, if_pos hport⟩
  · exact .inl (if_neg hport)

theorem usedPort_ne_zero (port : Int64) : (if port = 0 then defaultPort else port) ≠ 0 := by
  split
  · decide
  · assumption

/-- What is loaded has passed the checks. -/
theorem loadedAt_of_load (hlevel : ∀ name ∈ level, Path.IsName name)
    (h : load parse disk base (Path.fromRoot level) = .ok m) : LoadedAt parse disk level m := by
  simp only [load, Path.join_fromRoot hlevel isName_fileName,
    Path.absolute_fromRoot base hlevel] at h
  split at h
  · cases h
  · rename_i text hread
    split at h
    · cases h
    · rename_i s hparse
      unfold ofSettings at h
      split at h
      · cases h
      · rename_i stream hstream
        split at h
        · cases h
        · rename_i hbudget
          cases h
          exact
            { directory := rfl
              absolute := rfl
              diagnostics := stream_name stream
              maxSteps := Int64.not_lt.mp hbudget
              port := usedPort_ne_zero s.port
              settings := ⟨text, s, hread, hparse, rfl,
                name_of_stream? hstream, eq_or_defaultPort s.port⟩ }

end Loading

/-- The search ends for every disk and every start, be it relative to a base that is given from the
root. It loads the file of the nearest directory that has one, faults included, and a manifest that
comes of it has passed the checks; if there is no file on the way up to the root, nothing is
found. -/
theorem find_loads_nearest (parse : SettingsReader) (disk : Disk) {base : Bytes}
    (hbase : Path.isAbsolute base = true) (start : Bytes) :
    ∃ names, (∀ name ∈ names, Path.IsName name) ∧
      Path.absolute base start = Path.fromRoot names ∧
      ∃ turns, turns ≤ names.length + 1 ∧
        ((∃ level, Nearest disk names level ∧
            Climbs disk (Path.absolute base start) turns (some (Path.fromRoot level)) ∧
            find parse disk base start = (load parse disk base (Path.fromRoot level)).map some ∧
            ∀ m, find parse disk base start = .ok (some m) → LoadedAt parse disk level m) ∨
          (∀ level, level <+: names → ¬ Held disk level) ∧
            Climbs disk (Path.absolute base start) turns none ∧
            find parse disk base start = .ok none) := by
  obtain ⟨names, hnames, hstart⟩ := Path.exists_absolute_eq hbase start
  obtain ⟨turns, hturns, hclimb⟩ := exists_climbs disk hnames
  refine ⟨names, hnames, hstart, turns, hturns, ?_⟩
  rw [hstart]
  obtain ⟨level, hnearest, hclimbs⟩ | ⟨hnone, hclimbs⟩ := hclimb
  · have hfind : find parse disk base start = (load parse disk base (Path.fromRoot level)).map some := by
      rw [find, hstart, hclimbs.find?_ancestors hnames hturns]
    refine .inl ⟨level, hnearest, hclimbs, hfind, ?_⟩
    intro m hm
    have hlevel : ∀ name ∈ level, Path.IsName name := fun name hname =>
      hnames name (hnearest.onWay.subset hname)
    rw [hfind] at hm
    cases hload : load parse disk base (Path.fromRoot level) with
    | error fault => simp [hload, Except.map] at hm
    | ok loaded =>
      obtain rfl : loaded = m := by simpa [hload, Except.map] using hm
      exact loadedAt_of_load hlevel hload
  · refine .inr ⟨hnone, hclimbs, ?_⟩
    rw [find, hstart, hclimbs.find?_ancestors hnames hturns]

/-- A file without settings lies in `/a`, and one that may not be read lies above it. -/
def twoFiles : Disk :=
  .ofLookups [(utf8 "/a/stackvm.toml", .file []), (utf8 "/stackvm.toml", .sealed)]

theorem find_loads_nearest_twoFiles :
    Path.isAbsolute (utf8 "/a/b") = true ∧
      find Settings.parse twoFiles (utf8 "/a/b") (utf8 "../b/./c") =
        .ok (some { directory := utf8 "/a" }) ∧
      find Settings.parse twoFiles (utf8 "/") [] =
        .error (.unreadable (utf8 "/stackvm.toml")
          (utf8 "open /stackvm.toml: permission denied")) ∧
      ∃ names level, Path.fromRoot names = utf8 "/a/b/c" ∧ Nearest twoFiles names level ∧
        LoadedAt Settings.parse twoFiles level { directory := utf8 "/a" } := by
  have hbase : Path.isAbsolute (utf8 "/a/b") = true := by decide
  have hfind : find Settings.parse twoFiles (utf8 "/a/b") (utf8 "../b/./c") =
      .ok (some { directory := utf8 "/a" }) := by decide
  have hsealed : find Settings.parse twoFiles (utf8 "/") [] =
      .error (.unreadable (utf8 "/stackvm.toml")
        (utf8 "open /stackvm.toml: permission denied")) := by decide
  have hstart : Path.absolute (utf8 "/a/b") (utf8 "../b/./c") = utf8 "/a/b/c" := by decide
  obtain ⟨names, -, hnames, -, -, ⟨level, hnearest, -, -, hloaded⟩ | ⟨-, -, hnone⟩⟩ :=
    find_loads_nearest Settings.parse twoFiles hbase (utf8 "../b/./c")
  · exact ⟨hbase, hfind, hsealed, names, level, hnames.symm.trans hstart, hnearest,
      hloaded _ hfind⟩
  · rw [hfind] at hnone
    cases hnone

end StackMachine.Config.Manifest
