import Linewise.FileTree
import Linewise.Proofs.Attempt
import Mathlib.Data.List.Basic

/-! # Writing a file

A file that is put where no directory stands is found there, and every other entry stays as it is.
Directories stay directories, so that a path leads where it led before.
-/

namespace Linewise.FileTree

variable {tree after : FileTree} {names other : List String} {octets : List UInt8}
  {place target : Place} {path : FilePath}

def keys (tree : FileTree) : List (List String) :=
  tree.entries.map Prod.fst

theorem any_eq_true_iff_mem_keys :
    (tree.entries.any fun e => e.1 = names) = true ↔ names ∈ tree.keys := by
  simp only [List.any_eq_true, decide_eq_true_eq, keys, List.mem_map]

theorem keys_put (tree : FileTree) (names : List String) (octets : List UInt8) :
    (tree.put names octets).keys =
      if names ∈ tree.keys then tree.keys else tree.keys ++ [names] := by
  unfold put
  simp only [any_eq_true_iff_mem_keys]
  split
  · rw [keys, keys, List.map_map]
    refine List.map_congr_left fun e _ => ?_
    by_cases he : e.1 = names <;> simp [he]
  · rw [keys, keys, List.map_append]
    rfl

theorem find?_eq_none_of_not_mem (h : names ∉ tree.keys) :
    (tree.entries.find? fun e => e.1 = names) = none :=
  List.find?_eq_none.mpr fun e he hkey =>
    h (List.mem_map.mpr ⟨e, he, of_decide_eq_true hkey⟩)

theorem mem_keys_of_find? {entry : FileEntry} (h : tree.find? names = some entry) :
    names ∈ tree.keys := by
  by_contra hnot
  rw [find?, find?_eq_none_of_not_mem hnot] at h
  cases h

theorem find?_put (tree : FileTree) (names other : List String) (octets : List UInt8) :
    (tree.put names octets).find? other =
      if other = names then some (.file octets) else tree.find? other := by
  unfold put
  simp only [any_eq_true_iff_mem_keys]
  split
  · next hmem =>
    have hkey : ((fun e : List String × FileEntry => decide (e.1 = other)) ∘
        fun e => if e.1 = names then (names, .file octets) else e) =
          fun e : List String × FileEntry => decide (e.1 = other) := by
      funext e
      by_cases he : e.1 = names <;> simp [he]
    rw [find?, List.find?_map, hkey, Option.map_map]
    cases hfind : tree.entries.find? fun e => e.1 = other with
    | none =>
      have hne : other ≠ names := by
        rintro rfl
        obtain ⟨e, he, heq⟩ := List.mem_map.mp hmem
        exact List.find?_eq_none.mp hfind e he (decide_eq_true heq)
      rw [if_neg hne, find?, hfind]
      rfl
    | some e =>
      have he : e.1 = other := by simpa using List.find?_some hfind
      by_cases hother : other = names <;> simp [find?, hfind, he, hother]
  · next hmem =>
    rw [find?, List.find?_append]
    by_cases hother : other = names
    · rw [hother, find?_eq_none_of_not_mem hmem]
      simp
    · simp [find?, hother, Ne.symm hother]

theorem ne_nil_of_isDirectory_eq_false (h : tree.isDirectory names = false) : names ≠ [] := by
  rintro rfl
  simp [isDirectory] at h

/-- A directory is the top, has an entry of its own, or has an entry below it. -/
theorem isDirectory_iff :
    tree.isDirectory names = true ↔ names = [] ∨ tree.find? names = some .directory ∨
      ∃ key ∈ tree.keys, names <+: key ∧ key ≠ names := by
  have hlength {key : List String} : names <+: key → (key ≠ names ↔ key.length ≠ names.length) :=
    fun hbelow => not_congr ⟨congrArg List.length, fun h => (hbelow.eq_of_length h.symm).symm⟩
  simp only [isDirectory, Bool.or_eq_true, decide_eq_true_eq, List.any_eq_true, Bool.and_eq_true,
    List.isPrefixOf_iff_prefix, bne_iff_ne, keys, List.mem_map, or_assoc, exists_exists_and_eq_and]
  refine or_congr_right (or_congr_right (exists_congr fun e => and_congr_right fun _ => ?_))
  exact and_congr_right fun hbelow => (hlength hbelow).symm

theorem keys_subset_keys_put : tree.keys ⊆ (tree.put names octets).keys := by
  rw [keys_put]
  split
  · exact List.Subset.refl _
  · exact List.subset_append_left _ _

theorem isDirectory_put (hnot : tree.isDirectory names = false)
    (h : tree.isDirectory other = true) : (tree.put names octets).isDirectory other = true := by
  have hne : other ≠ names := by
    rintro rfl
    rw [h] at hnot
    cases hnot
  refine isDirectory_iff.mpr ((isDirectory_iff.mp h).imp_right (Or.imp (fun hfind => ?_) ?_))
  · rw [find?_put, if_neg hne, hfind]
  · rintro ⟨key, hkey, hbelow⟩
    exact ⟨key, keys_subset_keys_put hkey, hbelow⟩

theorem isDirectory_put_self (hnot : tree.isDirectory names = false) :
    (tree.put names octets).isDirectory names = false := by
  rw [← Bool.not_eq_true, isDirectory_iff, find?_put, if_pos rfl, keys_put]
  rintro (hnil | hfind | ⟨key, hkey, hbelow, hne⟩)
  · exact ne_nil_of_isDirectory_eq_false hnot hnil
  · cases hfind
  · have hmem : key ∈ tree.keys := by
      split at hkey
      · exact hkey
      · exact (List.mem_append.mp hkey).resolve_right fun h => hne (List.mem_singleton.mp h)
    have hdirectory := isDirectory_iff.mpr (.inr (.inr ⟨key, hmem, hbelow, hne⟩))
    rw [hnot] at hdirectory
    cases hdirectory

theorem entry?_inside (tree : FileTree) (names : List String) :
    tree.entry? (.inside names) =
      if tree.isDirectory names then some .directory else tree.find? names := rfl

theorem entry?_inside_eq_directory_iff :
    tree.entry? (.inside names) = some .directory ↔ tree.isDirectory names = true := by
  rw [entry?_inside]
  split
  · next h => simp [h]
  · next h =>
    refine ⟨fun hfind => isDirectory_iff.mpr (.inr (.inl hfind)), fun h' => absurd h' h⟩

theorem home_put (tree : FileTree) (names : List String) (octets : List UInt8) :
    (tree.put names octets).home = tree.home := by
  unfold put
  split <;> rfl

theorem workingDirectory_put (tree : FileTree) (names : List String) (octets : List UInt8) :
    (tree.put names octets).workingDirectory = tree.workingDirectory := by
  unfold put
  split <;> rfl

theorem isWhole_put (tree : FileTree) (names : List String) (octets : List UInt8) :
    (tree.put names octets).isWhole = tree.isWhole := by
  rw [isWhole, isWhole, home_put]

theorem start_put (path : FilePath) : (tree.put names octets).start path = tree.start path := by
  simp only [start, isWhole_put, workingDirectory_put]

theorem entry?_put_of_directory (hnot : tree.isDirectory names = false)
    (h : tree.entry? place = some .directory) :
    FileTree.entry? (tree.put names octets) place = some .directory := by
  cases place with
  | inside others =>
    rw [entry?_inside_eq_directory_iff] at h ⊢
    exact isDirectory_put hnot h
  | outside others => cases others <;> exact h

theorem follow_cons_eq_ok_iff {step : String} {steps : List String} :
    tree.follow place (step :: steps) = .ok target ↔
      tree.entry? place = some .directory ∧ step.utf8ByteSize ≤ maxNameSize ∧
        tree.follow (tree.enter place step) steps = .ok target := by
  cases hentry : tree.entry? place with
  | none => simp [follow, hentry]
  | some entry =>
    cases entry with
    | file octets => simp [follow, hentry]
    | directory =>
      by_cases hsize : step.utf8ByteSize > maxNameSize
      · simp [follow, hentry, hsize, Nat.not_le.mpr hsize]
      · simp [follow, hentry, hsize, Nat.le_of_not_gt hsize]

theorem locate_eq_ok_iff :
    tree.locate path = .ok place ↔ path.hasNull = false ∧
      path.toString.utf8ByteSize < maxPathSize ∧
        tree.follow (tree.start path) path.parts = .ok place := by
  unfold locate
  split
  · next hnull => simp [hnull]
  · split
    · next hsize => simp [Nat.not_lt.mpr hsize]
    · next hnull hsize => simp [hnull, Nat.lt_of_not_ge hsize]

theorem not_hasNull_of_locate (h : tree.locate path = .ok place) : path.hasNull = false :=
  (locate_eq_ok_iff.mp h).1

/-- Steps lead where they led before when no directory is lost. -/
theorem follow_mono {other : FileTree} (hwhole : other.isWhole = tree.isWhole)
    (hdirectory : ∀ place, tree.entry? place = some .directory →
      FileTree.entry? other place = some .directory) {steps : List String}
    (h : tree.follow place steps = .ok target) : other.follow place steps = .ok target := by
  induction steps generalizing place with
  | nil => exact h
  | cons step steps ih =>
    obtain ⟨hentry, hsize, hrest⟩ := follow_cons_eq_ok_iff.mp h
    have henter : other.enter place step = tree.enter place step := by simp only [enter, hwhole]
    exact follow_cons_eq_ok_iff.mpr ⟨hdirectory place hentry, hsize, henter ▸ ih hrest⟩

theorem locate_put (hnot : tree.isDirectory names = false) (h : tree.locate path = .ok place) :
    (tree.put names octets).locate path = .ok place := by
  obtain ⟨hnull, hsize, hfollow⟩ := locate_eq_ok_iff.mp h
  refine locate_eq_ok_iff.mpr ⟨hnull, hsize, ?_⟩
  rw [start_put]
  exact follow_mono (isWhole_put tree names octets)
    (fun _ => entry?_put_of_directory hnot) hfollow

/-- A file may be written at a path that leads to a place below the top where no directory is. -/
structure IsWritable (tree : FileTree) (path : FilePath) (names : List String) : Prop where
  locate_eq : tree.locate path = .ok (.inside names)
  no_directory : tree.isDirectory names = false

theorem write_eq_ok_iff :
    tree.write path octets = .ok after ↔
      ∃ names, tree.IsWritable path names ∧ after = tree.put names octets := by
  unfold write
  split
  · next fault hlocate =>
    refine iff_of_false (by simp) ?_
    rintro ⟨names, hwritable, -⟩
    rw [hwritable.locate_eq] at hlocate
    cases hlocate
  · next place hlocate =>
    split
    · next hentry =>
      refine iff_of_false (by simp) ?_
      rintro ⟨names, hwritable, -⟩
      cases hlocate.symm.trans hwritable.locate_eq
      rw [entry?_inside_eq_directory_iff, hwritable.no_directory] at hentry
      cases hentry
    · next names hentry =>
      have hdirectory : tree.isDirectory names = false := by
        rwa [← Bool.not_eq_true, ← entry?_inside_eq_directory_iff]
      constructor
      · exact fun h => ⟨names, ⟨hlocate, hdirectory⟩, (Except.ok.inj h).symm⟩
      · rintro ⟨names', hwritable, rfl⟩
        cases hlocate.symm.trans hwritable.locate_eq
        rfl
    · refine iff_of_false (by simp) ?_
      rintro ⟨names, hwritable, -⟩
      cases hlocate.symm.trans hwritable.locate_eq

theorem IsWritable.read_put (h : tree.IsWritable path names) (octets : List UInt8) :
    (tree.put names octets).read path = .ok octets := by
  have hentry : FileTree.entry? (tree.put names octets) (.inside names) =
      some (.file octets) := by
    rw [entry?_inside, isDirectory_put_self h.no_directory, find?_put, if_pos rfl]
    rfl
  rw [read, locate_put h.no_directory h.locate_eq]
  change (tree.put names octets).readAt (.inside names) = _
  rw [readAt, hentry]

theorem readAt_eq_ok_iff :
    tree.readAt place = .ok octets ↔ tree.entry? place = some (.file octets) := by
  unfold readAt
  split <;> simp [*]

theorem read_eq_ok_iff :
    tree.read path = .ok octets ↔
      ∃ place, tree.locate path = .ok place ∧ tree.entry? place = some (.file octets) := by
  rw [read, Attempt.bind_eq_ok_iff]
  exact exists_congr fun place => and_congr_right fun _ => readAt_eq_ok_iff

theorem IsWritable.read_eq (h : tree.IsWritable path names)
    (hfind : tree.find? names = some (.file octets)) : tree.read path = .ok octets := by
  refine read_eq_ok_iff.mpr ⟨.inside names, h.locate_eq, ?_⟩
  rw [entry?_inside, h.no_directory, hfind]
  rfl

theorem ne_nil_of_read (hplace : tree.isDirectory tree.workingDirectory = true)
    (h : tree.read path = .ok octets) : path.parts ≠ [] := by
  intro hparts
  obtain ⟨place, hlocate, hentry⟩ := read_eq_ok_iff.mp h
  obtain ⟨-, -, hfollow⟩ := locate_eq_ok_iff.mp hlocate
  rw [hparts, follow, Except.ok.injEq] at hfollow
  have hdirectory : tree.entry? (tree.start path) = some .directory := by
    rw [start]
    split
    · exact entry?_inside_eq_directory_iff.mpr hplace
    split
    · exact entry?_inside_eq_directory_iff.mpr (isDirectory_iff.mpr (.inl rfl))
    · rfl
  cases (hfollow ▸ hdirectory).symm.trans hentry

/-- Trees in which every path leads to the same place. -/
structure SameDirectories (tree after : FileTree) : Prop where
  home_eq : after.home = tree.home
  workingDirectory_eq : after.workingDirectory = tree.workingDirectory
  isDirectory_eq : ∀ names, after.isDirectory names = tree.isDirectory names

namespace SameDirectories

theorem refl (tree : FileTree) : SameDirectories tree tree :=
  ⟨rfl, rfl, fun _ => rfl⟩

theorem symm (h : SameDirectories tree after) : SameDirectories after tree :=
  ⟨h.home_eq.symm, h.workingDirectory_eq.symm, fun names => (h.isDirectory_eq names).symm⟩

theorem trans {last : FileTree} (h : SameDirectories tree after)
    (hlast : SameDirectories after last) : SameDirectories tree last :=
  ⟨hlast.home_eq.trans h.home_eq, hlast.workingDirectory_eq.trans h.workingDirectory_eq,
    fun names => (hlast.isDirectory_eq names).trans (h.isDirectory_eq names)⟩

theorem locate_eq_ok (h : SameDirectories tree after) (hlocate : tree.locate path = .ok place) :
    after.locate path = .ok place := by
  obtain ⟨hnull, hsize, hfollow⟩ := locate_eq_ok_iff.mp hlocate
  have hwhole : after.isWhole = tree.isWhole := by rw [isWhole, isWhole, h.home_eq]
  have hstart : after.start path = tree.start path := by
    simp only [start, hwhole, h.workingDirectory_eq]
  refine locate_eq_ok_iff.mpr ⟨hnull, hsize, ?_⟩
  rw [hstart]
  refine follow_mono hwhole (fun place hentry => ?_) hfollow
  cases place with
  | inside names =>
    rw [entry?_inside_eq_directory_iff] at hentry ⊢
    rw [h.isDirectory_eq, hentry]
  | outside names => cases names <;> exact hentry

theorem locate_eq_ok_iff (h : SameDirectories tree after) :
    after.locate path = .ok place ↔ tree.locate path = .ok place :=
  ⟨h.symm.locate_eq_ok, h.locate_eq_ok⟩

theorem isWritable_iff (h : SameDirectories tree after) :
    after.IsWritable path names ↔ tree.IsWritable path names := by
  refine ⟨fun hw => ⟨?_, ?_⟩, fun hw => ⟨?_, ?_⟩⟩
  · exact h.locate_eq_ok_iff.mp hw.locate_eq
  · rw [← h.isDirectory_eq, hw.no_directory]
  · exact h.locate_eq_ok_iff.mpr hw.locate_eq
  · rw [h.isDirectory_eq, hw.no_directory]

end SameDirectories

theorem isDirectory_of_isPrefix (h : tree.isDirectory names = true) (hbelow : other <+: names) :
    tree.isDirectory other = true := by
  by_cases heq : other = names
  · rwa [heq]
  refine isDirectory_iff.mpr ?_
  rcases isDirectory_iff.mp h with rfl | hfind | ⟨key, hkey, hnames, -⟩
  · exact .inl (List.prefix_nil.mp hbelow)
  · exact .inr (.inr ⟨names, mem_keys_of_find? hfind, hbelow, Ne.symm heq⟩)
  · refine .inr (.inr ⟨key, hkey, hbelow.trans hnames, ?_⟩)
    rintro rfl
    exact heq (hbelow.eq_of_length_le hnames.length_le)

theorem isDirectory_dropLast (h : tree.isDirectory names = true) :
    tree.isDirectory names.dropLast = true :=
  isDirectory_of_isPrefix h (List.dropLast_prefix names)

theorem isDirectory_dropLast_of_enter {step : String} (hentry : tree.entry? place = some .directory)
    (h : tree.enter place step = .inside names) : tree.isDirectory names.dropLast = true := by
  unfold enter at h
  split at h
  · split at h
    · split at h
      · cases h
        exact entry?_inside_eq_directory_iff.mp hentry
      · cases h
    · cases h
      exact isDirectory_dropLast (isDirectory_dropLast (entry?_inside_eq_directory_iff.mp hentry))
    · cases h
  · split at h
    · cases h
      rw [List.dropLast_concat]
      exact entry?_inside_eq_directory_iff.mp hentry
    · cases h

theorem isDirectory_dropLast_of_follow {steps : List String} (hsteps : steps ≠ [])
    (h : tree.follow place steps = .ok (.inside names)) :
    tree.isDirectory names.dropLast = true := by
  induction steps generalizing place with
  | nil => exact absurd rfl hsteps
  | cons step steps ih =>
    obtain ⟨hentry, -, hrest⟩ := follow_cons_eq_ok_iff.mp h
    cases steps with
    | nil => exact isDirectory_dropLast_of_enter hentry (Except.ok.inj hrest)
    | cons next steps => exact ih (List.cons_ne_nil _ _) hrest

theorem IsWritable.isDirectory_dropLast (h : tree.IsWritable path names)
    (hparts : path.parts ≠ []) : tree.isDirectory names.dropLast = true :=
  isDirectory_dropLast_of_follow hparts (locate_eq_ok_iff.mp h.locate_eq).2.2

theorem isDirectory_put_eq (hnot : tree.isDirectory names = false)
    (hparent : tree.isDirectory names.dropLast = true) (other : List String) :
    (tree.put names octets).isDirectory other = tree.isDirectory other := by
  refine Bool.eq_iff_iff.mpr ⟨fun h => ?_, isDirectory_put hnot⟩
  have hne : other ≠ names := by
    rintro rfl
    rw [isDirectory_put_self hnot] at h
    cases h
  rw [isDirectory_iff, find?_put, if_neg hne, keys_put] at h
  rcases h with hnil | hfind | ⟨key, hkey, hbelow, hkeyne⟩
  · exact isDirectory_iff.mpr (.inl hnil)
  · exact isDirectory_iff.mpr (.inr (.inl hfind))
  · by_cases hold : key ∈ tree.keys
    · exact isDirectory_iff.mpr (.inr (.inr ⟨key, hold, hbelow, hkeyne⟩))
    · have hnew : key = names := by
        split at hkey
        · exact absurd hkey hold
        · exact List.mem_singleton.mp ((List.mem_append.mp hkey).resolve_left hold)
      rw [hnew, ← List.dropLast_concat_getLast (ne_nil_of_isDirectory_eq_false hnot),
        List.prefix_concat_iff, List.dropLast_concat_getLast] at hbelow
      exact isDirectory_of_isPrefix hparent (hbelow.resolve_left hne)

theorem IsWritable.sameDirectories_put (h : tree.IsWritable path names) (hparts : path.parts ≠ [])
    (octets : List UInt8) : SameDirectories tree (tree.put names octets) :=
  ⟨home_put tree names octets, workingDirectory_put tree names octets,
    isDirectory_put_eq h.no_directory (h.isDirectory_dropLast hparts)⟩

theorem IsWritable.read_put_eq_ok_iff {target : FilePath} {read : List UInt8}
    (h : tree.IsWritable path names) (hparts : path.parts ≠ [])
    (hne : tree.locate target ≠ .ok (.inside names)) :
    (tree.put names octets).read target = .ok read ↔ tree.read target = .ok read := by
  have hsame := h.sameDirectories_put hparts octets
  simp only [read_eq_ok_iff, hsame.locate_eq_ok_iff]
  refine exists_congr fun place => and_congr_right fun hlocate => ?_
  cases place with
  | inside others =>
    have hother : others ≠ names := fun he => hne (he ▸ hlocate)
    rw [entry?_inside, entry?_inside, hsame.isDirectory_eq, find?_put, if_neg hother]
  | outside others => cases others <;> exact Iff.rfl

end Linewise.FileTree
