import Linewise.Proofs.Files
import Mathlib.Data.List.Induction

/-! # Steps that lead downwards

The place of a path is reached by steps that lead downwards only. Such steps are followed as long as
they come from directories and are not too long, and the file system refuses them only for a name
that is too long.
-/

namespace Linewise

def Place.IsDown : Place → Prop
  | .inside names => ".." ∉ names
  | .outside names => ".." ∉ names

namespace FileTree

variable {tree : FileTree} {place target : Place} {octets : List UInt8}
  {path : FilePath} {names before steps : List String} {step : String}

theorem isDown_enter (h : place.IsDown) (step : String) : (tree.enter place step).IsDown := by
  have hlast {names : List String} (h : ".." ∉ names) : ".." ∉ names.dropLast :=
    fun hmem => h ((List.dropLast_sublist names).mem hmem)
  unfold enter
  split
  · split
    · split
      · exact List.not_mem_nil
      · exact List.not_mem_nil
    · exact hlast h
    · exact hlast h
  · next hstep =>
    have hadd {names : List String} (h : ".." ∉ names) : ".." ∉ names ++ [step] := by
      simp [h, Ne.symm hstep]
    split
    · exact hadd h
    · exact hadd h

theorem isDown_foldl_enter (h : place.IsDown) (steps : List String) :
    (steps.foldl tree.enter place).IsDown := by
  induction steps generalizing place with
  | nil => exact h
  | cons step steps ih => exact ih (isDown_enter h step)

theorem isDown_resolve (hdown : ".." ∉ tree.workingDirectory) (path : FilePath) :
    (tree.resolve path).IsDown := by
  refine isDown_foldl_enter ?_ path.parts
  unfold start
  split
  · exact hdown
  · split
    · exact List.not_mem_nil
    · exact List.not_mem_nil

theorem foldl_enter_of_follow (h : tree.follow place steps = .ok target) :
    steps.foldl tree.enter place = target := by
  induction steps generalizing place with
  | nil => exact Except.ok.inj h
  | cons step steps ih => exact ih (follow_cons_eq_ok_iff.mp h).2.2

theorem resolve_of_locate (h : tree.locate path = .ok target) : tree.resolve path = target :=
  foldl_enter_of_follow (locate_eq_ok_iff.mp h).2.2

theorem resolve_eq_enter {name : String} (h : path.name? = some name) :
    tree.resolve path = tree.enter (tree.resolve path.parent) name := by
  obtain ⟨before, hparts⟩ := List.getLast?_eq_some_iff.mp h
  rw [resolve, resolve, FilePath.parent, hparts, List.dropLast_concat, List.foldl_append]
  rfl

theorem exists_of_enter_eq_inside (hstep : step ≠ "..")
    (h : tree.enter place step = .inside names) :
    ∃ directory, place = .inside directory ∧ names = directory ++ [step] := by
  unfold enter at h
  rw [if_neg hstep] at h
  cases place with
  | inside directory => exact ⟨directory, rfl, (Place.inside.inj h).symm⟩
  | outside directory => cases h

theorem enter_inside_of_ne (hstep : step ≠ "..") :
    tree.enter (.inside before) step = .inside (before ++ [step]) :=
  if_neg hstep

/-- What is true of every step, together with the steps before it. -/
theorem forall_concat_prefix_cons_iff {property : List String → String → Prop} :
    (∀ way last, way ++ [last] <+: step :: steps → property way last) ↔
      property [] step ∧ ∀ way last, way ++ [last] <+: steps → property (step :: way) last := by
  constructor
  · intro h
    exact ⟨h [] step (List.cons_prefix_cons.mpr ⟨rfl, List.nil_prefix⟩),
      fun way last hway => h (step :: way) last (List.cons_prefix_cons.mpr ⟨rfl, hway⟩)⟩
  · rintro ⟨hfirst, hrest⟩ way last hway
    cases way with
    | nil =>
      obtain ⟨rfl, -⟩ := List.cons_prefix_cons.mp hway
      exact hfirst
    | cons first way =>
      obtain ⟨rfl, htail⟩ := List.cons_prefix_cons.mp hway
      exact hrest way last htail

/-- Steps that lead downwards come from directories and are not too long. -/
theorem follow_inside_eq_ok_iff (hdown : ".." ∉ steps) :
    tree.follow (.inside before) steps = .ok target ↔ target = .inside (before ++ steps) ∧
      ∀ way last, way ++ [last] <+: steps →
        tree.isDirectory (before ++ way) = true ∧ last.utf8ByteSize ≤ maxNameSize := by
  induction steps generalizing before with
  | nil =>
    rw [follow, Except.ok.injEq, List.append_nil, eq_comm]
    exact (and_iff_left fun way step h => absurd (List.prefix_nil.mp h) (by simp)).symm
  | cons step steps ih =>
    obtain ⟨hstep, hrest⟩ := not_or.mp (mt List.mem_cons.mpr hdown)
    rw [follow_cons_eq_ok_iff, entry?_inside_eq_directory_iff, enter_inside_of_ne (Ne.symm hstep),
      ih hrest, forall_concat_prefix_cons_iff, List.append_nil]
    simp only [← List.append_cons]
    tauto

theorem follow_cons_eq_nameTooLong_iff :
    tree.follow place (step :: steps) = .error .nameTooLong ↔
      tree.entry? place = some .directory ∧ (maxNameSize < step.utf8ByteSize ∨
        tree.follow (tree.enter place step) steps = .error .nameTooLong) := by
  cases hentry : tree.entry? place with
  | none => simp [follow, hentry]
  | some entry =>
    cases entry with
    | file octets => simp [follow, hentry]
    | directory =>
      by_cases hsize : maxNameSize < step.utf8ByteSize
      · simp [follow, hentry, hsize]
      · simp [follow, hentry, hsize]

theorem follow_inside_ne_nameTooLong_iff (hdown : ".." ∉ steps) :
    tree.follow (.inside before) steps ≠ .error .nameTooLong ↔
      ∀ way last, way ++ [last] <+: steps → tree.isDirectory (before ++ way) = true →
        last.utf8ByteSize ≤ maxNameSize := by
  induction steps generalizing before with
  | nil => simp [follow]
  | cons step steps ih =>
    obtain ⟨hstep, hrest⟩ := not_or.mp (mt List.mem_cons.mpr hdown)
    have habove (way : List String) (h : tree.isDirectory (before ++ step :: way) = true) :
        tree.isDirectory before = true :=
      isDirectory_of_isPrefix h (List.prefix_append before _)
    rw [Ne, follow_cons_eq_nameTooLong_iff, entry?_inside_eq_directory_iff,
      enter_inside_of_ne (Ne.symm hstep), not_and, not_or, Nat.not_lt, ← Ne, ih hrest,
      forall_concat_prefix_cons_iff, List.append_nil]
    simp only [← List.append_cons]
    constructor
    · intro h
      exact ⟨fun hbefore => (h hbefore).1, fun way last hway hdirectory =>
        (h (habove way hdirectory)).2 way last hway hdirectory⟩
    · rintro ⟨hfirst, hlater⟩ hbefore
      exact ⟨hfirst hbefore, hlater⟩

theorem isDirectory_of_file (hfile : tree.entry? (.inside names) = some (.file octets))
    (habove : before <+: names) (hne : before ≠ names) : tree.isDirectory before = true := by
  rw [entry?_inside] at hfile
  split at hfile
  · cases hfile
  · exact isDirectory_iff.mpr (.inr (.inr ⟨names, mem_keys_of_find? hfile, habove, Ne.symm hne⟩))

theorem follow_of_file (hdown : ".." ∉ names)
    (hfile : tree.entry? (.inside names) = some (.file octets))
    (hsize : tree.follow (.inside []) names ≠ .error .nameTooLong) :
    tree.follow (.inside []) names = .ok (.inside names) := by
  refine (follow_inside_eq_ok_iff hdown).mpr ⟨rfl, fun way last hway => ?_⟩
  have hdirectory : tree.isDirectory way = true := by
    refine isDirectory_of_file hfile ((List.prefix_append way [last]).trans hway) ?_
    rintro rfl
    exact absurd hway.length_le (by simp)
  exact ⟨hdirectory, (follow_inside_ne_nameTooLong_iff hdown).mp hsize way last hway hdirectory⟩

theorem readAt_ne_nameTooLong : tree.readAt place ≠ .error .nameTooLong := by
  unfold readAt
  split <;> simp

/-- A place that may be looked for: its full name is not too long, and neither is a step of it that
leads on from a directory. -/
structure Admits (tree : FileTree) (names : List String) : Prop where
  name_short : (tree.fullName names).utf8ByteSize < maxPathSize
  steps_short : ∀ way last, way ++ [last] <+: names → tree.isDirectory way = true →
    last.utf8ByteSize ≤ maxNameSize

theorem admits_of_short (hname : (tree.fullName names).utf8ByteSize < maxPathSize)
    (hsteps : ∀ step ∈ names, step.utf8ByteSize ≤ maxNameSize) : tree.Admits names :=
  ⟨hname, fun _ last hway _ =>
    hsteps last (hway.mem (List.mem_append_right _ List.mem_cons_self))⟩

theorem intercalate_concat (sep first : String) (names : List String) (step : String) :
    sep.intercalate (first :: (names ++ [step])) =
      sep.intercalate (first :: names) ++ sep ++ step := by
  induction names generalizing first with
  | nil => simp
  | cons name names ih =>
    rw [List.cons_append, String.intercalate_cons_cons, ih, String.intercalate_cons_cons]
    simp only [String.append_assoc]

theorem utf8ByteSize_fullName_concat (names : List String) (step : String) :
    (tree.fullName (names ++ [step])).utf8ByteSize =
      (tree.fullName names).utf8ByteSize + 1 + step.utf8ByteSize := by
  rw [fullName, intercalate_concat, String.utf8ByteSize_append, String.utf8ByteSize_append]
  rfl

theorem Admits.of_concat {name : String} (hname : name.utf8ByteSize ≤ maxNameSize)
    (h : tree.Admits (names ++ [step] ++ [name])) : tree.Admits (names ++ [name]) := by
  refine ⟨?_, fun way last hway hdirectory => ?_⟩
  · have hsize := h.name_short
    rw [utf8ByteSize_fullName_concat] at hsize ⊢
    rw [utf8ByteSize_fullName_concat] at hsize
    omega
  · rcases List.prefix_concat_iff.mp hway with heq | hway
    · obtain rfl : last = name := List.singleton_injective (List.append_inj' heq rfl).2
      exact hname
    · refine h.steps_short way last ?_ hdirectory
      rw [List.append_assoc]
      exact hway.trans (List.prefix_append names _)

theorem ancestors_concat (names : List String) (step : String) :
    ancestors (names ++ [step]) = (names ++ [step]) :: ancestors names := by
  have hbelow : (List.range (names.length + 1)).map (names ++ [step]).take =
      (List.range (names.length + 1)).map names.take :=
    List.map_congr_left fun k hk =>
      List.take_append_of_le_length (Nat.le_of_lt_succ (List.mem_range.mp hk))
  have hwhole : (names ++ [step]).take (names.length + 1) = names ++ [step] :=
    List.take_of_length_le (by simp)
  rw [ancestors, List.length_append, List.length_singleton, List.range_succ, List.map_append,
    List.reverse_append, hbelow, List.map_singleton, hwhole]
  rfl

theorem exists_ancestors_eq_cons (names : List String) :
    ∃ rest, ancestors names = names :: rest := by
  cases names using List.reverseRecOn with
  | nil => exact ⟨[], rfl⟩
  | append_singleton before step => exact ⟨ancestors before, ancestors_concat before step⟩

end FileTree
end Linewise
