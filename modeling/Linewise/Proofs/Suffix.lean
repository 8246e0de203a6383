import Linewise.FilePath
import Linewise.Proofs.Lines
import Linewise.Settings

/-! # Suffixes

The suffix of settings that can be used is one for every path that has a name, and a path whose
suffix is replaced has no characters but its own and those of the suffix.
-/

namespace Linewise

namespace Settings

theorem of_normalizeExtension {given extension : String}
    (h : normalizeExtension given = .ok extension) :
    (∃ c ∈ Text.strip given.toList, c ≠ '.') ∧
      (∀ c ∈ Text.strip given.toList, c ≠ '/' ∧ c ≠ '\\') ∧
      extension.toList = if (Text.strip given.toList).head? = some '.' then Text.strip given.toList
        else '.' :: Text.strip given.toList := by
  rw [normalizeExtension] at h
  generalize Text.strip given.toList = stripped at h ⊢
  split at h
  · cases h
  next hdots =>
  split at h
  · cases h
  next hseparator =>
  have hplain : ∀ c ∈ stripped, c ≠ '/' ∧ c ≠ '\\' := by
    simp only [Bool.or_eq_true, List.contains_iff_mem, not_or] at hseparator
    exact fun c hc => ⟨fun heq => hseparator.1 (heq ▸ hc), fun heq => hseparator.2 (heq ▸ hc)⟩
  refine ⟨by simpa using hdots, hplain, ?_⟩
  split at h
  · next hhead =>
    cases h
    rw [String.toList_ofList, if_pos hhead]
  · next hhead =>
    cases h
    rw [String.toList_ofList, if_neg hhead]

/-- An extension as it is written: it begins with a dot, has more than dots and no separator, and
does not end in a blank. -/
structure IsExtension (extension : String) : Prop where
  head : extension.toList.head? = some '.'
  named : ∃ c ∈ extension.toList, c ≠ '.'
  separator : ∀ c ∈ extension.toList, c ≠ '/' ∧ c ≠ '\\'
  last : ∀ c ∈ extension.toList.getLast?, Text.isBlank c = false

theorem isExtension_of_normalizeExtension {given extension : String}
    (h : normalizeExtension given = .ok extension) : IsExtension extension := by
  obtain ⟨⟨c, hc, hdot⟩, hseparator, hextension⟩ := of_normalizeExtension h
  have hlast : ∀ c ∈ (Text.strip given.toList).getLast?, Text.isBlank c = false :=
    fun c => Text.not_isBlank_of_mem_getLast?_strip
  split at hextension
  · next hhead =>
    rw [← hextension] at hc hseparator hlast hhead
    exact ⟨hhead, ⟨c, hc, hdot⟩, hseparator, hlast⟩
  · have hne : Text.strip given.toList ≠ [] := List.ne_nil_of_mem hc
    refine ⟨by rw [hextension]; rfl, ⟨c, ?_, hdot⟩, ?_, ?_⟩
    · rw [hextension]
      exact List.mem_cons_of_mem _ hc
    · rw [hextension]
      exact List.forall_mem_cons.mpr ⟨by decide, hseparator⟩
    · rwa [hextension, List.getLast?_cons_of_ne_nil hne]

namespace IsExtension

variable {extension : String}

theorem strip_eq (h : IsExtension extension) : Text.strip extension.toList = extension.toList := by
  refine Text.strip_eq_self (fun c hc => ?_) h.last
  rw [h.head, Option.mem_some] at hc
  rw [← hc]
  decide

theorem normalizeExtension_eq (h : IsExtension extension) :
    normalizeExtension extension = .ok extension := by
  obtain ⟨c, hc, hdot⟩ := h.named
  have hdots : extension.toList.all (· == '.') = false :=
    List.all_eq_false.mpr ⟨c, hc, by simpa using hdot⟩
  have hslash : '/' ∉ extension.toList := fun hmem => (h.separator _ hmem).1 rfl
  have hbackslash : '\\' ∉ extension.toList := fun hmem => (h.separator _ hmem).2 rfl
  rw [normalizeExtension, h.strip_eq]
  simp [hdots, hslash, hbackslash, h.head]

theorem isSuffix (h : IsExtension extension) : FilePath.isSuffix extension = true := by
  have hslash : '/' ∉ extension.toList := fun hmem => (h.separator _ hmem).1 rfl
  have hlong : extension ≠ "." := by
    rintro rfl
    obtain ⟨c, hc, hdot⟩ := h.named
    exact hdot (by simpa using hc)
  simp [FilePath.isSuffix, hslash, h.head, hlong]

end IsExtension

end Settings

namespace FilePath

variable {path output : FilePath} {suffix : String}

theorem hasNull_eq_false_iff :
    path.hasNull = false ↔ ∀ part ∈ path.parts, '\x00' ∉ part.toList := by
  rw [hasNull, List.any_eq_false]
  simp

theorem mem_of_mem_stem {c : Char} {name : String} (h : c ∈ (stem name).toList) :
    c ∈ name.toList := by
  rw [stem] at h
  split at h
  · exact h
  · rw [String.toList_ofList] at h
    have hbefore := (List.dropLast_sublist _).mem h
    exact List.mem_reverse.mp ((List.dropWhile_sublist _).mem (List.mem_reverse.mp hbefore))

/-- A name and what stands in it before the suffix. The suffix begins at the last dot, unless this
is the first or the last character of the name. -/
inductive IsStem : String → String → Prop
  | dotless {name : String} (h : '.' ∉ name.toList) : IsStem name name
  | leading {name : String} {ending : List Char} (h : name.toList = '.' :: ending)
    (hlast : '.' ∉ ending) : IsStem name name
  | trailing {name : String} (h : name.toList.getLast? = some '.') : IsStem name name
  | cut {front ending : List Char} (hfront : front ≠ []) (hending : ending ≠ [])
    (hlast : '.' ∉ ending) : IsStem (String.ofList (front ++ '.' :: ending)) (String.ofList front)

theorem isStem_stem (name : String) : IsStem name (stem name) := by
  obtain ⟨ending, hending⟩ : ∃ ending, (name.toList.reverse.takeWhile (· ≠ '.')).reverse = ending :=
    ⟨_, rfl⟩
  obtain ⟨before, hbefore⟩ : ∃ before, (name.toList.reverse.dropWhile (· ≠ '.')).reverse = before :=
    ⟨_, rfl⟩
  have hname : name.toList = before ++ ending := by
    rw [← hbefore, ← hending, ← List.reverse_append, List.takeWhile_append_dropWhile,
      List.reverse_reverse]
  have hlast : '.' ∉ ending := by
    rw [← hending, List.mem_reverse]
    exact fun hmem => by simpa using List.mem_takeWhile_imp hmem
  rw [stem, hending, hbefore]
  cases hdots : name.toList.reverse.dropWhile (· ≠ '.') with
  | nil =>
    rw [hdots, List.reverse_nil] at hbefore
    rw [← hbefore, List.nil_append] at hname
    rw [if_pos (.inr (by simp [← hbefore]))]
    exact .dotless (hname ▸ hlast)
  | cons dot front =>
    have hdot : dot = '.' := by
      have hfirst := List.head?_dropWhile_not (· ≠ '.') name.toList.reverse
      rw [hdots] at hfirst
      simpa using hfirst
    rw [hdots, List.reverse_cons, hdot] at hbefore
    rw [← hbefore, List.append_assoc, List.singleton_append] at hname
    rw [← hbefore, List.dropLast_concat]
    split
    · next hwhole =>
      rcases hwhole with rfl | hshort
      · exact .trailing (by simp [hname])
      · have hfront : front = [] := by simpa using hshort
        exact .leading (by simpa [hfront] using hname) hlast
    · next hcut =>
      obtain ⟨hne, hlong⟩ := not_or.mp hcut
      rw [← String.ofList_toList (s := name), hname]
      exact .cut (by simpa using hlong) hne hlast

theorem withSuffix_eq_ok_iff :
    path.withSuffix suffix = .ok output ↔ isSuffix suffix = true ∧ ∃ name, path.name? = some name ∧
      output = { path with parts := path.parts.dropLast ++ [stem name ++ suffix] } := by
  unfold withSuffix
  split
  · split <;> simp [*, eq_comm]
  · simp [*]

theorem hasNull_withSuffix (hpath : path.hasNull = false) (hsuffix : '\x00' ∉ suffix.toList)
    (h : path.withSuffix suffix = .ok output) : output.hasNull = false := by
  obtain ⟨-, name, hname, rfl⟩ := withSuffix_eq_ok_iff.mp h
  rw [hasNull_eq_false_iff] at hpath ⊢
  intro part hpart
  rcases List.mem_append.mp hpart with hpart | hpart
  · exact hpath part ((List.dropLast_sublist _).mem hpart)
  · rw [List.mem_singleton.mp hpart, String.toList_append, List.mem_append, not_or]
    exact ⟨fun hnull => hpath name (List.mem_of_getLast? hname) (mem_of_mem_stem hnull), hsuffix⟩

end FilePath
end Linewise
