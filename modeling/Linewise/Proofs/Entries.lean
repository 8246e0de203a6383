import Linewise.Entries
import Mathlib.Data.List.Induction
import Mathlib.Data.List.Nodup
import Mathlib.Tactic.Tauto

/-! # Laws of entries

Writing entries keeps every key single, adds nothing but the entries that are written, and gives a
list back when its keys are single already.
-/

namespace Linewise.Entries

variable {α : Type} {key : String} {value : α} {e : String × α}
  {base entries new : List (String × α)}

theorem mem_of_mem_put (h : e ∈ put key value entries) : e = (key, value) ∨ e ∈ entries := by
  induction entries with
  | nil => exact .inl (List.mem_singleton.mp h)
  | cons first rest ih =>
    by_cases hkey : first.1 = key
    · rw [put, if_pos hkey] at h
      exact (List.mem_cons.mp h).imp_right (List.mem_cons_of_mem _)
    · rw [put, if_neg hkey] at h
      rcases List.mem_cons.mp h with rfl | h
      · exact .inr List.mem_cons_self
      · exact (ih h).imp_right (List.mem_cons_of_mem _)

theorem putAll_cons (base : Entries α) (e : String × α) (new : List (String × α)) :
    putAll base (e :: new) = putAll (put e.1 e.2 base) new := rfl

theorem putAll_append (base : Entries α) (new more : List (String × α)) :
    putAll base (new ++ more) = putAll (putAll base new) more :=
  List.foldl_append

theorem mem_of_mem_putAll (h : e ∈ putAll base new) : e ∈ base ∨ e ∈ new := by
  induction new generalizing base with
  | nil => exact .inl h
  | cons first rest ih =>
    rw [putAll_cons] at h
    rcases ih h with hput | hrest
    · rcases mem_of_mem_put hput with rfl | hbase
      · exact .inr List.mem_cons_self
      · exact .inl hbase
    · exact .inr (List.mem_cons_of_mem _ hrest)

theorem mem_of_mem_ofList (h : e ∈ ofList entries) : e ∈ entries :=
  (mem_of_mem_putAll h).resolve_left List.not_mem_nil

theorem mem_of_get?_eq_some (h : get? key entries = some value) : (key, value) ∈ entries := by
  induction entries with
  | nil => cases h
  | cons first rest ih =>
    by_cases hkey : first.1 = key
    · rw [get?, if_pos hkey, Option.some.injEq] at h
      rw [← hkey, ← h]
      exact List.mem_cons_self
    · rw [get?, if_neg hkey] at h
      exact List.mem_cons_of_mem _ (ih h)

theorem put_of_not_mem (h : key ∉ keys entries) :
    put key value entries = entries ++ [(key, value)] := by
  induction entries with
  | nil => rfl
  | cons first rest ih =>
    simp only [keys, List.map_cons, List.mem_cons, not_or] at h
    rw [put, if_neg (Ne.symm h.1), ih h.2, List.cons_append]

theorem keys_put_of_mem (h : key ∈ keys entries) : keys (put key value entries) = keys entries := by
  induction entries with
  | nil => cases h
  | cons first rest ih =>
    by_cases hkey : first.1 = key
    · rw [put, if_pos hkey, ← hkey]
      rfl
    · have hrest := (List.mem_cons.mp h).resolve_left (Ne.symm hkey)
      rw [put, if_neg hkey, keys, List.map_cons, ← keys, ih hrest]
      rfl

theorem nodup_keys_put (h : (keys entries).Nodup) : (keys (put key value entries)).Nodup := by
  by_cases hkey : key ∈ keys entries
  · rwa [keys_put_of_mem hkey]
  · rw [put_of_not_mem hkey, keys, List.map_append, List.map_singleton, ← List.concat_eq_append]
    exact List.Nodup.concat hkey h

theorem nodup_keys_putAll (h : (keys base).Nodup) : (keys (putAll base new)).Nodup := by
  induction new generalizing base with
  | nil => exact h
  | cons first rest ih => exact ih (nodup_keys_put h)

theorem nodup_keys_ofList (entries : List (String × α)) : (keys (ofList entries)).Nodup :=
  nodup_keys_putAll List.nodup_nil

theorem mem_put_iff (h : (keys entries).Nodup) :
    e ∈ put key value entries ↔ e = (key, value) ∨ e ∈ entries ∧ e.1 ≠ key := by
  induction entries with
  | nil => simp [put]
  | cons first rest ih =>
    obtain ⟨k, v⟩ := first
    obtain ⟨hfirst, hrest⟩ := List.nodup_cons.mp h
    by_cases hkey : k = key
    · have hmem : e ∈ rest → e.1 ≠ key := fun he hekey =>
        hfirst (List.mem_map.mpr ⟨e, he, hekey.trans hkey.symm⟩)
      have hhead : e = (k, v) → e.1 = key := fun he => he ▸ hkey
      rw [put, if_pos hkey, List.mem_cons, List.mem_cons]
      tauto
    · have hhead : e = (k, v) → e.1 ≠ key := fun he => he ▸ hkey
      rw [put, if_neg hkey, List.mem_cons, List.mem_cons, ih hrest]
      tauto

theorem ofList_concat (entries : List (String × α)) (e : String × α) :
    ofList (entries ++ [e]) = put e.1 e.2 (ofList entries) :=
  putAll_append [] entries [e]

/-- The entries of a map are those that no later entry of their key follows. -/
theorem mem_ofList_iff :
    e ∈ ofList entries ↔
      ∃ before after, entries = before ++ e :: after ∧ e.1 ∉ keys after := by
  induction entries using List.reverseRecOn with
  | nil => simp [ofList, putAll]
  | append_singleton entries last ih =>
    rw [ofList_concat, mem_put_iff (nodup_keys_ofList entries), ih]
    constructor
    · rintro (rfl | ⟨⟨before, after, rfl, hafter⟩, hne⟩)
      · exact ⟨entries, [], rfl, List.not_mem_nil⟩
      · refine ⟨before, after ++ [last], by simp, ?_⟩
        simpa [keys, hne] using hafter
    · rintro ⟨before, after, heq, hafter⟩
      rcases List.eq_nil_or_concat after with rfl | ⟨after, e', rfl⟩
      · exact .inl (List.cons.inj (List.append_inj' heq rfl).2).1.symm
      · rw [List.concat_eq_append] at heq hafter
        rw [← List.cons_append, ← List.append_assoc] at heq
        obtain ⟨rfl, hlast⟩ := List.append_inj' heq rfl
        obtain rfl := (List.cons.inj hlast).1
        simp only [keys, List.map_append, List.map_singleton, List.mem_append, List.mem_singleton,
          not_or] at hafter
        exact .inr ⟨⟨before, after, rfl, hafter.1⟩, hafter.2⟩

theorem mem_keys_drop_iff {k : Nat} :
    key ∈ keys (entries.drop k) ↔ ∃ j value, k ≤ j ∧ entries[j]? = some (key, value) := by
  constructor
  · intro h
    obtain ⟨⟨key, value⟩, hmem, rfl⟩ := List.mem_map.mp h
    obtain ⟨j, hj⟩ := List.mem_iff_getElem?.mp hmem
    exact ⟨k + j, value, Nat.le_add_right k j, by rwa [← List.getElem?_drop]⟩
  · rintro ⟨j, value, hj, hvalue⟩
    refine List.mem_map.mpr ⟨(key, value), List.mem_iff_getElem?.mpr ⟨j - k, ?_⟩, rfl⟩
    rwa [List.getElem?_drop, Nat.add_sub_of_le hj]

theorem mem_ofList_iff_getElem? :
    (key, value) ∈ ofList entries ↔ ∃ i, entries[i]? = some (key, value) ∧
      ∀ (j : Nat) later, i < j → entries[j]? ≠ some (key, later) := by
  have hlater (i : Nat) : key ∉ keys (entries.drop (i + 1)) ↔
      ∀ (j : Nat) later, i < j → entries[j]? ≠ some (key, later) := by
    simp only [mem_keys_drop_iff, not_exists, not_and, Nat.succ_le_iff, ne_eq]
  rw [mem_ofList_iff]
  constructor
  · rintro ⟨before, after, heq, hafter⟩
    refine ⟨before.length, by simp [heq], (hlater _).mp ?_⟩
    simpa [heq] using hafter
  · rintro ⟨i, hi, hafter⟩
    obtain ⟨hlt, hget⟩ := List.getElem?_eq_some_iff.mp hi
    refine ⟨entries.take i, entries.drop (i + 1), ?_, (hlater i).mpr hafter⟩
    rw [← hget, ← List.drop_eq_getElem_cons hlt, List.take_append_drop]

theorem putAll_of_nodup (h : (keys (base ++ new)).Nodup) : putAll base new = base ++ new := by
  induction new generalizing base with
  | nil => rw [List.append_nil]; rfl
  | cons first rest ih =>
    have hfirst : first.1 ∉ keys base := by
      rw [keys, List.map_append, List.map_cons] at h
      exact fun hmem => (List.nodup_append.mp h).2.2 _ hmem _ List.mem_cons_self rfl
    rw [putAll_cons, put_of_not_mem hfirst, ih (by simpa using h), List.append_assoc]
    rfl

theorem ofList_of_nodup (h : (keys entries).Nodup) : ofList entries = entries := by
  rw [ofList, putAll_of_nodup (by simpa using h), List.nil_append]

theorem mem_keys_put_iff {other : String} :
    key ∈ keys (put other value entries) ↔ key = other ∨ key ∈ keys entries := by
  by_cases hother : other ∈ keys entries
  · rw [keys_put_of_mem hother]
    exact (or_iff_right_of_imp fun heq => heq ▸ hother).symm
  · rw [put_of_not_mem hother, keys, List.map_append, List.mem_append, List.map_singleton,
      List.mem_singleton, or_comm]
    rfl

/-- A key that is written again keeps the place of its first entry. -/
theorem keys_ofList (entries : List (String × α)) :
    keys (ofList entries) = (keys entries).eraseDups := by
  induction entries using List.reverseRecOn with
  | nil => rfl
  | append_singleton entries last ih =>
    have hkeys : keys (entries ++ [last]) = keys entries ++ [last.1] := by simp [keys]
    have hmem : last.1 ∈ keys (ofList entries) ↔ last.1 ∈ keys entries := by
      rw [ih, List.mem_eraseDups]
    rw [ofList_concat, hkeys, List.eraseDups_append, ← ih]
    by_cases hlast : last.1 ∈ keys entries
    · rw [keys_put_of_mem (hmem.mpr hlast)]
      simp [List.removeAll, hlast]
    · have hkept : [last.1].removeAll (keys entries) = [last.1] := by simp [List.removeAll, hlast]
      rw [put_of_not_mem (mt hmem.mp hlast), hkept, keys, List.map_append]
      rfl

theorem put_put (key : String) (old value : α) (entries : Entries α) :
    put key value (put key old entries) = put key value entries := by
  induction entries with
  | nil => simp [put]
  | cons first rest ih => grind [put]

theorem put_comm {other : String} {given : α} (hne : other ≠ key) (h : key ∈ keys entries) :
    put key value (put other given entries) = put other given (put key value entries) := by
  induction entries with
  | nil => cases h
  | cons first rest ih => grind [put, keys]

theorem put_putAll (h : key ∈ keys base) (hnew : key ∉ keys new) :
    put key value (putAll base new) = putAll (put key value base) new := by
  induction new generalizing base with
  | nil => rfl
  | cons first rest ih =>
    simp only [keys, List.map_cons, List.mem_cons, not_or] at hnew
    rw [putAll_cons, putAll_cons, ih (mem_keys_put_iff.mpr (.inr h)) hnew.2,
      put_comm (Ne.symm hnew.1) h]

theorem putAll_put (h : (keys new).Nodup) :
    putAll base (put key value new) = put key value (putAll base new) := by
  induction new generalizing base with
  | nil => rfl
  | cons first rest ih =>
    obtain ⟨hfirst, hrest⟩ := List.nodup_cons.mp h
    by_cases hkey : first.1 = key
    · subst hkey
      rw [put, if_pos rfl, putAll_cons, putAll_cons,
        put_putAll (mem_keys_put_iff.mpr (.inl rfl)) hfirst, put_put]
    · rw [put, if_neg hkey, putAll_cons, putAll_cons, ih hrest]

theorem putAll_ofList (base : Entries α) (new : List (String × α)) :
    putAll base (ofList new) = putAll base new := by
  induction new using List.reverseRecOn with
  | nil => rfl
  | append_singleton new last ih =>
    rw [ofList_concat, putAll_put (nodup_keys_ofList new), ih, putAll_append]
    rfl

/-- Entries laid over others: each key keeps its place and takes its new value, if it has one, and
the entries with other keys follow. -/
def overlay : Entries α → Entries α → Entries α
  | [], new => new
  | (k, v) :: base, new => (k, (get? k new).getD v) :: overlay base (new.filter (·.1 ≠ k))

theorem get?_of_not_mem (h : key ∉ keys entries) : get? key entries = none := by
  induction entries with
  | nil => rfl
  | cons first rest ih =>
    simp only [keys, List.map_cons, List.mem_cons, not_or] at h
    rw [get?, if_neg (Ne.symm h.1), ih h.2]

/-- Writing entries with different keys writes the first entry of the base and, apart from it, those
that have other keys. -/
theorem putAll_cons_base (h : (keys new).Nodup) :
    putAll ((key, value) :: base) new =
      (key, (get? key new).getD value) :: putAll base (new.filter (·.1 ≠ key)) := by
  induction new generalizing value base with
  | nil => rfl
  | cons first rest ih =>
    obtain ⟨k, v⟩ := first
    obtain ⟨hfirst, hrest⟩ := List.nodup_cons.mp h
    by_cases hkey : k = key
    · subst hkey
      have hput : put k v ((k, value) :: base) = (k, v) :: base := if_pos rfl
      rw [putAll_cons, hput, ih hrest, get?, if_pos rfl, List.filter_cons_of_neg (by simp),
        get?_of_not_mem hfirst]
      rfl
    · have hput : put k v ((key, value) :: base) = (key, value) :: put k v base :=
        if_neg (Ne.symm hkey)
      rw [putAll_cons, hput, ih hrest, get?, if_neg hkey,
        List.filter_cons_of_pos (by simpa using hkey), putAll_cons]

theorem putAll_eq_overlay (h : (keys new).Nodup) : putAll base new = overlay base new := by
  induction base generalizing new with
  | nil => exact ofList_of_nodup h
  | cons first base ih =>
    have hfilter : (keys (new.filter (·.1 ≠ first.1))).Nodup :=
      h.sublist (List.filter_sublist.map Prod.fst)
    rw [putAll_cons_base h, ih hfilter, overlay]

theorem get?_putAll (h : (keys new).Nodup) :
    get? key (putAll base new) = (get? key new).or (get? key base) := by
  induction new generalizing base with
  | nil => rfl
  | cons first rest ih =>
    obtain ⟨hfirst, hrest⟩ := List.nodup_cons.mp h
    rw [putAll_cons, ih hrest, get?_put, get?]
    by_cases hkey : first.1 = key
    · rw [if_pos hkey, if_pos hkey, get?_of_not_mem (hkey ▸ hfirst)]
      rfl
    · rw [if_neg hkey, if_neg hkey]

def mapValues {β : Type} (f : α → β) (entries : Entries α) : Entries β :=
  entries.map fun e => (e.1, f e.2)

variable {β : Type}

theorem keys_mapValues (f : α → β) (entries : Entries α) :
    keys (mapValues f entries) = keys entries := by
  rw [mapValues, keys, List.map_map]
  rfl

theorem mapValues_put (f : α → β) (key : String) (value : α) (entries : Entries α) :
    mapValues f (put key value entries) = put key (f value) (mapValues f entries) := by
  induction entries with
  | nil => rfl
  | cons first rest ih =>
    by_cases hkey : first.1 = key
    · simp only [put, mapValues, List.map_cons, if_pos hkey]
    · simp only [put, mapValues, List.map_cons, if_neg hkey] at ih ⊢
      rw [ih]

theorem mapValues_putAll (f : α → β) (base new : Entries α) :
    mapValues f (putAll base new) = putAll (mapValues f base) (mapValues f new) := by
  induction new generalizing base with
  | nil => rfl
  | cons first rest ih =>
    rw [putAll_cons, ih, mapValues_put]
    rfl

end Linewise.Entries
