import Linewise.Token
import Mathlib.Data.List.Chain
import Mathlib.Data.List.TakeWhile

/-! # What the scan does with each lexeme

Blanks, word characters and the double quote are three disjoint classes. The scan passes over a
run of blanks, and it takes a lexeme off the front of a text whenever the lexeme is a string or
cannot be continued. The line number is only carried into faults.
-/

namespace Linewise.Token

def IsToken (t : String) : Prop :=
  IsWord t ∨ IsString t

def IsBlankRun (cs : List Char) : Prop :=
  ∀ c ∈ cs, Text.isBlank c = true

/-- A text that cannot continue a word: it is empty or begins with a character of no word. -/
def EndsWord (cs : List Char) : Prop :=
  ∀ c ∈ cs.head?, isWordChar c = false

theorem isWordChar_bounds {c : Char} (h : isWordChar c = true) :
    33 ≤ c.toNat ∧ c.toNat ≤ 126 := by
  simp only [isWordChar, Bool.or_eq_true] at h
  rcases h with h | h
  · unfold Char.isAlphanum Char.isAlpha Char.isUpper Char.isLower Char.isDigit at h
    simp only [Bool.or_eq_true, decide_eq_true_eq, Bool.and_eq_true, ge_iff_le,
      UInt32.le_iff_toNat_le] at h
    simp only [Char.toNat]
    rcases h with (h | h) | h <;> exact ⟨le_trans (by decide) h.1, le_trans h.2 (by decide)⟩
  · have hall : "!@#$%^&*()-=_+[]\x7b\x7d;:,.<>/?".toList.all
        (fun d => 33 ≤ d.toNat && d.toNat ≤ 126) = true := by decide
    simpa using List.all_eq_true.mp hall c (by simpa using h)

theorem isBlank_eq_false_of_isWordChar {c : Char} (h : isWordChar c = true) :
    Text.isBlank c = false := by
  have hc := isWordChar_bounds h
  simp only [Text.isBlank, Bool.or_eq_false_iff, Bool.and_eq_false_iff, decide_eq_false_iff_not,
    beq_eq_false_iff_ne]
  omega

theorem isWordChar_eq_false_of_isBlank {c : Char} (h : Text.isBlank c = true) :
    isWordChar c = false := by
  by_contra hc
  rw [isBlank_eq_false_of_isWordChar (by simpa using hc)] at h
  cases h

theorem isWordChar_quote : isWordChar '"' = false := by decide

theorem isBlank_quote : Text.isBlank '"' = false := by decide

theorem IsString.toList_ne_nil {t : String} (h : IsString t) : t.toList ≠ [] := by
  obtain ⟨inside, -, ht⟩ := h
  simp [ht]

theorem IsToken.toList_ne_nil {t : String} (h : IsToken t) : t.toList ≠ [] :=
  h.elim (fun hw => hw.1) IsString.toList_ne_nil

theorem IsWord.not_isString {t : String} (hw : IsWord t) : ¬ IsString t := by
  rintro ⟨inside, -, ht⟩
  have hq := hw.2 '"' (by simp [ht])
  rw [isWordChar_quote] at hq
  cases hq

theorem IsString.endsWord {t : String} (h : IsString t) (cs : List Char) :
    EndsWord (t.toList ++ cs) := by
  obtain ⟨inside, -, ht⟩ := h
  intro c hc
  simp only [ht, List.cons_append, List.head?_cons, Option.mem_some] at hc
  rw [← hc, isWordChar_quote]

theorem IsToken.head_not_blank {t : String} (h : IsToken t) {c : Char}
    (hc : c ∈ t.toList.head?) : Text.isBlank c = false := by
  rcases h with hw | ⟨inside, -, ht⟩
  · exact isBlank_eq_false_of_isWordChar (hw.2 c (List.mem_of_mem_head? hc))
  · simp only [ht, List.cons_append, List.head?_cons, Option.mem_some] at hc
    rw [← hc, isBlank_quote]

theorem IsToken.last_not_blank {t : String} (h : IsToken t) {c : Char}
    (hc : c ∈ t.toList.getLast?) : Text.isBlank c = false := by
  rcases h with hw | ⟨inside, -, ht⟩
  · exact isBlank_eq_false_of_isWordChar (hw.2 c (List.mem_of_mem_getLast? hc))
  · rw [ht, List.getLast?_append] at hc
    simp only [List.getLast?_singleton, Option.some_or, Option.mem_some] at hc
    rw [← hc, isBlank_quote]

theorem IsBlankRun.endsWord {cs : List Char} (h : IsBlankRun cs) (hne : cs ≠ [])
    (rest : List Char) : EndsWord (cs ++ rest) := by
  cases cs with
  | nil => exact absurd rfl hne
  | cons b bs =>
    intro c hc
    simp only [List.cons_append, List.head?_cons, Option.mem_some] at hc
    exact hc ▸ isWordChar_eq_false_of_isBlank (h b List.mem_cons_self)

theorem EndsWord.append {cs rest : List Char} (h : EndsWord cs) (hrest : EndsWord rest) :
    EndsWord (cs ++ rest) := by
  cases cs with
  | nil => exact hrest
  | cons c cs => exact h

theorem EndsWord.of_append {cs rest : List Char} (h : EndsWord (cs ++ rest)) : EndsWord cs := by
  cases cs with
  | nil => simp [EndsWord]
  | cons c cs => exact h

theorem IsBlankRun.filter_eq_nil {cs : List Char} (h : IsBlankRun cs) :
    cs.filter (fun c => !Text.isBlank c) = [] :=
  List.filter_eq_nil_iff.mpr fun c hc => by simp [h c hc]

theorem scan_nil (column : Nat) : scan column [] = .ok [] := by
  rw [scan]

theorem scan_blank {c : Char} (h : Text.isBlank c = true) (column : Nat) (cs : List Char) :
    scan column (c :: cs) = scan (column + 1) cs := by
  rw [scan, if_pos h]

theorem scan_blankRun {gap : List Char} (h : IsBlankRun gap) (column : Nat) (cs : List Char) :
    scan column (gap ++ cs) = scan (column + gap.length) cs := by
  induction gap generalizing column with
  | nil => rfl
  | cons b gap ih =>
    rw [List.cons_append, scan_blank (h b List.mem_cons_self),
      ih (fun c hc => h c (List.mem_cons_of_mem _ hc)), List.length_cons]
    congr 1
    omega

theorem takeWhile_append_of_endsWord {w cs : List Char} (hw : ∀ c ∈ w, isWordChar c = true)
    (hcs : EndsWord cs) : (w ++ cs).takeWhile isWordChar = w := by
  rw [List.takeWhile_append_of_pos hw]
  cases cs with
  | nil => simp
  | cons c cs => simp [hcs c rfl]

theorem dropWhile_append_of_endsWord {w cs : List Char} (hw : ∀ c ∈ w, isWordChar c = true)
    (hcs : EndsWord cs) : (w ++ cs).dropWhile isWordChar = cs := by
  rw [List.dropWhile_append_of_pos hw]
  cases cs with
  | nil => rfl
  | cons c cs => simp [hcs c rfl]

theorem endsWord_dropWhile (cs : List Char) : EndsWord (cs.dropWhile isWordChar) := by
  intro c hc
  have hnot := List.head?_dropWhile_not isWordChar cs
  rw [Option.mem_def.mp hc] at hnot
  exact hnot

theorem scan_word {w : List Char} (hne : w ≠ []) (hw : ∀ c ∈ w, isWordChar c = true)
    {cs : List Char} (hcs : EndsWord cs) (column : Nat) :
    scan column (w ++ cs) = (scan (column + w.length) cs).map (w :: ·) := by
  cases w with
  | nil => exact absurd rfl hne
  | cons c w =>
    have hc := hw c List.mem_cons_self
    have htail : ∀ d ∈ w, isWordChar d = true := fun d hd => hw d (List.mem_cons_of_mem _ hd)
    rw [List.cons_append, scan, if_neg (by simp [isBlank_eq_false_of_isWordChar hc]), if_pos hc]
    simp only [takeWhile_append_of_endsWord htail hcs, dropWhile_append_of_endsWord htail hcs,
      List.length_cons, Nat.add_assoc, Nat.add_comm 1]

theorem scan_string {inside : List Char} (hq : '"' ∉ inside) (column : Nat) (cs : List Char) :
    scan column ('"' :: inside ++ '"' :: cs) =
      (scan (column + (inside.length + 2)) cs).map (('"' :: inside ++ ['"']) :: ·) := by
  have hall : ∀ c ∈ inside, (c != '"') = true := fun c hc =>
    bne_iff_ne.mpr fun he => hq (he ▸ hc)
  have htake : (inside ++ '"' :: cs).takeWhile (· != '"') = inside := by
    rw [List.takeWhile_append_of_pos hall]
    simp
  have hdrop : (inside ++ '"' :: cs).dropWhile (· != '"') = '"' :: cs := by
    rw [List.dropWhile_append_of_pos hall]
    simp
  rw [List.cons_append, scan, if_neg (by simp [isBlank_quote]), if_neg (by simp [isWordChar_quote]),
    if_pos rfl]
  split
  · next h => rw [hdrop] at h; cases h
  · next close rest h =>
    rw [hdrop] at h
    cases h
    simp only [htake, Nat.add_comm inside.length, Nat.add_assoc]

theorem isToken_run {c : Char} (hc : isWordChar c = true) (cs : List Char) :
    IsToken (String.ofList (c :: cs.takeWhile isWordChar)) := by
  refine .inl ⟨by simp, fun d hd => ?_⟩
  rw [String.toList_ofList, List.mem_cons] at hd
  exact hd.elim (fun he => he ▸ hc) fun hd => List.mem_takeWhile_imp hd

theorem isString_quoted {inside : List Char} (h : '"' ∉ inside) :
    IsString (String.ofList ('"' :: inside ++ ['"'])) :=
  ⟨inside, h, String.toList_ofList⟩

/-- The scan takes a token off the front unless the token is a word that goes on. -/
theorem scan_token {t : String} (ht : IsToken t) {cs : List Char} (hcs : IsString t ∨ EndsWord cs)
    (column : Nat) :
    scan column (t.toList ++ cs) = (scan (column + t.toList.length) cs).map (t.toList :: ·) := by
  rcases ht with hw | hs
  · exact scan_word hw.1 hw.2 (hcs.resolve_left hw.not_isString) column
  · obtain ⟨inside, hq, heq⟩ := hs
    have hlen : t.toList.length = inside.length + 2 := by simp [heq]
    rw [hlen, heq, List.append_assoc]
    exact scan_string hq column cs

end Linewise.Token
