import Linewise.Proofs.Division

/-! # Where the scan of a text stops

A scan that finds no tokens stops at a character. What stands before it can be divided into tokens,
and it belongs to no class, or it is a quote with no other quote behind it. Whether a scan stops at
a place, and why, can be told from this alone.
-/

namespace Linewise.Token

variable {cs before rest : List Char} {cause : TokenCause} {text : String} {line : Option Int}

def IsDivisible (cs : List Char) : Prop :=
  ∃ lead parts, IsDivision cs lead parts

/-- The characters begin with neither a blank nor a token, for this cause. -/
inductive Stops : TokenCause → List Char → Prop
  /-- The first character belongs to no class. -/
  | strayCharacter {c : Char} {rest : List Char} (hblank : Text.isBlank c = false)
    (hword : isWordChar c = false) (hquote : c ≠ '"') :
    Stops (.strayCharacter (String.singleton c)) (c :: rest)
  /-- The first character opens a string that nothing closes. -/
  | openString {rest : List Char} (h : '"' ∉ rest) : Stops .openString ('"' :: rest)

theorem Stops.endsWord (h : Stops cause rest) : EndsWord rest := by
  intro d hd
  cases h with
  | strayCharacter hblank hword hquote =>
    rw [← Option.mem_some.mp hd]
    exact hword
  | openString h =>
    rw [← Option.mem_some.mp hd]
    exact isWordChar_quote

theorem Stops.scan_eq (h : Stops cause rest) (column : Nat) :
    scan column rest = .error (cause, column) := by
  cases h with
  | strayCharacter hblank hword hquote =>
    rw [scan, if_neg (by simp [hblank]), if_neg (by simp [hword]), if_neg hquote]
  | @openString rest h =>
    have hnone : rest.dropWhile (· != '"') = [] :=
      List.dropWhile_eq_nil_iff.mpr fun c hc => bne_iff_ne.mpr fun he => h (he ▸ hc)
    rw [scan, if_neg (by simp [isBlank_quote]), if_neg (by simp [isWordChar_quote]), if_pos rfl]
    split
    · rfl
    · next hdrop =>
      rw [hnone] at hdrop
      cases hdrop

theorem IsDivisible.scan_append (h : IsDivisible before) (hrest : Stops cause rest)
    (column : Nat) : scan column (before ++ rest) = .error (cause, column + before.length) := by
  obtain ⟨lead, parts, hdivision⟩ := h
  rw [hdivision.scan_append hrest.endsWord, hrest.scan_eq]
  rfl

theorem exists_stops_of_scan {column stop : Nat} (h : scan column cs = .error (cause, stop)) :
    ∃ before rest, cs = before ++ rest ∧ stop = column + before.length ∧ IsDivisible before ∧
      Stops cause rest := by
  fun_induction scan column cs
  case case1 column => cases h
  case case2 column c cs hblank ih =>
    obtain ⟨before, rest, rfl, rfl, ⟨lead, parts, hdivision⟩, hstops⟩ := ih h
    refine ⟨c :: before, rest, rfl, ?_, ⟨_, _, hdivision.cons_blank hblank⟩, hstops⟩
    rw [List.length_cons]
    omega
  case case3 column c cs hblank hword tail ih =>
    obtain ⟨before, rest, hrest, rfl, ⟨lead, parts, hdivision⟩, hstops⟩ :=
      ih (Attempt.map_eq_error_iff.mp h)
    have hends : EndsWord before := (hrest ▸ endsWord_dropWhile cs).of_append
    have hbefore := hdivision.cons_token (isToken_run hword cs) (.inr hends)
    rw [String.toList_ofList] at hbefore
    refine ⟨c :: tail ++ before, rest, ?_, ?_, ⟨_, _, hbefore⟩, hstops⟩
    · rw [List.append_assoc, ← hrest, List.cons_append, List.takeWhile_append_dropWhile]
    · simp only [List.length_append, List.length_cons]
      omega
  case case4 column cs hdrop hblank hword =>
    cases h
    refine ⟨[], '"' :: cs, rfl, rfl, ⟨_, _, .nil⟩, .openString fun hmem => ?_⟩
    simpa using List.dropWhile_eq_nil_iff.mp hdrop '"' hmem
  case case5 column cs inside close rest hdrop hblank hword ih =>
    obtain ⟨before, after, rfl, rfl, ⟨lead, parts, hdivision⟩, hstops⟩ :=
      ih (Attempt.map_eq_error_iff.mp h)
    obtain ⟨rfl, hinside, heq⟩ := eq_of_dropWhile_quote hdrop
    have hstring := isString_quoted hinside
    have hbefore := hdivision.cons_token (.inr hstring) (.inl hstring)
    rw [String.toList_ofList] at hbefore
    refine ⟨'"' :: inside ++ ['"'] ++ before, after, ?_, ?_, ⟨_, _, hbefore⟩, hstops⟩
    · rw [heq]
      simp [inside]
    · simp only [List.length_append, List.length_cons, List.length_nil]
      omega
  case case6 column c cs hblank hword hquote =>
    cases h
    exact ⟨[], c :: cs, rfl, rfl, ⟨_, _, .nil⟩,
      .strayCharacter (by simpa using hblank) (by simpa using hword) hquote⟩

/-- A scan stops at a place exactly if what stands before it can be divided into tokens and no
token begins there. -/
theorem scan_eq_error_iff {column stop : Nat} :
    scan column cs = .error (cause, stop) ↔
      ∃ before rest, cs = before ++ rest ∧ stop = column + before.length ∧ IsDivisible before ∧
        Stops cause rest := by
  refine ⟨exists_stops_of_scan, ?_⟩
  rintro ⟨before, rest, rfl, rfl, hbefore, hstops⟩
  exact hbefore.scan_append hstops column

def IsReached (text : String) (place : Nat) : Prop :=
  ∃ tokens, tokenize (String.ofList (text.toList.take (place - 1))) = .ok tokens

/-- The character at the place belongs to no class and stands in no string. -/
structure IsStray (text : String) (place : Nat) (c : Char) : Prop where
  pos : 1 ≤ place
  getElem? : text.toList[place - 1]? = some c
  isReached : IsReached text place
  not_isBlank : Text.isBlank c = false
  not_isWordChar : isWordChar c = false
  ne_quote : c ≠ '"'

/-- The quote at the place opens a string that nothing closes. -/
structure IsUnclosed (text : String) (place : Nat) : Prop where
  pos : 1 ≤ place
  getElem? : text.toList[place - 1]? = some '"'
  isReached : IsReached text place
  quote_not_mem : '"' ∉ text.toList.drop place

theorem isReached_iff {place : Nat} :
    IsReached text place ↔ IsDivisible (text.toList.take (place - 1)) := by
  simp only [IsReached, IsDivisible, tokenize_eq_ok_iff_isDivision, String.toList_ofList]
  constructor
  · rintro ⟨tokens, lead, parts, hdivision, -⟩
    exact ⟨lead, parts, hdivision⟩
  · rintro ⟨lead, parts, hdivision⟩
    exact ⟨_, lead, parts, hdivision, rfl⟩

theorem stops_strayCharacter_iff {c : Char} :
    Stops (.strayCharacter (String.singleton c)) rest ↔
      (∃ after, rest = c :: after) ∧ Text.isBlank c = false ∧ isWordChar c = false ∧ c ≠ '"' := by
  constructor
  · generalize hcause : TokenCause.strayCharacter (String.singleton c) = cause
    rintro (⟨hblank, hword, hquote⟩ | _)
    · cases String.singleton_inj.mp (TokenCause.strayCharacter.inj hcause)
      exact ⟨⟨_, rfl⟩, hblank, hword, hquote⟩
    · cases hcause
  · rintro ⟨⟨after, rfl⟩, hblank, hword, hquote⟩
    exact .strayCharacter hblank hword hquote

theorem stops_openString_iff :
    Stops .openString rest ↔ ∃ after, rest = '"' :: after ∧ '"' ∉ after := by
  constructor
  · rintro (_ | h)
    exact ⟨_, rfl, h⟩
  · rintro ⟨after, rfl, h⟩
    exact .openString h

theorem tokenize_eq_error_iff_stops {line' : Option Int} {place : Nat} :
    tokenize text line = .error ⟨cause, line', some (place : Int)⟩ ↔
      line' = line ∧ 1 ≤ place ∧ IsReached text place ∧
        Stops cause (text.toList.drop (place - 1)) := by
  simp only [tokenize_eq_error_iff, scan_eq_error_iff, isReached_iff, TokenFault.mk.injEq]
  constructor
  · rintro ⟨_, _, ⟨before, rest, heq, rfl, hbefore, hstops⟩, rfl, rfl, hplace⟩
    obtain rfl : place = 1 + before.length := Int.ofNat_inj.mp (Option.some.inj hplace)
    rw [Nat.add_sub_cancel_left, heq, List.take_left, List.drop_left]
    exact ⟨rfl, Nat.le_add_right .., hbefore, hstops⟩
  · rintro ⟨rfl, hpos, hbefore, hstops⟩
    refine ⟨cause, place, ⟨_, _, (List.take_append_drop (place - 1) text.toList).symm, ?_, hbefore,
      hstops⟩, rfl, rfl, rfl⟩
    have hlt : place - 1 < text.toList.length := by
      by_contra hge
      rw [List.drop_eq_nil_of_le (by omega)] at hstops
      cases hstops
    rw [List.length_take]
    omega

theorem exists_drop_iff {place : Nat} {c : Char} :
    (∃ after, cs.drop place = c :: after) ↔ cs[place]? = some c := by
  rw [← List.head?_drop]
  constructor
  · rintro ⟨after, h⟩
    rw [h, List.head?_cons]
  · exact fun h => ⟨_, List.eq_cons_of_mem_head? h⟩

theorem tokenize_eq_stray_iff {place : Nat} {c : Char} :
    tokenize text line = .error ⟨.strayCharacter (String.singleton c), line, some (place : Int)⟩ ↔
      IsStray text place c := by
  rw [tokenize_eq_error_iff_stops, stops_strayCharacter_iff, exists_drop_iff]
  constructor
  · rintro ⟨-, hpos, hreached, hc, hblank, hword, hquote⟩
    exact ⟨hpos, hc, hreached, hblank, hword, hquote⟩
  · rintro ⟨hpos, hc, hreached, hblank, hword, hquote⟩
    exact ⟨rfl, hpos, hreached, hc, hblank, hword, hquote⟩

theorem tokenize_eq_unclosed_iff {place : Nat} :
    tokenize text line = .error ⟨.openString, line, some (place : Int)⟩ ↔
      IsUnclosed text place := by
  rw [tokenize_eq_error_iff_stops, stops_openString_iff]
  constructor
  · rintro ⟨-, hpos, hreached, after, hrest, hquote⟩
    refine ⟨hpos, exists_drop_iff.mp ⟨after, hrest⟩, hreached, ?_⟩
    obtain ⟨n, rfl⟩ := Nat.exists_eq_add_of_le' hpos
    rwa [← List.tail_drop, show n = n + 1 - 1 from rfl, hrest, List.tail_cons]
  · rintro ⟨hpos, hc, hreached, hquote⟩
    obtain ⟨after, hrest⟩ := exists_drop_iff.mpr hc
    refine ⟨rfl, hpos, hreached, after, hrest, ?_⟩
    obtain ⟨n, rfl⟩ := Nat.exists_eq_add_of_le' hpos
    rwa [← List.tail_drop, show n = n + 1 - 1 from rfl, hrest, List.tail_cons] at hquote

theorem exists_place_of_tokenize_error {fault : TokenFault}
    (h : tokenize text line = .error fault) :
    (∃ (place : Nat) (c : Char), IsStray text place c ∧
      fault = ⟨.strayCharacter (String.singleton c), line, some (place : Int)⟩) ∨
    ∃ place : Nat, IsUnclosed text place ∧ fault = ⟨.openString, line, some (place : Int)⟩ := by
  obtain ⟨cause, place, hscan, rfl⟩ := tokenize_eq_error_iff.mp h
  obtain ⟨before, rest, -, -, -, hstops⟩ := scan_eq_error_iff.mp hscan
  cases hstops with
  | strayCharacter => exact .inl ⟨place, _, tokenize_eq_stray_iff.mp h, rfl⟩
  | openString => exact .inr ⟨place, tokenize_eq_unclosed_iff.mp h, rfl⟩

theorem exists_column_of_tokenize_error {fault : TokenFault}
    (h : tokenize text line = .error fault) :
    fault.line = line ∧ ∃ (column : Nat) (c : Char), fault.column = some (column : Int) ∧
      1 ≤ column ∧ column ≤ text.length ∧ text.toList[column - 1]? = some c ∧
      (fault.cause = .openString ∧ c = '"' ∨
        fault.cause = .strayCharacter (String.singleton c)) := by
  have hle {place : Nat} {c : Char} (hc : text.toList[place - 1]? = some c) :
      place ≤ text.length := by
    obtain ⟨hlt, -⟩ := List.getElem?_eq_some_iff.mp hc
    rw [String.length_toList] at hlt
    omega
  rcases exists_place_of_tokenize_error h with ⟨place, c, hplace, rfl⟩ | ⟨place, hplace, rfl⟩
  · exact ⟨rfl, place, c, rfl, hplace.pos, hle hplace.getElem?, hplace.getElem?, .inr rfl⟩
  · exact ⟨rfl, place, '"', rfl, hplace.pos, hle hplace.getElem?, hplace.getElem?,
      .inl ⟨rfl, rfl⟩⟩

theorem IsStray.unique {place other : Nat} {c d : Char} (h : IsStray text place c)
    (hother : IsStray text other d) : other = place := by
  have hfault : tokenize text none = _ := tokenize_eq_stray_iff.mpr h
  rw [tokenize_eq_stray_iff.mpr hother, Except.error.injEq, TokenFault.mk.injEq] at hfault
  exact Int.ofNat_inj.mp (Option.some.inj hfault.2.2)

theorem IsUnclosed.unique {place other : Nat} (h : IsUnclosed text place)
    (hother : IsUnclosed text other) : other = place := by
  have hfault : tokenize text none = _ := tokenize_eq_unclosed_iff.mpr h
  rw [tokenize_eq_unclosed_iff.mpr hother, Except.error.injEq, TokenFault.mk.injEq] at hfault
  exact Int.ofNat_inj.mp (Option.some.inj hfault.2.2)

/-- A text has tokens, or a single stray character, or a single unclosed string, and never two of
them. It is refused for the stray character or the unclosed string, at its place and with the line
number that was given. -/
theorem tokenize_stops (text : String) (line : Option Int) :
    let divided := ∃ tokens, tokenize text line = .ok tokens
    let stray := ∃ (place : Nat) (c : Char), IsStray text place c ∧
      (∀ other d, IsStray text other d → other = place) ∧
      tokenize text line = .error ⟨.strayCharacter (String.singleton c), line, some (place : Int)⟩
    let unclosed := ∃ place : Nat, IsUnclosed text place ∧
      (∀ other, IsUnclosed text other → other = place) ∧
      tokenize text line = .error ⟨.openString, line, some (place : Int)⟩
    ((divided ∧ ¬ stray ∧ ¬ unclosed) ∨ (¬ divided ∧ stray ∧ ¬ unclosed) ∨
      (¬ divided ∧ ¬ stray ∧ unclosed)) ∧
    (stray ↔ ∃ place c, IsStray text place c) ∧ (unclosed ↔ ∃ place, IsUnclosed text place) := by
  intro divided stray unclosed
  have hstray : stray ↔ ∃ place c, IsStray text place c := by
    constructor
    · rintro ⟨place, c, h, -⟩
      exact ⟨place, c, h⟩
    · rintro ⟨place, c, h⟩
      exact ⟨place, c, h, fun other d => h.unique, tokenize_eq_stray_iff.mpr h⟩
  have hunclosed : unclosed ↔ ∃ place, IsUnclosed text place := by
    constructor
    · rintro ⟨place, h, -⟩
      exact ⟨place, h⟩
    · rintro ⟨place, h⟩
      exact ⟨place, h, fun other => h.unique, tokenize_eq_unclosed_iff.mpr h⟩
  refine ⟨?_, hstray, hunclosed⟩
  cases h : tokenize text line with
  | ok tokens =>
    refine .inl ⟨⟨tokens, h⟩, ?_, ?_⟩
    · rintro ⟨place, c, -, -, hfault⟩
      cases h.symm.trans hfault
    · rintro ⟨place, -, -, hfault⟩
      cases h.symm.trans hfault
  | error fault =>
    have hnone : ¬ divided := by
      rintro ⟨tokens, htokens⟩
      cases h.symm.trans htokens
    rcases exists_place_of_tokenize_error h with ⟨place, c, hplace, rfl⟩ | ⟨place, hplace, rfl⟩
    · refine .inr (.inl ⟨hnone, hstray.mpr ⟨place, c, hplace⟩, ?_⟩)
      rintro ⟨other, -, -, hfault⟩
      cases h.symm.trans hfault
    · refine .inr (.inr ⟨hnone, ?_, hunclosed.mpr ⟨place, hplace⟩⟩)
      rintro ⟨other, c, -, -, hfault⟩
      cases h.symm.trans hfault

/-- In a string no character is stray; the last one here is, in the ninth column. -/
example : tokenize "\ta \"~\"b ~" (some 7) = .error ⟨.strayCharacter "~", some 7, some 9⟩ := by
  decide +kernel

end Linewise.Token
