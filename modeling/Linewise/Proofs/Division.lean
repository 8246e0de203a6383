import Linewise.Proofs.Attempt
import Linewise.Proofs.Scan

/-! # Division of a text into tokens

A division writes a text as tokens with runs of blanks before, between and behind them. Two
neighbours touch only when one of them is a string. The tokens that the scan finds are those of a
division, and a text never has two.
-/

namespace Linewise.Token

/-- The characters of tokens, each with the run of blanks behind it. -/
def partChars (parts : List (String × List Char)) : List Char :=
  parts.flatMap fun part => part.1.toList ++ part.2

/-- The characters `cs` as `w₀ t₁ w₁ … tₙ wₙ`: `lead` is `w₀`, and each part is a token with the
run of blanks behind it. -/
structure IsDivision (cs lead : List Char) (parts : List (String × List Char)) : Prop where
  chars : cs = lead ++ partChars parts
  lead_blank : IsBlankRun lead
  token : ∀ part ∈ parts, IsToken part.1
  gap_blank : ∀ part ∈ parts, IsBlankRun part.2
  apart : parts.IsChain fun part next => part.2 = [] → IsString part.1 ∨ IsString next.1

namespace IsDivision

variable {cs lead : List Char} {parts : List (String × List Char)}

theorem nil : IsDivision [] [] [] where
  chars := rfl
  lead_blank := by simp [IsBlankRun]
  token := by simp
  gap_blank := by simp
  apart := .nil

theorem cons_blank (h : IsDivision cs lead parts) {c : Char} (hc : Text.isBlank c = true) :
    IsDivision (c :: cs) (c :: lead) parts :=
  { h with
    chars := by rw [h.chars, List.cons_append]
    lead_blank := by
      intro d hd
      rcases List.mem_cons.mp hd with rfl | hd
      · exact hc
      · exact h.lead_blank d hd }

theorem cons_token (h : IsDivision cs lead parts) {t : String} (ht : IsToken t)
    (hcs : IsString t ∨ EndsWord cs) : IsDivision (t.toList ++ cs) [] ((t, lead) :: parts) where
  chars := by
    rw [h.chars]
    simp [partChars]
  lead_blank := by simp [IsBlankRun]
  token := by
    intro part hpart
    rcases List.mem_cons.mp hpart with rfl | hpart
    · exact ht
    · exact h.token part hpart
  gap_blank := by
    intro part hpart
    rcases List.mem_cons.mp hpart with rfl | hpart
    · exact h.lead_blank
    · exact h.gap_blank part hpart
  apart := by
    refine List.isChain_cons.mpr ⟨?_, h.apart⟩
    intro next hnext hgap
    rcases hcs with hs | hw
    · exact .inl hs
    -- the word ends, so a neighbour that touches it is no word
    · refine .inr ((h.token next (List.mem_of_mem_head? hnext)).resolve_left fun hword => ?_)
      obtain ⟨rest, rfl⟩ : ∃ rest, parts = next :: rest := by
        cases parts with
        | nil => cases hnext
        | cons part rest => exact ⟨rest, by rw [Option.mem_some.mp hnext]⟩
      obtain ⟨c, w, hcw⟩ := List.exists_cons_of_ne_nil hword.1
      have hc := hw c (by simp [h.chars, show lead = [] from hgap, partChars, hcw])
      rw [hword.2 c (by simp [hcw])] at hc
      cases hc

theorem tail {t : String} {gap : List Char} (h : IsDivision cs lead ((t, gap) :: parts)) :
    IsDivision (gap ++ partChars parts) gap parts where
  chars := rfl
  lead_blank := h.gap_blank (t, gap) List.mem_cons_self
  token part hpart := h.token part (List.mem_cons_of_mem _ hpart)
  gap_blank part hpart := h.gap_blank part (List.mem_cons_of_mem _ hpart)
  apart := (List.isChain_cons.mp h.apart).2

theorem endsWord_of_cons {t : String} {gap : List Char}
    (h : IsDivision cs lead ((t, gap) :: parts)) :
    IsString t ∨ EndsWord (gap ++ partChars parts) := by
  by_cases hgap : gap = []
  · cases parts with
    | nil => exact .inr (by simp [hgap, partChars, EndsWord])
    | cons next rest =>
      have hnext := (List.isChain_cons.mp h.apart).1 next (by simp) hgap
      refine hnext.imp_right fun hs => ?_
      rw [hgap, List.nil_append, partChars, List.flatMap_cons, List.append_assoc]
      exact hs.endsWord _
  · exact .inr ((h.gap_blank (t, gap) List.mem_cons_self).endsWord hgap _)

/-- Before a text that continues no word the scan finds the tokens of a division, and it goes on
behind them. -/
theorem scan_append (h : IsDivision cs lead parts) {rest : List Char} (hrest : EndsWord rest)
    (column : Nat) :
    scan column (cs ++ rest) =
      (scan (column + cs.length) rest).map ((parts.map fun part => part.1.toList) ++ ·) := by
  induction parts generalizing cs lead column with
  | nil =>
    rw [h.chars, partChars, List.flatMap_nil, List.append_nil, scan_blankRun h.lead_blank]
    cases scan (column + lead.length) rest <;> rfl
  | cons part parts ih =>
    obtain ⟨t, gap⟩ := part
    have hcs : cs ++ rest = lead ++ (t.toList ++ (gap ++ partChars parts ++ rest)) := by
      rw [h.chars]
      simp [partChars]
    have hlength : cs.length =
        lead.length + (t.toList.length + (gap ++ partChars parts).length) := by
      rw [h.chars]
      simp [partChars]
    have hends := h.endsWord_of_cons.imp_right fun hends => hends.append hrest
    rw [hcs, scan_blankRun h.lead_blank, scan_token (h.token _ List.mem_cons_self) hends,
      ih h.tail, hlength, Nat.add_assoc, Nat.add_assoc]
    cases scan _ rest <;> rfl

theorem scan_eq (h : IsDivision cs lead parts) (column : Nat) :
    scan column cs = .ok (parts.map fun part => part.1.toList) := by
  have hscan : scan column (cs ++ []) = _ := h.scan_append (by simp [EndsWord]) column
  rw [List.append_nil, scan_nil] at hscan
  simpa [Except.map] using hscan

theorem lead_eq (h : IsDivision cs lead parts) : lead = cs.takeWhile Text.isBlank := by
  rw [h.chars, List.takeWhile_append_of_pos h.lead_blank]
  cases parts with
  | nil => simp [partChars]
  | cons part parts =>
    have ht := h.token part List.mem_cons_self
    obtain ⟨c, w, hcw⟩ := List.exists_cons_of_ne_nil ht.toList_ne_nil
    have hc := ht.head_not_blank (c := c) (by simp [hcw])
    simp [partChars, hcw, hc]

/-- Two divisions of one text with the same tokens have the same runs of blanks. -/
theorem eq_of_tokens_eq {lead' : List Char} {parts' : List (String × List Char)}
    (h : IsDivision cs lead parts) (h' : IsDivision cs lead' parts')
    (heq : parts.map Prod.fst = parts'.map Prod.fst) : lead = lead' ∧ parts = parts' := by
  induction parts generalizing cs lead lead' parts' with
  | nil =>
    rw [List.map_nil, eq_comm, List.map_eq_nil_iff] at heq
    exact ⟨h.lead_eq.trans h'.lead_eq.symm, heq.symm⟩
  | cons part parts ih =>
    obtain ⟨t, gap⟩ := part
    cases parts' with
    | nil => cases heq
    | cons part' parts' =>
      obtain ⟨t', gap'⟩ := part'
      obtain ⟨rfl, htail⟩ := List.cons.inj heq
      have hlead : lead = lead' := h.lead_eq.trans h'.lead_eq.symm
      have hrest : gap ++ partChars parts = gap' ++ partChars parts' := by
        have hcs := h.chars.symm.trans h'.chars
        simpa [hlead, partChars] using hcs
      obtain ⟨rfl, rfl⟩ := ih h.tail (hrest ▸ h'.tail) htail
      exact ⟨hlead, rfl⟩

end IsDivision

theorem eq_of_dropWhile_quote {cs : List Char} {close : Char} {rest : List Char}
    (h : cs.dropWhile (· != '"') = close :: rest) :
    close = '"' ∧ '"' ∉ cs.takeWhile (· != '"') ∧ cs = cs.takeWhile (· != '"') ++ '"' :: rest := by
  have hclose : close = '"' := by
    have hnot := List.head?_dropWhile_not (· != '"') cs
    rw [h] at hnot
    simpa using hnot
  refine ⟨hclose, fun hmem => ?_, ?_⟩
  · simpa using List.mem_takeWhile_imp hmem
  · rw [hclose] at h
    rw [← h, List.takeWhile_append_dropWhile]

/-- Whatever the scan finds are the tokens of a division. -/
theorem exists_isDivision_of_scan {column : Nat} {cs : List Char} {lexemes : List (List Char)}
    (h : scan column cs = .ok lexemes) :
    ∃ lead parts, IsDivision cs lead parts ∧ parts.map Prod.fst = lexemes.map String.ofList := by
  fun_induction scan column cs generalizing lexemes
  case case1 column =>
    cases h
    exact ⟨[], [], .nil, rfl⟩
  case case2 column c cs hblank ih =>
    obtain ⟨lead, parts, hdiv, hparts⟩ := ih h
    exact ⟨c :: lead, parts, hdiv.cons_blank hblank, hparts⟩
  case case3 column c cs hblank hword tail ih =>
    obtain ⟨found, hfound, rfl⟩ := Attempt.map_eq_ok_iff.mp h
    obtain ⟨lead, parts, hdiv, hparts⟩ := ih hfound
    have hcs := hdiv.cons_token (isToken_run hword cs) (.inr (endsWord_dropWhile cs))
    rw [String.toList_ofList, List.cons_append, List.takeWhile_append_dropWhile] at hcs
    exact ⟨[], _, hcs, by rw [List.map_cons, List.map_cons, hparts]⟩
  case case4 column cs hdrop hblank hword => cases h
  case case5 column cs inside close rest hdrop hblank hword ih =>
    obtain ⟨found, hfound, rfl⟩ := Attempt.map_eq_ok_iff.mp h
    obtain ⟨lead, parts, hdiv, hparts⟩ := ih hfound
    obtain ⟨rfl, hinside, heq⟩ := eq_of_dropWhile_quote hdrop
    have hstring := isString_quoted hinside
    have hcs := hdiv.cons_token (.inr hstring) (.inl hstring)
    rw [String.toList_ofList, List.append_assoc, List.singleton_append, List.cons_append,
      ← heq] at hcs
    exact ⟨[], _, hcs, by rw [List.map_cons, List.map_cons, hparts]⟩
  case case6 column c cs hblank hword hquote => cases h

theorem tokenize_eq_ok_iff {text : String} {line : Option Int} {tokens : List String} :
    tokenize text line = .ok tokens ↔
      ∃ lexemes, scan 1 text.toList = .ok lexemes ∧ lexemes.map String.ofList = tokens := by
  unfold tokenize
  cases scan 1 text.toList <;> simp

theorem tokenize_eq_error_iff {text : String} {line : Option Int} {fault : TokenFault} :
    tokenize text line = .error fault ↔
      ∃ cause column, scan 1 text.toList = .error (cause, column) ∧
        fault = ⟨cause, line, some column⟩ := by
  unfold tokenize
  cases scan 1 text.toList with
  | ok lexemes => simp
  | error stop => simp [Prod.ext_iff, eq_comm, and_assoc]

theorem tokenize_eq_ok_of_line {text : String} {line line' : Option Int} {tokens : List String}
    (h : tokenize text line = .ok tokens) : tokenize text line' = .ok tokens :=
  tokenize_eq_ok_iff.mpr (tokenize_eq_ok_iff.mp h)

theorem tokenize_eq_ok_iff_isDivision {text : String} {line : Option Int} {tokens : List String} :
    tokenize text line = .ok tokens ↔
      ∃ lead parts, IsDivision text.toList lead parts ∧ parts.map Prod.fst = tokens := by
  rw [tokenize_eq_ok_iff]
  constructor
  · rintro ⟨lexemes, hscan, rfl⟩
    exact exists_isDivision_of_scan hscan
  · rintro ⟨lead, parts, hdiv, rfl⟩
    exact ⟨_, hdiv.scan_eq 1, by simp⟩

theorem IsDivision.unique {cs lead lead' : List Char} {parts parts' : List (String × List Char)}
    (h : IsDivision cs lead parts) (h' : IsDivision cs lead' parts') :
    lead = lead' ∧ parts = parts' := by
  refine h.eq_of_tokens_eq h' ?_
  have hlexemes := Except.ok.inj ((h.scan_eq 1).symm.trans (h'.scan_eq 1))
  simpa [Function.comp_def] using congrArg (List.map String.ofList) hlexemes

theorem isBlankRun_of_tokenize {text : String} {line : Option Int}
    (h : tokenize text line = .ok []) : IsBlankRun text.toList := by
  obtain ⟨lead, parts, hdiv, hparts⟩ := tokenize_eq_ok_iff_isDivision.mp h
  rw [List.map_eq_nil_iff.mp hparts] at hdiv
  rw [hdiv.chars, partChars, List.flatMap_nil, List.append_nil]
  exact hdiv.lead_blank

theorem isToken_of_tokenize {text : String} {line : Option Int} {tokens : List String}
    (h : tokenize text line = .ok tokens) {t : String} (ht : t ∈ tokens) : IsToken t := by
  obtain ⟨lead, parts, hdiv, rfl⟩ := tokenize_eq_ok_iff_isDivision.mp h
  obtain ⟨part, hpart, rfl⟩ := List.mem_map.mp ht
  exact hdiv.token part hpart

theorem mem_of_tokenize {text : String} {line : Option Int} {tokens : List String}
    (h : tokenize text line = .ok tokens) {t : String} (ht : t ∈ tokens) {c : Char}
    (hc : c ∈ t.toList) : c ∈ text.toList := by
  obtain ⟨lead, parts, hdiv, rfl⟩ := tokenize_eq_ok_iff_isDivision.mp h
  obtain ⟨part, hpart, rfl⟩ := List.mem_map.mp ht
  rw [hdiv.chars]
  exact List.mem_append_right _ (List.mem_flatMap.mpr ⟨part, hpart, List.mem_append_left _ hc⟩)

namespace IsDivision

variable {cs lead gap : List Char} {before after parts : List (String × List Char)} {t : String}

theorem drop (h : IsDivision cs lead (before ++ (t, gap) :: after)) :
    ∃ cs' lead', IsDivision cs' lead' ((t, gap) :: after) := by
  induction before generalizing cs lead with
  | nil => exact ⟨cs, lead, h⟩
  | cons part before ih => exact ih h.tail

theorem endsWord_behind (h : IsDivision cs lead (before ++ (t, gap) :: after)) (ht : IsWord t) :
    EndsWord (gap ++ partChars after) := by
  obtain ⟨cs', lead', htail⟩ := h.drop
  exact htail.endsWord_of_cons.resolve_left ht.not_isString

theorem endsWord_before (h : IsDivision cs lead (before ++ (t, gap) :: after)) (ht : IsWord t) :
    ∀ c ∈ (lead ++ partChars before).getLast?, isWordChar c = false := by
  intro c hc
  rcases List.eq_nil_or_concat' before with rfl | ⟨init, ⟨u, g⟩, rfl⟩
  · rw [partChars, List.flatMap_nil, List.append_nil] at hc
    exact isWordChar_eq_false_of_isBlank (h.lead_blank c (List.mem_of_mem_getLast? hc))
  · have hlast : c ∈ (u.toList ++ g).getLast? := by
      have hu := (h.token (u, g) (by simp)).toList_ne_nil
      have hne : u.toList ++ g ≠ [] := fun he => hu (List.append_eq_nil_iff.mp he).1
      rw [partChars, List.flatMap_append, List.flatMap_cons, List.flatMap_nil, List.append_nil,
        ← List.append_assoc, List.getLast?_append_of_ne_nil _ hne] at hc
      exact hc
    by_cases hg : g = []
    · have happart := (List.isChain_append.mp h.apart).2.2 (u, g) (by simp) (t, gap) (by simp) hg
      obtain ⟨inside, -, hu⟩ := happart.resolve_right ht.not_isString
      rw [hg, List.append_nil, hu, List.getLast?_concat, Option.mem_some] at hlast
      rw [← hlast, isWordChar_quote]
    · rw [List.getLast?_append_of_ne_nil _ hg] at hlast
      exact isWordChar_eq_false_of_isBlank
        (h.gap_blank (u, g) (by simp) c (List.mem_of_mem_getLast? hlast))

/-- Leaving out the blanks, a text and its tokens have the same characters. -/
theorem filter_tokens (h : IsDivision cs lead parts) :
    ((parts.map Prod.fst).flatMap String.toList).filter (fun c => !Text.isBlank c) =
      cs.filter fun c => !Text.isBlank c := by
  induction parts generalizing cs lead with
  | nil =>
    rw [h.chars, partChars, List.flatMap_nil, List.append_nil, h.lead_blank.filter_eq_nil]
    rfl
  | cons part parts ih =>
    rw [h.chars, List.filter_append, h.lead_blank.filter_eq_nil, List.nil_append, partChars,
      List.flatMap_cons, List.append_assoc, List.filter_append, ← partChars, ← ih h.tail,
      ← List.filter_append]
    rfl

end IsDivision

/-- A text is divided into the tokens of its only division, and it is refused when it has none.
No word of the division could be longer, and only blanks are left out. -/
theorem tokenize_exact (text : String) (line : Option Int) :
    (∀ tokens, tokenize text line = .ok tokens ↔
      ∃ lead parts, IsDivision text.toList lead parts ∧ parts.map Prod.fst = tokens) ∧
    (∀ lead lead' parts parts', IsDivision text.toList lead parts →
      IsDivision text.toList lead' parts' → lead = lead' ∧ parts = parts') ∧
    (∀ lead before t gap after, IsDivision text.toList lead (before ++ (t, gap) :: after) →
      IsWord t → (∀ c ∈ (lead ++ partChars before).getLast?, isWordChar c = false) ∧
        ∀ c ∈ (gap ++ partChars after).head?, isWordChar c = false) ∧
    (∀ tokens, tokenize text line = .ok tokens →
      (tokens.flatMap String.toList).filter (fun c => !Text.isBlank c) =
        text.toList.filter fun c => !Text.isBlank c) ∧
    ((∃ tokens, tokenize text line = .ok tokens) ↔
      ∃ lead parts, IsDivision text.toList lead parts) := by
  refine ⟨fun tokens => tokenize_eq_ok_iff_isDivision,
    fun lead lead' parts parts' h h' => h.unique h',
    fun lead before t gap after h ht => ⟨h.endsWord_before ht, h.endsWord_behind ht⟩,
    fun tokens h => ?_, ?_⟩
  · obtain ⟨lead, parts, hdiv, rfl⟩ := tokenize_eq_ok_iff_isDivision.mp h
    exact hdiv.filter_tokens
  · constructor
    · rintro ⟨tokens, h⟩
      obtain ⟨lead, parts, hdiv, -⟩ := tokenize_eq_ok_iff_isDivision.mp h
      exact ⟨lead, parts, hdiv⟩
    · rintro ⟨lead, parts, hdiv⟩
      exact ⟨_, tokenize_eq_ok_iff_isDivision.mpr ⟨lead, parts, hdiv, rfl⟩⟩

end Linewise.Token
