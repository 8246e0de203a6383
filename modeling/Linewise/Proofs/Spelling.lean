import Linewise.Proofs.Reading
import Mathlib

/-! # The canonical spelling of a program

Every statement has one spelling as a list of tokens. A program that was read from some text is
read again, with the lines numbered from one, from the text that has its spelled statements on
lines of their own with single spaces between the tokens.
-/

namespace Linewise

namespace Token

variable {tokens : List String}

theorem toList_spaced_cons_cons (t u : String) (rest : List String) :
    (" ".intercalate (t :: u :: rest)).toList =
      t.toList ++ ' ' :: (" ".intercalate (u :: rest)).toList := by
  rw [String.intercalate_cons_cons, String.append_assoc, String.toList_append,
    String.toList_append]
  rfl

theorem scan_spaced (h : ∀ t ∈ tokens, IsToken t) (column : Nat) :
    scan column (" ".intercalate tokens).toList = .ok (tokens.map String.toList) := by
  induction tokens generalizing column with
  | nil => exact scan_nil column
  | cons t tokens ih =>
    obtain ⟨ht, htokens⟩ := List.forall_mem_cons.mp h
    have hspace : Text.isBlank ' ' = true := by decide
    cases tokens with
    | nil =>
      have hnil : EndsWord [] := by simp [EndsWord]
      rw [String.intercalate_singleton, ← List.append_nil t.toList, scan_token ht (.inr hnil),
        scan_nil]
      rfl
    | cons u rest =>
      have hends : ∀ cs, EndsWord (' ' :: cs) := by
        intro cs c hc
        rw [← Option.mem_some.mp hc]
        exact isWordChar_eq_false_of_isBlank hspace
      rw [toList_spaced_cons_cons, scan_token ht (.inr (hends _)), scan_blank hspace, ih htokens]
      rfl

theorem tokenize_spaced (h : ∀ t ∈ tokens, IsToken t) (line : Option Int) :
    tokenize (" ".intercalate tokens) line = .ok tokens :=
  tokenize_eq_ok_iff.mpr ⟨_, scan_spaced h 1, by simp⟩

theorem head?_spaced {t : String} (ht : t.toList ≠ []) (rest : List String) :
    (" ".intercalate (t :: rest)).toList.head? = t.toList.head? := by
  cases rest with
  | nil => rw [String.intercalate_singleton]
  | cons u rest => rw [toList_spaced_cons_cons, List.head?_append_of_ne_nil _ ht]

theorem spaced_ne_nil (hne : tokens ≠ []) (h : ∀ t ∈ tokens, IsToken t) :
    (" ".intercalate tokens).toList ≠ [] := by
  cases tokens with
  | nil => exact absurd rfl hne
  | cons t rest =>
    have ht := (h t List.mem_cons_self).toList_ne_nil
    intro hnil
    have hhead := head?_spaced ht rest
    rw [hnil] at hhead
    exact ht (List.head?_eq_none_iff.mp hhead.symm)

theorem spaced_head_not_blank (h : ∀ t ∈ tokens, IsToken t) :
    ∀ c ∈ (" ".intercalate tokens).toList.head?, Text.isBlank c = false := by
  intro c hc
  cases tokens with
  | nil => cases hc
  | cons t rest =>
    have ht := h t List.mem_cons_self
    rw [head?_spaced ht.toList_ne_nil] at hc
    exact ht.head_not_blank hc

theorem spaced_last_not_blank (h : ∀ t ∈ tokens, IsToken t) :
    ∀ c ∈ (" ".intercalate tokens).toList.getLast?, Text.isBlank c = false := by
  induction tokens with
  | nil => simp
  | cons t tokens ih =>
    obtain ⟨ht, htokens⟩ := List.forall_mem_cons.mp h
    cases tokens with
    | nil =>
      intro c hc
      rw [String.intercalate_singleton] at hc
      exact ht.last_not_blank hc
    | cons u rest =>
      have hrest := spaced_ne_nil (List.cons_ne_nil u rest) htokens
      rw [toList_spaced_cons_cons, List.getLast?_append_of_ne_nil _ (List.cons_ne_nil _ _),
        List.getLast?_cons_of_ne_nil hrest]
      exact ih htokens

theorem strip_spaced (h : ∀ t ∈ tokens, IsToken t) :
    Text.strip (" ".intercalate tokens).toList = (" ".intercalate tokens).toList :=
  Text.strip_eq_self (spaced_head_not_blank h) (spaced_last_not_blank h)

theorem newline_not_mem_spaced (h : ∀ t ∈ tokens, '\n' ∉ t.toList) :
    '\n' ∉ (" ".intercalate tokens).toList := by
  induction tokens with
  | nil => simp
  | cons t tokens ih =>
    obtain ⟨ht, htokens⟩ := List.forall_mem_cons.mp h
    cases tokens with
    | nil => rwa [String.intercalate_singleton]
    | cons u rest =>
      rw [toList_spaced_cons_cons, List.mem_append, List.mem_cons]
      exact not_or.mpr ⟨ht, not_or.mpr ⟨by decide, ih htokens⟩⟩

end Token

namespace Statement

def spelling : Statement → List String
  | .variableDecl name type constant value =>
    (if constant then ["const"] else []) ++ type :: name :: "=" :: value
  | .functionDecl name params returns =>
    "func" :: name :: params.flatMap (fun p => [p.2, p.1]) ++ ["->", returns]
  | .blockEnd => ["end"]
  | .assign name value => name :: "=" :: value
  | .output args => "say" :: args
  | .returnValue value => "return" :: value
  | .conditional condition isElif => (if isElif then "elif" else "if") :: condition
  | .elseBranch => ["else"]
  | .whileLoop condition => "while" :: condition
  | .repeatLoop times counter =>
    "repeat" :: if counter ≠ "" then [times, "times", counter]
      else if times ≠ "" then [times] else []
  | .call name args => name :: args

theorem paramPairs_flatMap (params : List (String × String)) :
    paramPairs (params.flatMap fun p => [p.2, p.1]) = params := by
  induction params with
  | nil => rfl
  | cons p params ih =>
    rw [List.flatMap_cons]
    exact congrArg ((p.1, p.2) :: ·) ih

theorem paramsOfTokens_flatMap (tokens : List String) :
    paramsOfTokens ((paramsOfTokens tokens).flatMap fun p => [p.2, p.1]) =
      paramsOfTokens tokens := by
  rw [paramsOfTokens, paramPairs_flatMap]
  exact Entries.ofList_of_nodup (Entries.nodup_keys_ofList (paramPairs tokens))

variable {command : String} {args : List String} {statement : Statement}

/-- The spelling of a statement that some line stands for is itself a line of this statement. -/
theorem Shape.spelling (h : Shape command args statement) :
    ∃ command' args', statement.spelling = command' :: args' ∧ Shape command' args' statement := by
  cases h with
  | variableDecl primitive => exact ⟨_, _, rfl, .variableDecl primitive⟩
  | constantDecl primitive => exact ⟨_, _, rfl, .constantDecl primitive⟩
  | assign other => exact ⟨_, _, rfl, .assign other⟩
  | @functionDecl before returns other =>
    refine ⟨"func", _, rfl, ?_⟩
    -- the names of the spelled parameters differ, so none is lost when they are read again
    have hspelled := @Shape.functionDecl (before.headD "->" ::
      (paramsOfTokens before.tail).flatMap fun p => [p.2, p.1]) returns other
    rw [List.tail_cons, paramsOfTokens_flatMap] at hspelled
    exact hspelled
  | blockEnd => exact ⟨_, _, rfl, .blockEnd⟩
  | output keyword other => exact ⟨_, _, rfl, .output (by decide) other⟩
  | returnValue other => exact ⟨_, _, rfl, .returnValue other⟩
  | conditional isElif other => exact ⟨_, _, rfl, .conditional isElif other⟩
  | elseBranch => exact ⟨_, _, rfl, .elseBranch⟩
  | whileLoop other => exact ⟨_, _, rfl, .whileLoop other⟩
  | repeatLoop other =>
    have htimes : args[0]?.getD "" ≠ "=" := by
      cases args with
      | nil => decide
      | cons times args => simpa using other
    revert htimes
    generalize args[0]?.getD "" = times
    generalize args[2]?.getD "" = counter
    intro htimes
    refine ⟨"repeat", _, rfl, ?_⟩
    by_cases hcounter : counter = ""
    · by_cases hempty : times = ""
      · rw [if_neg (not_not.mpr hcounter), if_neg (not_not.mpr hempty), hcounter, hempty]
        exact @Shape.repeatLoop [] (by simp)
      · rw [if_neg (not_not.mpr hcounter), if_pos hempty, hcounter]
        exact @Shape.repeatLoop [times] (by simpa using htimes)
    · rw [if_pos hcounter]
      exact @Shape.repeatLoop [times, "times", counter] (by simpa using htimes)
  | call other => exact ⟨_, _, rfl, .call other⟩

theorem Shape.forall_mem_spelling {property : String → Prop} (h : Shape command args statement)
    (hkeyword : ∀ t ∈ ["say", "func", "->", "repeat", "times"], property t)
    (hempty : ¬ property "") (hline : ∀ t ∈ command :: args, property t) :
    ∀ t ∈ statement.spelling, property t := by
  cases h with
  | variableDecl _ | constantDecl _ | assign _ | blockEnd | returnValue _ | conditional _ _
  | elseBranch | whileLoop _ | call _ => exact hline
  | output keyword other =>
    exact List.forall_mem_cons.mpr ⟨hkeyword _ (by decide), (List.forall_mem_cons.mp hline).2⟩
  | @functionDecl before returns other =>
    simp only [Statement.spelling, List.cons_append, List.mem_cons, List.mem_append,
      List.mem_flatMap, List.not_mem_nil, or_false]
    rintro t (rfl | rfl | ⟨p, hp, ht⟩ | rfl | rfl)
    · exact hkeyword _ (by decide)
    · cases before with
      | nil => exact hkeyword _ (by decide)
      | cons name before => exact hline _ (by simp)
    · have hmem := mem_of_mem_paramsOfTokens hp
      refine hline t (List.mem_cons_of_mem _ (List.mem_append_left _ ?_))
      rcases ht with rfl | rfl
      · exact List.mem_of_mem_tail hmem.2
      · exact List.mem_of_mem_tail hmem.1
    · exact hkeyword _ (by decide)
    · exact hline _ (by simp)
  | repeatLoop other =>
    have hne : ∀ t ∈ args, t ≠ "" := fun t ht he =>
      hempty (he ▸ hline t (List.mem_cons_of_mem _ ht))
    rcases args with _ | ⟨times, _ | ⟨mark, _ | ⟨counter, rest⟩⟩⟩
    · simpa [Statement.spelling] using hline
    · simp_all [Statement.spelling]
    · simp_all [Statement.spelling]
    · simp_all [Statement.spelling]

def spelledLine (statement : Statement) : List Char :=
  (" ".intercalate statement.spelling).toList

/-- What a spelled line must be to be found again among other lines and to be read again. -/
structure IsSpellable (statement : Statement) : Prop where
  token : ∀ t ∈ statement.spelling, Token.IsToken t
  newline : ∀ t ∈ statement.spelling, '\n' ∉ t.toList
  reads : ofTokens statement.spelling = .ok statement

theorem isSpellable_of_ofLine {cs : List Char} (hcs : '\n' ∉ cs) (h : OfLine cs statement) :
    IsSpellable statement := by
  obtain ⟨command, args, htokens, hshape⟩ := h.exists_shape
  obtain ⟨command', args', hspelling, hspelled⟩ := hshape.spelling
  have hproperty : ∀ t ∈ statement.spelling, Token.IsToken t ∧ '\n' ∉ t.toList := by
    refine hshape.forall_mem_spelling ?_ (fun h => h.1.toList_ne_nil rfl) fun t ht => ?_
    · have hwords : ["say", "func", "->", "repeat", "times"].all (fun t =>
          t.toList ≠ [] && t.toList.all Token.isWordChar && !t.toList.contains '\n') = true := by
        decide
      intro t ht
      have hword : (t.toList ≠ [] ∧ ∀ c ∈ t.toList, Token.isWordChar c = true) ∧
          '\n' ∉ t.toList := by
        simpa using List.all_eq_true.mp hwords t ht
      exact ⟨.inl hword.1, hword.2⟩
    · refine ⟨Token.isToken_of_tokenize htokens ht, fun hc => hcs ?_⟩
      simpa using Token.mem_of_tokenize htokens ht hc
  refine ⟨fun t ht => (hproperty t ht).1, fun t ht => (hproperty t ht).2, ?_⟩
  rw [hspelling]
  exact ofTokens_eq_ok_iff.mpr ⟨command', args', rfl, hspelled⟩

theorem ofLine_spaced {tokens : List String} (htokens : ∀ t ∈ tokens, Token.IsToken t)
    (h : ofTokens tokens = .ok statement) : OfLine (" ".intercalate tokens).toList statement :=
  ⟨tokens, by
    rw [String.ofList_toList]
    exact Token.tokenize_spaced htokens none, h⟩

theorem IsSpellable.ofLine (h : IsSpellable statement) : OfLine statement.spelledLine statement :=
  ofLine_spaced h.token h.reads

theorem IsSpellable.spelledLine_ne_nil (h : IsSpellable statement) :
    statement.spelledLine ≠ [] := by
  refine Token.spaced_ne_nil (fun hnil => ?_) h.token
  have hreads := h.reads
  rw [hnil] at hreads
  cases hreads

theorem IsSpellable.isLine (h : IsSpellable statement) :
    '\n' ∉ statement.spelledLine ∧ statement.spelledLine.getLast? ≠ some '\r' := by
  refine ⟨Token.newline_not_mem_spaced h.newline, fun hlast => ?_⟩
  have hblank := Token.spaced_last_not_blank h.token '\r' hlast
  exact absurd hblank (by decide)

end Statement

namespace Program

def spelledText (statements : List Statement) : String :=
  "\n".intercalate (statements.map fun s => " ".intercalate s.spelling)

variable {statements : List Statement}

theorem splitLines_spelledText (hne : statements ≠ [])
    (h : ∀ s ∈ statements, s.IsSpellable) :
    Text.splitLines (spelledText statements).toList = statements.map Statement.spelledLine := by
  rw [spelledText, String.toList_intercalate, List.map_map]
  refine Text.splitLines_intercalate (by simpa using hne) fun l hl => ?_
  obtain ⟨s, hs, rfl⟩ := List.mem_map.mp hl
  exact (h s hs).isLine

theorem map_strip_spelledText (hne : statements ≠ []) (h : ∀ s ∈ statements, s.IsSpellable) :
    (Text.splitLines (spelledText statements).toList).map Text.strip =
      statements.map Statement.spelledLine := by
  rw [splitLines_spelledText hne h, List.map_map]
  exact List.map_congr_left fun s hs => Token.strip_spaced (h s hs).token

theorem numberedLines_spelledText (h : ∀ s ∈ statements, s.IsSpellable) :
    (numberedLines (spelledText statements)).filter (·.2 ≠ []) =
      number (statements.map Statement.spelledLine) := by
  by_cases hne : statements = []
  · rw [hne]
    decide
  · rw [numberedLines_eq, map_strip_spelledText hne h, List.filter_eq_self]
    intro entry hentry
    have hmem := List.mem_map_of_mem (f := Prod.snd) hentry
    rw [map_snd_number] at hmem
    obtain ⟨s, hs, heq⟩ := List.mem_map.mp hmem
    simpa [← heq] using (h s hs).spelledLine_ne_nil

theorem isSpellable_of_ofText {text : String} {program : Program} (h : ofText text = .ok program) :
    ∀ s ∈ program.statements, s.IsSpellable := by
  intro s hs
  obtain ⟨cs, hcs, hread⟩ := exists_ofLine_of_mem h hs
  obtain ⟨line, hline, rfl⟩ := List.mem_map.mp (List.mem_of_mem_filter hcs)
  exact Statement.isSpellable_of_ofLine
    (fun hc => Text.newline_not_mem_of_mem_splitLines hline (Text.mem_of_mem_strip hc)) hread

theorem ofText_spaced {tokens : List String} {text : String} {statement : Statement}
    (htokens : ∀ t ∈ tokens, Token.IsToken t) (h : Statement.ofTokens tokens = .ok statement)
    (hlines : strippedLines text = [(" ".intercalate tokens).toList]) :
    ofText text = .ok ⟨[statement], lineNumbers text⟩ := by
  refine ofText_eq_ok_iff.mpr ⟨?_, rfl⟩
  rw [hlines]
  exact .cons (Statement.ofLine_spaced htokens h) .nil

/-- The spelling of a program that was read from a text is read as the same statements. -/
theorem ofText_spelledText (text : String) (program : Program) (h : ofText text = .ok program) :
    ofText (spelledText program.statements) =
      .ok ⟨program.statements,
        (List.range program.statements.length).map fun i : ℕ => (i : Int) + 1⟩ := by
  have hspellable := isSpellable_of_ofText h
  have hnumbered := numberedLines_spelledText hspellable
  refine ofText_eq_ok_iff.mpr ⟨?_, ?_⟩
  · rw [← map_snd_numberedLines, hnumbered, map_snd_number, List.forall₂_map_left_iff,
      List.forall₂_same]
    exact fun s hs => (hspellable s hs).ofLine
  · rw [lineNumbers, hnumbered, map_fst_number, List.length_map]

/-- A function head without a name, a loop without a counter and another word for output. -/
theorem ofText_spelledText_short_lines :
    let program : Program :=
      ⟨[.functionDecl "->" [] "T", .repeatLoop "3" "", .output ["x"]], [1, 3, 4]⟩
    ofText "func -> T\n\n repeat 3\necho x" = .ok program ∧
      spelledText program.statements = "func -> -> T\nrepeat 3\nsay x" ∧
      ofText (spelledText program.statements) = .ok ⟨program.statements, [1, 2, 3]⟩ :=
  have h : ofText "func -> T\n\n repeat 3\necho x" =
      .ok ⟨[.functionDecl "->" [] "T", .repeatLoop "3" "", .output ["x"]], [1, 3, 4]⟩ := by cbv
  ⟨h, by decide, ofText_spelledText _ _ h⟩

end Program
end Linewise
