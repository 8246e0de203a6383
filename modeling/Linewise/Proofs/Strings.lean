import Linewise.Proofs.Literals

/-! # Strings of the written text

A written line is divided into tokens like a line of source, although its words are not those of
the source: what is written around the tokens runs together with them. No string runs together with
anything. So a line that takes over its tokens in their order has the strings of its source.
-/

namespace Linewise

namespace Token

variable {cs lead after : List Char} {parts : List (String × List Char)} {t text : String}
  {tokens quoted : List String}

theorem isString_iff :
    IsString t ↔ t.toList = '"' :: t.toList.tail.dropLast ++ ['"'] ∧
      '"' ∉ t.toList.tail.dropLast := by
  constructor
  · rintro ⟨inside, hquote, htext⟩
    have hinside : t.toList.tail.dropLast = inside := by
      rw [htext, List.cons_append, List.tail_cons, List.dropLast_concat]
    rw [hinside]
    exact ⟨htext, hquote⟩
  · rintro ⟨htext, hquote⟩
    exact ⟨_, hquote, htext⟩

instance : DecidablePred IsString := fun _ =>
  decidable_of_iff _ isString_iff.symm

def strings (tokens : List String) : List String :=
  tokens.filter fun t => IsString t

theorem strings_cons_of_isString (h : IsString t) (tokens : List String) :
    strings (t :: tokens) = t :: strings tokens :=
  List.filter_cons_of_pos (decide_eq_true h)

theorem strings_cons_of_not_isString (h : ¬ IsString t) (tokens : List String) :
    strings (t :: tokens) = strings tokens :=
  List.filter_cons_of_neg (by simpa using h)

theorem strings_append (tokens others : List String) :
    strings (tokens ++ others) = strings tokens ++ strings others :=
  List.filter_append ..

theorem EndsWord.append_blanks (h : EndsWord cs) (hafter : IsBlankRun after) :
    EndsWord (cs ++ after) :=
  h.append fun c hc => isWordChar_eq_false_of_isBlank (hafter c (List.mem_of_mem_head? hc))

theorem IsDivision.blanks_append (h : IsDivision cs lead parts) {before : List Char}
    (hbefore : IsBlankRun before) : IsDivision (before ++ cs) (before ++ lead) parts := by
  induction before with
  | nil => exact h
  | cons c before ih =>
    obtain ⟨hc, hrest⟩ := List.forall_mem_cons.mp hbefore
    exact (ih hrest).cons_blank hc

theorem IsDivision.append_blanks (h : IsDivision cs lead parts) (hafter : IsBlankRun after) :
    ∃ lead' parts', IsDivision (cs ++ after) lead' parts' ∧
      parts'.map Prod.fst = parts.map Prod.fst := by
  induction parts generalizing cs lead with
  | nil =>
    have hblank : IsBlankRun (lead ++ after) := fun c hc =>
      (List.mem_append.mp hc).elim (h.lead_blank c) (hafter c)
    refine ⟨lead ++ after, [], ?_, rfl⟩
    rw [h.chars]
    simpa [partChars] using IsDivision.nil.blanks_append hblank
  | cons part parts ih =>
    obtain ⟨t, gap⟩ := part
    obtain ⟨gap', parts', hdivision, htokens⟩ := ih h.tail
    have hends : IsString t ∨ EndsWord (gap ++ partChars parts ++ after) :=
      h.endsWord_of_cons.imp_right fun hends => hends.append_blanks hafter
    refine ⟨lead ++ [], (t, gap') :: parts', ?_, by rw [List.map_cons, htokens, List.map_cons]⟩
    have hchars : cs ++ after = lead ++ (t.toList ++ (gap ++ partChars parts ++ after)) := by
      rw [h.chars]
      simp [partChars]
    rw [hchars]
    exact (hdivision.cons_token (h.token _ List.mem_cons_self) hends).blanks_append h.lead_blank

theorem tokenize_of_strip (h : tokenize (String.ofList (Text.strip text.toList)) = .ok tokens)
    (line : Option Int) : tokenize text line = .ok tokens := by
  obtain ⟨lead, parts, hdivision, rfl⟩ := tokenize_eq_ok_iff_isDivision.mp h
  rw [String.toList_ofList] at hdivision
  obtain ⟨before, after, hbefore, hafter, htext⟩ := Text.exists_eq_append_strip text.toList
  obtain ⟨lead', parts', hdivision', htokens⟩ := hdivision.append_blanks hafter
  refine tokenize_eq_ok_iff_isDivision.mpr ⟨before ++ lead', parts', ?_, htokens⟩
  rw [htext, List.append_assoc]
  exact hdivision'.blanks_append hbefore

/-- A text whose tokens have the given strings among them, in this order and no others. -/
def HasStrings (cs : List Char) (quoted : List String) : Prop :=
  ∃ lead parts, IsDivision cs lead parts ∧ strings (parts.map Prod.fst) = quoted

namespace HasStrings

theorem exists_tokenize (h : HasStrings text.toList quoted) (line : Option Int) :
    ∃ tokens, tokenize text line = .ok tokens ∧ strings tokens = quoted := by
  obtain ⟨lead, parts, hdivision, hstrings⟩ := h
  exact ⟨_, tokenize_eq_ok_iff_isDivision.mpr ⟨lead, parts, hdivision, rfl⟩, hstrings⟩

theorem nil : HasStrings [] [] :=
  ⟨[], [], .nil, rfl⟩

theorem cons_blank (h : HasStrings cs quoted) {c : Char} (hc : Text.isBlank c = true) :
    HasStrings (c :: cs) quoted := by
  obtain ⟨lead, parts, hdivision, hstrings⟩ := h
  exact ⟨c :: lead, parts, hdivision.cons_blank hc, hstrings⟩

theorem string_append (h : HasStrings cs quoted) (ht : IsString t) :
    HasStrings (t.toList ++ cs) (t :: quoted) := by
  obtain ⟨lead, parts, hdivision, hstrings⟩ := h
  refine ⟨[], (t, lead) :: parts, hdivision.cons_token (.inr ht) (.inl ht), ?_⟩
  rw [List.map_cons, strings_cons_of_isString ht, hstrings]

theorem word_append (h : HasStrings cs quoted) (ht : IsWord t) (hcs : EndsWord cs) :
    HasStrings (t.toList ++ cs) quoted := by
  obtain ⟨lead, parts, hdivision, hstrings⟩ := h
  refine ⟨[], (t, lead) :: parts, hdivision.cons_token (.inl ht) (.inr hcs), ?_⟩
  rw [List.map_cons, strings_cons_of_not_isString ht.not_isString, hstrings]

theorem eq_word_append (h : HasStrings cs quoted) (hcs : ¬ EndsWord cs) :
    ∃ t rest, IsWord t ∧ cs = t.toList ++ rest ∧ EndsWord rest ∧ HasStrings rest quoted := by
  obtain ⟨lead, parts, hdivision, hstrings⟩ := h
  have hlead : lead = [] := by
    by_contra hne
    exact hcs (hdivision.chars ▸ hdivision.lead_blank.endsWord hne _)
  cases parts with
  | nil =>
    refine absurd ?_ hcs
    simp [hdivision.chars, hlead, partChars, EndsWord]
  | cons part parts =>
    obtain ⟨t, gap⟩ := part
    have hchars : cs = t.toList ++ (gap ++ partChars parts) := by
      rw [hdivision.chars, hlead]
      simp [partChars]
    have hnot : ¬ IsString t := fun hstring => hcs (hchars ▸ hstring.endsWord _)
    refine ⟨t, _, (hdivision.token _ List.mem_cons_self).resolve_right hnot, hchars,
      hdivision.endsWord_of_cons.resolve_left hnot, gap, parts, hdivision.tail, ?_⟩
    rw [← hstrings, List.map_cons, strings_cons_of_not_isString hnot]

/-- A word character lengthens the word that it stands before, or is a word of its own. -/
theorem cons_wordChar (h : HasStrings cs quoted) {c : Char} (hc : isWordChar c = true) :
    HasStrings (c :: cs) quoted := by
  by_cases hcs : EndsWord cs
  · have hword : IsWord (String.ofList [c]) := by simpa [IsWord] using hc
    simpa using h.word_append hword hcs
  · obtain ⟨t, rest, ht, rfl, hrest, hstrings⟩ := h.eq_word_append hcs
    have hword : IsWord (String.ofList (c :: t.toList)) := by
      rw [IsWord, String.toList_ofList]
      exact ⟨List.cons_ne_nil _ _, List.forall_mem_cons.mpr ⟨hc, ht.2⟩⟩
    simpa using hstrings.word_append hword hrest

end HasStrings

def isUnquoted (text : String) : Bool :=
  text.toList.all fun c => Text.isBlank c || isWordChar c

theorem isUnquoted_of_isWord (h : IsWord t) : isUnquoted t = true :=
  List.all_eq_true.mpr fun c hc => by simp [h.2 c hc]

/-- Words and blanks add no strings, whatever they run together with. -/
theorem HasStrings.unquoted_append (h : HasStrings cs quoted) (htext : isUnquoted text = true) :
    HasStrings (text.toList ++ cs) quoted := by
  unfold isUnquoted at htext
  generalize text.toList = ds at htext ⊢
  induction ds with
  | nil => exact h
  | cons d ds ih =>
    simp only [List.all_cons, Bool.and_eq_true, Bool.or_eq_true] at htext
    obtain ⟨hblank | hword, hds⟩ := htext
    · exact (ih hds).cons_blank hblank
    · exact (ih hds).cons_wordChar hword

theorem HasStrings.token_append (h : HasStrings cs quoted) (ht : IsToken t ∨ t = "") :
    HasStrings (t.toList ++ cs) (strings [t] ++ quoted) := by
  rcases ht with (hword | hstring) | rfl
  · rw [strings_cons_of_not_isString hword.not_isString]
    exact h.unquoted_append (isUnquoted_of_isWord hword)
  · rw [strings_cons_of_isString hstring]
    exact h.string_append hstring
  · exact h

end Token

namespace TypeScript

open Token

theorem hasStrings_piece_append {cs : List Char} {quoted : List String} {p : Piece}
    (h : HasStrings cs quoted) (hfixed : p.fixedAll isUnquoted = true)
    (htoken : ∀ t ∈ p.source?, IsToken t ∨ t = "") :
    HasStrings ((p.text []).toList ++ cs) (strings p.source?.toList ++ quoted) := by
  cases p with
  | fixed text => exact h.unquoted_append hfixed
  | token t => exact h.token_append (htoken t rfl)
  | type name =>
    rcases typeName_nil name with hname | ⟨rfl, hname⟩
    · rw [Piece.text, hname]
      exact h.token_append (htoken name rfl)
    · rw [Piece.text, hname]
      exact h.unquoted_append (by decide)

theorem hasStrings_chars {ps : List Piece} (hfixed : ps.all (Piece.fixedAll isUnquoted) = true)
    (htokens : ∀ t ∈ sources ps, IsToken t ∨ t = "") :
    HasStrings (chars [] ps) (strings (sources ps)) := by
  induction ps with
  | nil => exact .nil
  | cons p ps ih =>
    simp only [List.all_cons, Bool.and_eq_true] at hfixed
    simp only [sources_cons, List.mem_append, Option.mem_toList, or_imp, forall_and] at htokens
    rw [chars_cons, sources_cons, strings_append]
    exact hasStrings_piece_append (ih hfixed.2 htokens.2) hfixed.1 htokens.1

theorem hasStrings_line {statement : Statement}
    (htokens : ∀ t ∈ sources (pieces statement), IsToken t ∨ t = "") :
    HasStrings (line [] statement).toList (strings (sources (pieces statement))) := by
  rw [toList_line]
  exact hasStrings_chars (all_fixedAll (by decide) statement) htokens

end TypeScript

namespace Statement

variable {command : String} {args : List String} {statement : Statement}

theorem not_isString_of_mem_keywords (rule : Rule) :
    ∀ t ∈ rule.keywords, ¬ Token.IsString t := by
  cases rule <;> decide

/-- The tokens that a line takes over have the strings of its source, unless they are those of a
function or of a counting loop. -/
theorem strings_sources (h : Shape command args statement)
    (hfunction : statement.kind ≠ .functionDecl) (hrepeat : statement.kind ≠ .repeatLoop) :
    Token.strings (TypeScript.sources (TypeScript.pieces statement)) =
      Token.strings (command :: args) := by
  have hsign : ¬ Token.IsString "=" := by decide
  have hkeyword (rule : Rule) {t : String} (ht : t ∈ rule.keywords) (ts : List String) :
      Token.strings (t :: ts) = Token.strings ts :=
    Token.strings_cons_of_not_isString (not_isString_of_mem_keywords rule t ht) ts
  cases h with
  | variableDecl primitive | constantDecl primitive =>
    have htype := not_isString_of_mem_keywords .variableDecl _ primitive
    have hconst : ¬ Token.IsString "const" := by decide
    simp [-TypeScript.sources_joined, TypeScript.pieces, TypeScript.Piece.source?, Token.strings,
      List.filter_cons, hsign, htype, hconst]
  | assign other =>
    simp [-TypeScript.sources_joined, TypeScript.pieces, TypeScript.Piece.source?, Token.strings,
      List.filter_cons, hsign]
  | functionDecl other => exact absurd rfl hfunction
  | blockEnd | elseBranch => decide
  | output keyword other =>
    rw [hkeyword .output keyword]
    simp [-TypeScript.sources_joined, TypeScript.pieces, TypeScript.Piece.source?]
  | returnValue other =>
    rw [hkeyword .returnValue (by decide)]
    cases args <;> simp [-List.map_cons, -TypeScript.sources_joined, TypeScript.pieces,
      TypeScript.Piece.source?]
  | conditional isElif other =>
    rw [hkeyword .conditional (by cases isElif <;> decide)]
    simp [-TypeScript.sources_joined, TypeScript.pieces, TypeScript.Piece.source?]
  | whileLoop other =>
    rw [hkeyword .whileLoop (by decide)]
    simp [-TypeScript.sources_joined, TypeScript.pieces, TypeScript.Piece.source?]
  | repeatLoop other => exact absurd rfl hrepeat
  | call other =>
    simp [-TypeScript.sources_joined, TypeScript.pieces, TypeScript.Piece.source?]

end Statement

namespace Translator

open TypeScript

/-- The line that a single line of source is translated into is divided into tokens again, and among
them are the strings of the source, as they are written and in their order. A function may name a
parameter twice and a loop writes its counter three times, so these two are left out. -/
theorem strings_translate (source code : String) (hsource : '\n' ∉ source.toList)
    (h : translate {} source = .ok code) :
    ∃ tokens, Token.tokenize source = .ok tokens ∧
      ∀ statement, Statement.ofTokens tokens = .ok statement → statement.kind ≠ .functionDecl →
        statement.kind ≠ .repeatLoop →
          code = line [] statement ∧
            ∃ written, Token.tokenize code = .ok written ∧
              Token.strings written = Token.strings tokens := by
  rcases hblank : Text.strip source.toList with _ | ⟨c, cs⟩
  · have htokens : Token.tokenize (String.ofList (Text.strip source.toList)) = .ok [] := by
      rw [hblank]
      exact Token.tokenize_spaced (List.forall_mem_nil Token.IsToken) none
    exact ⟨[], Token.tokenize_of_strip htokens none, fun statement hread => by cases hread⟩
  · have hnonblank : source ∈ nonBlankLines source := by
      simp [nonBlankLines, Text.splitLines_of_not_mem hsource, hblank]
    obtain ⟨statement, hread, rfl⟩ := (translate_line_eq_ok_iff rfl hnonblank).mp h
    obtain ⟨command, args, htokens, hshape⟩ := hread.exists_shape
    refine ⟨command :: args, Token.tokenize_of_strip htokens none, fun other hother => ?_⟩
    have hsame : other = statement := by
      obtain ⟨tokens, htokens', hstatement⟩ := hread
      cases htokens.symm.trans htokens'
      exact Except.ok.inj (hother.symm.trans hstatement)
    rw [hsame]
    intro hfunction hrepeat
    refine ⟨rfl, ?_⟩
    rw [← Statement.strings_sources hshape hfunction hrepeat]
    refine (hasStrings_line fun t ht => ?_).exists_tokenize none
    exact (Statement.mem_of_mem_sources hshape ht).imp_left (Token.isToken_of_tokenize htokens)

/-- A call whose name is a string, with an empty string and a string that looks like a line; no
blank stands around the quotes. -/
theorem strings_translate_call :
    let source := "\"f\"a\"\"\"x = 1, y;\"b"
    let code := "\"f\"(a, \"\", \"x = 1, y;\", b);"
    '\n' ∉ source.toList ∧ translate {} source = .ok code ∧
      ∃ written, Token.tokenize code = .ok written ∧
        Token.strings written = ["\"f\"", "\"\"", "\"x = 1, y;\""] := by
  intro source code
  have hsource : '\n' ∉ source.toList := by decide
  have hname : Token.IsString "\"f\"" := ⟨['f'], by decide, by decide⟩
  have hempty : Token.IsString "\"\"" := ⟨[], by decide, by decide⟩
  have hline : Token.IsString "\"x = 1, y;\"" := ⟨"x = 1, y;".toList, by decide, by decide⟩
  have hfirst : Token.IsWord "a" := ⟨by decide, List.all_eq_true.mp (by decide)⟩
  have hlast : Token.IsWord "b" := ⟨by decide, List.all_eq_true.mp (by decide)⟩
  have hdivision : Token.IsDivision source.toList []
      [("\"f\"", []), ("a", []), ("\"\"", []), ("\"x = 1, y;\"", []), ("b", [])] :=
    { chars := by decide
      lead_blank := by simp [Token.IsBlankRun]
      token := by
        simp only [List.forall_mem_cons]
        exact ⟨.inr hname, .inl hfirst, .inr hempty, .inr hline, .inl hlast, by simp⟩
      gap_blank := by simp [Token.IsBlankRun]
      apart := by simp [hname, hempty, hline] }
  have hread : Token.tokenize source = .ok ["\"f\"", "a", "\"\"", "\"x = 1, y;\"", "b"] :=
    Token.tokenize_eq_ok_iff_isDivision.mpr ⟨_, _, hdivision, rfl⟩
  have hstatement : Statement.OfLine source.toList
      (.call "\"f\"" ["a", "\"\"", "\"x = 1, y;\"", "b"]) := by
    rw [← String.ofList_toList (s := source)] at hread
    exact ⟨_, hread, rfl⟩
  have hlines : Program.strippedLines source = [source.toList] := by decide
  have hcode : translate {} source = .ok code := by
    rw [translate_eq_ok_iff rfl, hlines]
    exact ⟨_, .cons hstatement .nil, by decide⟩
  obtain ⟨tokens, htokens, hstrings⟩ := strings_translate source code hsource hcode
  cases hread.symm.trans htokens
  obtain ⟨-, written, hwritten, heq⟩ := hstrings _ rfl (by decide) (by decide)
  refine ⟨hsource, hcode, written, hwritten, heq.trans ?_⟩
  simp [Token.strings, hname, hempty, hline, hfirst.not_isString, hlast.not_isString]

end Translator
end Linewise
