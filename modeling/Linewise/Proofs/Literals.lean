import Linewise.Proofs.Braces
import Linewise.Proofs.LineByLine
import Linewise.Proofs.Spelling
import Mathlib

/-! # Literals of the written text

Strings are taken over as they stand, but TypeScript reads them by a rule of its own: a backslash
takes the next character with it, and no line end may stand between the quotes. A written line is
closed for such a reader exactly if each of its strings is.
-/

namespace Linewise.TypeScript

inductive LiteralState where
  | outside
  | inside
  /-- In a literal behind a backslash. -/
  | escaped
deriving DecidableEq, Repr

/-- The line ends that may not stand in a literal. -/
def isLineEnd (c : Char) : Bool :=
  c = '\n' || c = '\r'

namespace LiteralState

/-- One character further. A line end in a literal, taken by a backslash or not, stops the
reader. -/
def step : LiteralState → Char → Option LiteralState
  | outside, c => if c = '"' then some inside else some outside
  | inside, c =>
    if isLineEnd c then none
    else if c = '"' then some outside
    else if c = '\\' then some escaped
    else some inside
  | escaped, c => if isLineEnd c then none else some inside

def scan (state : LiteralState) (cs : List Char) : Option LiteralState :=
  cs.foldlM step state

variable {state : LiteralState} {cs : List Char}

@[simp] theorem scan_nil (state : LiteralState) : state.scan [] = some state := rfl

@[simp] theorem scan_cons (state : LiteralState) (c : Char) (cs : List Char) :
    state.scan (c :: cs) = (state.step c).bind fun next => next.scan cs :=
  List.foldlM_cons ..

theorem scan_append (state : LiteralState) (cs ds : List Char) :
    state.scan (cs ++ ds) = (state.scan cs).bind fun next => next.scan ds :=
  List.foldlM_append

theorem scan_concat (state : LiteralState) (cs : List Char) (c : Char) :
    state.scan (cs ++ [c]) = (state.scan cs).bind fun next => next.step c := by
  simp [scan_append]

end LiteralState

/-- Every literal that is opened is closed again, and none holds a line end. -/
def LiteralsClosed (cs : List Char) : Prop :=
  LiteralState.outside.scan cs = some .outside

instance (cs : List Char) : Decidable (LiteralsClosed cs) :=
  inferInstanceAs (Decidable (_ = _))

def finalBackslashes (cs : List Char) : Nat :=
  (cs.reverse.takeWhile (· = '\\')).length

theorem finalBackslashes_concat (cs : List Char) (c : Char) :
    finalBackslashes (cs ++ [c]) = if c = '\\' then finalBackslashes cs + 1 else 0 := by
  by_cases hc : c = '\\' <;> simp [finalBackslashes, hc]

theorem finalBackslashes_cons_of_ne {c : Char} (hc : c ≠ '\\') (cs : List Char) :
    finalBackslashes (c :: cs) = finalBackslashes cs := by
  rw [finalBackslashes, List.reverse_cons, List.takeWhile_append]
  split
  · next hall => simp [finalBackslashes, hc, hall]
  · rfl

/-- Within a literal the reader is stopped by a line end, and otherwise it stands behind a
backslash that takes the next character if there is an odd number of them. -/
theorem LiteralState.scan_inside {cs : List Char} (hquote : '"' ∉ cs) :
    inside.scan cs =
      if cs.any isLineEnd then none
      else if Even (finalBackslashes cs) then some inside else some escaped := by
  induction cs using List.reverseRecOn with
  | nil => rfl
  | append_singleton cs c ih =>
    simp only [List.mem_append, List.mem_singleton, not_or] at hquote
    rw [scan_concat, ih hquote.1, finalBackslashes_concat]
    simp only [List.any_append, List.any_cons, List.any_nil, Bool.or_false, Bool.or_eq_true]
    by_cases hends : cs.any isLineEnd = true
    · simp [hends]
    · by_cases hend : isLineEnd c = true
      · by_cases heven : Even (finalBackslashes cs) <;> simp [hends, hend, heven, step]
      · by_cases hc : c = '\\'
        · have hback : isLineEnd '\\' = false := by decide
          by_cases heven : Even (finalBackslashes cs) <;>
            simp [hends, hback, heven, step, hc, Nat.even_add_one]
        · by_cases heven : Even (finalBackslashes cs) <;>
            simp [hends, hend, heven, step, hc, Ne.symm hquote.2]

/-- Whether a string is a literal of TypeScript: it holds no line end, and before its closing quote
stands an even number of backslashes, so that none of them takes the quote. -/
def IsLiteral (t : String) : Prop :=
  (∀ c ∈ t.toList, isLineEnd c = false) ∧ Even (finalBackslashes t.toList.dropLast)

/-- A text behind which a reader from within a literal stands in a literal again, and behind which
no backslash takes the next character. -/
structure IsSteady (cs : List Char) : Prop where
  inside : LiteralState.inside.scan cs = some .inside
  outside : LiteralState.outside.scan cs ≠ some .escaped

theorem scan_string {inside : List Char} (hquote : '"' ∉ inside) :
    LiteralState.outside.scan ('"' :: inside ++ ['"']) =
      if inside.any isLineEnd then none
      else if Even (finalBackslashes inside) then some .outside else some .inside := by
  rw [LiteralState.scan_concat, LiteralState.scan_cons]
  change ((LiteralState.inside.scan inside).bind _) = _
  rw [LiteralState.scan_inside hquote]
  split_ifs <;> rfl

theorem scan_outside_of_quote_not_mem {cs : List Char} (hquote : '"' ∉ cs) :
    LiteralState.outside.scan cs = some .outside := by
  induction cs with
  | nil => rfl
  | cons c cs ih =>
    rw [List.mem_cons, not_or] at hquote
    rw [LiteralState.scan_cons, LiteralState.step, if_neg (Ne.symm hquote.1)]
    exact ih hquote.2

/-- A reader from within a literal takes the quotes of a string for those between two literals. -/
theorem isSteady_string {t : String} (h : Token.IsString t) : IsSteady t.toList := by
  obtain ⟨inside, hquote, htext⟩ := h
  rw [htext]
  refine ⟨?_, ?_⟩
  · rw [LiteralState.scan_concat, LiteralState.scan_cons]
    change ((LiteralState.outside.scan inside).bind _) = _
    rw [scan_outside_of_quote_not_mem hquote]
    rfl
  · rw [scan_string hquote]
    split_ifs <;> simp

theorem literalsClosed_string_iff {t : String} (h : Token.IsString t) :
    LiteralsClosed t.toList ↔ IsLiteral t := by
  obtain ⟨inside, hquote, htext⟩ := h
  have hends : (∀ c ∈ '"' :: inside ++ ['"'], isLineEnd c = false) ↔
      inside.any isLineEnd = false := by
    have hend : isLineEnd '"' = false := by decide
    simp [hend, or_imp, forall_and]
  rw [IsLiteral, LiteralsClosed, htext, hends, List.dropLast_concat,
    finalBackslashes_cons_of_ne (by decide), scan_string hquote]
  split_ifs <;> simp_all

def isInert (text : String) : Bool :=
  text.toList.all fun c => c != '"' && c != '\\' && !isLineEnd c

theorem scan_inert {text : String} (h : isInert text = true) {state : LiteralState}
    (hstate : state ≠ .escaped) : state.scan text.toList = some state := by
  unfold isInert at h
  generalize text.toList = cs at h ⊢
  induction cs with
  | nil => rfl
  | cons c cs ih =>
    simp only [List.all_cons, Bool.and_eq_true, bne_iff_ne, Bool.not_eq_true'] at h
    obtain ⟨⟨⟨hquote, hback⟩, hend⟩, hcs⟩ := h
    have hstep : state.step c = some state := by
      cases state with
      | outside => exact if_neg hquote
      | inside => simp [LiteralState.step, hquote, hback, hend]
      | escaped => exact absurd rfl hstate
    rw [LiteralState.scan_cons, hstep]
    exact ih hcs

theorem isSteady_inert {text : String} (h : isInert text = true) : IsSteady text.toList :=
  ⟨scan_inert h (by decide),
    by simp [scan_inert h (show LiteralState.outside ≠ .escaped by decide)]⟩

theorem literalsClosed_inert {text : String} (h : isInert text = true) :
    LiteralsClosed text.toList :=
  scan_inert h (by decide)

theorem isInert_word {t : String} (h : Token.IsWord t) : isInert t = true := by
  have hnot {c d : Char} (hc : c ∈ t.toList) (hd : Token.isWordChar d = false) : c ≠ d := by
    rintro rfl
    rw [h.2 c hc] at hd
    cases hd
  refine List.all_eq_true.mpr fun c hc => ?_
  simp [isLineEnd, hnot hc (show Token.isWordChar '"' = false by decide),
    hnot hc (show Token.isWordChar '\\' = false by decide),
    hnot hc (show Token.isWordChar '\n' = false by decide),
    hnot hc (show Token.isWordChar '\r' = false by decide)]

theorem isSteady_token {t : String} (h : Token.IsToken t ∨ t = "") : IsSteady t.toList := by
  rcases h with (hword | hstring) | rfl
  · exact isSteady_inert (isInert_word hword)
  · exact isSteady_string hstring
  · exact isSteady_inert (by decide)

theorem literalsClosed_token_iff {t : String} (h : Token.IsToken t ∨ t = "") :
    LiteralsClosed t.toList ↔ (Token.IsString t → IsLiteral t) := by
  rcases h with (hword | hstring) | rfl
  · exact iff_of_true (literalsClosed_inert (isInert_word hword))
      fun hstring => absurd hstring hword.not_isString
  · simp [literalsClosed_string_iff hstring, hstring]
  · exact iff_of_true (by decide) fun hstring => absurd rfl hstring.toList_ne_nil

theorem scan_inside_flatMap {α : Type} {f : α → List Char} {xs : List α}
    (h : ∀ x ∈ xs, IsSteady (f x)) :
    LiteralState.inside.scan (xs.flatMap f) = some .inside := by
  induction xs with
  | nil => rfl
  | cons x xs ih =>
    obtain ⟨hx, hxs⟩ := List.forall_mem_cons.mp h
    rw [List.flatMap_cons, LiteralState.scan_append, hx.inside]
    exact ih hxs

/-- Once a text has left a literal open, the steady texts behind it cannot close it for good. -/
theorem literalsClosed_flatMap {α : Type} {f : α → List Char} {xs : List α}
    (h : ∀ x ∈ xs, IsSteady (f x)) :
    LiteralsClosed (xs.flatMap f) ↔ ∀ x ∈ xs, LiteralsClosed (f x) := by
  induction xs with
  | nil => simp [LiteralsClosed]
  | cons x xs ih =>
    obtain ⟨hx, hxs⟩ := List.forall_mem_cons.mp h
    rw [List.forall_mem_cons, ← ih hxs, LiteralsClosed, LiteralsClosed, List.flatMap_cons,
      LiteralState.scan_append]
    cases hscan : LiteralState.outside.scan (f x) with
    | none => simp
    | some state =>
      cases state with
      | outside => simp [LiteralsClosed]
      | inside => simp [scan_inside_flatMap hxs]
      | escaped => exact absurd hscan hx.outside

theorem typeName_nil (name : String) :
    typeName [] name = name ∨ name = "float" ∧ typeName [] name = "number" := by
  by_cases h : name = "float"
  · exact .inr ⟨h, by rw [h]; rfl⟩
  · have hget : Entries.get? name (aliasTable []) = none := if_neg (Ne.symm h)
    exact .inl (by rw [typeName, hget]; rfl)

variable {statement : Statement}

/-- A piece of a line is steady, and only a string can leave a literal open. -/
theorem literalsClosed_piece_iff {p : Piece} (hp : p ∈ pieces statement)
    (htoken : ∀ t ∈ p.source?, Token.IsToken t ∨ t = "") :
    IsSteady (p.text []).toList ∧
      (LiteralsClosed (p.text []).toList ↔ ∀ t ∈ p.source?, Token.IsString t → IsLiteral t) := by
  cases p with
  | fixed text =>
    have hinert : isInert text = true := fixed_of_mem_pieces (by decide) hp
    exact ⟨isSteady_inert hinert,
      iff_of_true (literalsClosed_inert hinert) (by simp [Piece.source?])⟩
  | token t =>
    have ht := htoken t rfl
    exact ⟨isSteady_token ht, by simp [Piece.source?, Piece.text, literalsClosed_token_iff ht]⟩
  | type name =>
    simp only [Piece.text, Piece.source?, Option.mem_some, forall_eq']
    rcases typeName_nil name with h | ⟨hname, h⟩
    · have ht := htoken name rfl
      rw [h]
      exact ⟨isSteady_token ht, literalsClosed_token_iff ht⟩
    · have hinert : isInert "number" = true := by decide
      have hword : Token.IsWord "float" := ⟨by decide, List.all_eq_true.mp (by decide)⟩
      rw [h, hname]
      exact ⟨isSteady_inert hinert,
        iff_of_true (literalsClosed_inert hinert) fun hstring => absurd hstring hword.not_isString⟩

theorem literalsClosed_line_iff
    (htokens : ∀ t ∈ sources (pieces statement), Token.IsToken t ∨ t = "") :
    LiteralsClosed (line [] statement).toList ↔
      ∀ t ∈ sources (pieces statement), Token.IsString t → IsLiteral t := by
  have hpiece {p : Piece} (hp : p ∈ pieces statement) :=
    literalsClosed_piece_iff hp fun t ht =>
      htokens t (List.mem_flatMap.mpr ⟨p, hp, Option.mem_toList.mpr ht⟩)
  rw [toList_line, chars, literalsClosed_flatMap fun p hp => (hpiece hp).1]
  simp only [sources, List.mem_flatMap, Option.mem_toList]
  constructor
  · rintro h t ⟨p, hp, ht⟩
    exact (hpiece hp).2.mp (h p hp) t ht
  · exact fun h p hp => (hpiece hp).2.mpr fun t ht => h t ⟨p, hp, ht⟩

end Linewise.TypeScript

namespace Linewise.Program

theorem HasToken.newline_not_mem {text t : String} (h : HasToken text t) : '\n' ∉ t.toList := by
  obtain ⟨line, hline, hmem⟩ := h.exists_line
  exact fun hc => Text.newline_not_mem_of_mem_splitLines hline (hmem '\n' hc)

theorem splitOn_code {aliases : Entries String} {text : String} {program : Program}
    (h : ofText text = .ok program) (haliases : ∀ e ∈ aliases, '\n' ∉ e.2.toList)
    (hne : program.statements ≠ []) :
    (TypeScript.code aliases program).toList.splitOn '\n' =
      (TypeScript.lines aliases program).map String.toList := by
  rw [TypeScript.code, String.toList_intercalate]
  refine List.splitOn_intercalate '\n' ?_ (by simpa [TypeScript.lines] using hne)
  simp only [TypeScript.lines, List.map_map, List.forall_mem_map]
  refine fun statement hmem => TypeScript.newline_not_mem_line haliases fun t ht => ?_
  rcases hasToken_of_mem_sources h hmem ht with htoken | rfl
  · exact htoken.newline_not_mem
  · simp

end Linewise.Program

namespace Linewise.Translator

open TypeScript

/-- A line of a translation under the settings that hold without any project is closed exactly if
each string that is written on it holds no line end and has an even number of backslashes before
its closing quote. -/
theorem literalsClosed_translate_iff (text code : String) (h : translate {} text = .ok code) :
    ∃ program, Program.ofText text = .ok program ∧
      code = "\n".intercalate (program.statements.map (line [])) ∧
      (program.statements ≠ [] →
        code.toList.splitOn '\n' = program.statements.map fun s => (line [] s).toList) ∧
      ∀ statement ∈ program.statements,
        (LiteralsClosed (line [] statement).toList ↔
          ∀ t ∈ sources (pieces statement), Token.IsString t → IsLiteral t) := by
  obtain ⟨program, hparse, rfl⟩ := Attempt.map_eq_ok_iff.mp h
  have hprogram : Program.ofText text = .ok program := by rwa [parse_of_unchecked rfl] at hparse
  refine ⟨program, hprogram, rfl, fun hne => ?_, fun statement hmem => ?_⟩
  · rw [Program.splitOn_code hprogram (by simp) hne, lines, List.map_map]
    rfl
  · refine literalsClosed_line_iff fun t ht => ?_
    exact (Program.hasToken_of_mem_sources hprogram hmem ht).imp_left Program.HasToken.isToken

theorem literalsClosed_translate_backslashes :
    let text := "say \"a\\\\\" x\nsay \"b\\\""
    let code := "console.log(\"a\\\\\", x);\nconsole.log(\"b\\\");"
    translate {} text = .ok code ∧
      ∃ program, Program.ofText text = .ok program ∧
        code = "\n".intercalate (program.statements.map (line [])) ∧
        (program.statements ≠ [] →
          code.toList.splitOn '\n' = program.statements.map fun s => (line [] s).toList) ∧
        ∀ statement ∈ program.statements,
          (LiteralsClosed (line [] statement).toList ↔
            ∀ t ∈ sources (pieces statement), Token.IsString t → IsLiteral t) := by
  intro text code
  have hfirst : ∀ t ∈ ["say", "\"a\\\\\"", "x"], Token.IsToken t := by
    simp only [List.forall_mem_cons]
    exact ⟨.inl ⟨by decide, List.all_eq_true.mp (by decide)⟩,
      .inr ⟨['a', '\\', '\\'], by decide, by decide⟩,
      .inl ⟨by decide, List.all_eq_true.mp (by decide)⟩, by simp⟩
  have hsecond : ∀ t ∈ ["say", "\"b\\\""], Token.IsToken t := by
    simp only [List.forall_mem_cons]
    exact ⟨.inl ⟨by decide, List.all_eq_true.mp (by decide)⟩,
      .inr ⟨['b', '\\'], by decide, by decide⟩, by simp⟩
  have hlines : Program.strippedLines text = [(" ".intercalate ["say", "\"a\\\\\"", "x"]).toList,
      (" ".intercalate ["say", "\"b\\\""]).toList] := by decide
  have hcode : translate {} text = .ok code := by
    rw [translate_eq_ok_iff rfl, hlines]
    exact ⟨_, .cons (Statement.ofLine_spaced hfirst rfl)
      (.cons (Statement.ofLine_spaced hsecond rfl) .nil), by decide⟩
  exact ⟨hcode, literalsClosed_translate_iff text code hcode⟩

theorem translate_spaced {tokens : List String} {text : String} {statement : Statement}
    (htokens : ∀ t ∈ tokens, Token.IsToken t) (h : Statement.ofTokens tokens = .ok statement)
    (hlines : Program.strippedLines text = [(" ".intercalate tokens).toList]) :
    translate {} text = .ok (line [] statement) := by
  rw [translate_of_ofText rfl (Program.ofText_spaced htokens h hlines)]
  exact congrArg Except.ok String.intercalate_singleton

/-- A backslash before the closing quote takes it in TypeScript, and a carriage return may stand
between the quotes of a source line but not in a literal. -/
theorem not_literalsClosed_translate :
    (translate {} "say \"a\\\"" = .ok "console.log(\"a\\\");" ∧
      ¬ LiteralsClosed "console.log(\"a\\\");".toList) ∧
    translate {} "say \"a\rb\"" = .ok "console.log(\"a\rb\");" ∧
      ¬ LiteralsClosed "console.log(\"a\rb\");".toList := by
  have htokens {t : String} (ht : Token.IsString t) : ∀ u ∈ ["say", t], Token.IsToken u := by
    simp only [List.forall_mem_cons]
    exact ⟨.inl ⟨by decide, List.all_eq_true.mp (by decide)⟩, .inr ht, by simp⟩
  have hbackslash : Token.IsString "\"a\\\"" := ⟨['a', '\\'], by decide, by decide⟩
  have hreturn : Token.IsString "\"a\rb\"" := ⟨['a', '\r', 'b'], by decide, by decide⟩
  exact ⟨⟨translate_spaced (htokens hbackslash) rfl (by decide), by decide⟩,
    translate_spaced (htokens hreturn) rfl (by decide), by decide⟩

end Linewise.Translator
