import Linewise.Proofs.Shape
import Linewise.TypeScript
import Mathlib.Tactic.Tauto

/-! # The pieces of a written line

The line of a statement is made of fixed texts, of tokens that are taken over and of names of
types that are looked up. Which pieces these are does not depend on the aliases, and every token
among them stands on the line that was read.
-/

namespace Linewise.TypeScript

inductive Piece where
  | fixed (text : String)
  | token (t : String)
  | type (name : String)

def Piece.text (aliases : Entries String) : Piece → String
  | .fixed text => text
  | .token t => t
  | .type name => typeName aliases name

def Piece.source? : Piece → Option String
  | .fixed _ => none
  | .token t => some t
  | .type name => some name

def joined (mark : String) (groups : List (List Piece)) : List Piece :=
  [Piece.fixed mark].intercalate groups

def pieces : Statement → List Piece
  | .variableDecl name type constant value =>
    [.fixed (if constant then "const " else "let "), .token name, .fixed ": ", .type type,
      .fixed " = "] ++ joined " " (value.map fun t => [.token t]) ++ [.fixed ";"]
  | .functionDecl name params returns =>
    [.fixed "function ", .token name, .fixed "("] ++
      joined ", " (params.map fun p => [.token p.1, .fixed ": ", .token p.2]) ++
      [.fixed "): ", .type returns, .fixed " \x7b"]
  | .blockEnd => [.fixed "\x7d"]
  | .assign name value =>
    [.token name, .fixed " = "] ++ joined " " (value.map fun t => [.token t]) ++ [.fixed ";"]
  | .output args =>
    [.fixed "console.log("] ++ joined ", " (args.map fun t => [.token t]) ++ [.fixed ");"]
  | .returnValue [] => [.fixed "return;"]
  | .returnValue value =>
    [.fixed "return "] ++ joined " " (value.map fun t => [.token t]) ++ [.fixed ";"]
  | .conditional condition isElif =>
    [.fixed (if isElif then "\x7d else " else ""), .fixed "if ("] ++
      joined " " (condition.map fun t => [.token t]) ++ [.fixed ") \x7b"]
  | .elseBranch => [.fixed "\x7d else \x7b"]
  | .whileLoop condition =>
    [.fixed "while ("] ++ joined " " (condition.map fun t => [.token t]) ++ [.fixed ") \x7b"]
  | .repeatLoop times counter =>
    [.fixed "for (let ", .token counter, .fixed " = 0; ", .token counter, .fixed " < ",
      .token times, .fixed "; ", .token counter, .fixed "++) \x7b"]
  | .call name args =>
    [.token name, .fixed "("] ++ joined ", " (args.map fun t => [.token t]) ++ [.fixed ");"]

theorem flatMap_intercalate {α β : Type} (f : α → List β) (sep : List α) (groups : List (List α)) :
    (sep.intercalate groups).flatMap f =
      (sep.flatMap f).intercalate (groups.map fun group => group.flatMap f) := by
  induction groups with
  | nil => rfl
  | cons group groups ih =>
    cases groups with
    | nil => simp
    | cons next rest =>
      rw [List.intercalate_cons_cons, List.flatMap_append, List.flatMap_append, ih]
      rw [List.map_cons, List.map_cons, List.map_cons, List.intercalate_cons_cons]

def chars (aliases : Entries String) (ps : List Piece) : List Char :=
  ps.flatMap fun p => (p.text aliases).toList

@[simp] theorem chars_nil (aliases : Entries String) : chars aliases [] = [] := rfl

@[simp] theorem chars_cons (aliases : Entries String) (p : Piece) (ps : List Piece) :
    chars aliases (p :: ps) = (p.text aliases).toList ++ chars aliases ps := rfl

@[simp] theorem chars_append (aliases : Entries String) (ps qs : List Piece) :
    chars aliases (ps ++ qs) = chars aliases ps ++ chars aliases qs :=
  List.flatMap_append

theorem chars_joined (aliases : Entries String) (mark : String) (groups : List (List Piece)) :
    chars aliases (joined mark groups) = mark.toList.intercalate (groups.map (chars aliases)) := by
  rw [chars, joined, flatMap_intercalate, List.flatMap_singleton]
  rfl

@[simp] theorem chars_joined_tokens (aliases : Entries String) (mark : String)
    (tokens : List String) :
    chars aliases (joined mark (tokens.map fun t => [.token t])) =
      (mark.intercalate tokens).toList := by
  rw [chars_joined, String.toList_intercalate, List.map_map]
  congr 1
  exact List.map_congr_left fun t _ => List.append_nil t.toList

@[simp] theorem chars_joined_params (aliases : Entries String) (mark : String)
    (params : List (String × String)) :
    chars aliases (joined mark (params.map fun p => [.token p.1, .fixed ": ", .token p.2])) =
      (mark.intercalate (params.map fun p => p.1 ++ ": " ++ p.2)).toList := by
  rw [chars_joined, String.toList_intercalate, List.map_map, List.map_map]
  congr 1
  exact List.map_congr_left fun p _ => by simp [Piece.text]

/-- The line of a statement is written by its pieces. -/
theorem toList_line (aliases : Entries String) (statement : Statement) :
    (line aliases statement).toList = chars aliases (pieces statement) := by
  unfold line
  cases statement with
  | returnValue value =>
    cases value with
    | nil => simp [pieces, Piece.text]
    | cons t ts => simp [-List.map_cons, pieces, spaced, Piece.text]
  | functionDecl name params returns => simp [pieces, listed, Piece.text]
  | output args | call name args => simp [pieces, listed, Piece.text]
  | variableDecl | assign | conditional | whileLoop => simp [pieces, spaced, Piece.text]
  | blockEnd | elseBranch | repeatLoop => simp [pieces, Piece.text]

/-- Whether the text of a piece has a property, if the piece comes from no token. -/
def Piece.fixedAll (property : String → Bool) : Piece → Bool
  | .fixed text => property text
  | _ => true

theorem all_joined {f : Piece → Bool} {mark : String} (hmark : f (.fixed mark) = true)
    (groups : List (List Piece)) :
    (joined mark groups).all f = groups.all fun group => group.all f := by
  induction groups with
  | nil => rfl
  | cons group groups ih =>
    cases groups with
    | nil => simp [joined]
    | cons next rest =>
      rw [joined] at ih ⊢
      rw [List.intercalate_cons_cons, List.all_append, List.all_append, ih]
      simp [hmark]

def isPlain (text : String) : Bool :=
  !text.toList.contains '\n' && !text.toList.contains '"'

def fixedTexts : List String :=
  ["const ", "let ", ": ", " = ", " ", ";", "function ", "(", ", ", "): ", " \x7b", "\x7d",
    "console.log(", ");", "return;", "return ", "\x7d else ", "", "if (", ") \x7b",
    "\x7d else \x7b", "while (", "for (let ", " = 0; ", " < ", "; ", "++) \x7b"]

theorem all_fixedAll {property : String → Bool} (h : ∀ text ∈ fixedTexts, property text = true)
    (statement : Statement) : (pieces statement).all (Piece.fixedAll property) = true := by
  simp only [fixedTexts, List.forall_mem_cons] at h
  cases statement with
  | returnValue value => cases value <;> simp [pieces, all_joined, Piece.fixedAll, h]
  | variableDecl name type constant value =>
    cases constant <;> simp [pieces, all_joined, Piece.fixedAll, h]
  | conditional condition isElif =>
    cases isElif <;> simp [pieces, all_joined, Piece.fixedAll, h]
  | _ => simp [pieces, all_joined, Piece.fixedAll, h]

theorem fixed_of_mem_pieces {property : String → Bool}
    (h : ∀ text ∈ fixedTexts, property text = true) {statement : Statement} {text : String}
    (hmem : Piece.fixed text ∈ pieces statement) : property text = true :=
  List.all_eq_true.mp (all_fixedAll h statement) _ hmem

theorem fixed_isPlain (statement : Statement) :
    (pieces statement).all (Piece.fixedAll isPlain) = true :=
  all_fixedAll (by decide) statement

theorem not_mem_of_mem_pieces {statement : Statement} {text : String}
    (h : Piece.fixed text ∈ pieces statement) : '\n' ∉ text.toList ∧ '"' ∉ text.toList := by
  simpa [Piece.fixedAll, isPlain] using List.all_eq_true.mp (fixed_isPlain statement) _ h

def sources (ps : List Piece) : List String :=
  ps.flatMap fun p => p.source?.toList

@[simp] theorem sources_nil : sources [] = [] := rfl

@[simp] theorem sources_cons (p : Piece) (ps : List Piece) :
    sources (p :: ps) = p.source?.toList ++ sources ps := rfl

@[simp] theorem sources_append (ps qs : List Piece) :
    sources (ps ++ qs) = sources ps ++ sources qs :=
  List.flatMap_append

/-- What a fixed text contributes nothing to is collected from the groups alone. -/
theorem flatMap_joined {β : Type} {f : Piece → List β} {mark : String}
    (hmark : f (.fixed mark) = []) (groups : List (List Piece)) :
    (joined mark groups).flatMap f = groups.flatMap fun group => group.flatMap f := by
  induction groups with
  | nil => rfl
  | cons group groups ih =>
    cases groups with
    | nil => simp [joined]
    | cons next rest =>
      rw [joined] at ih ⊢
      rw [List.intercalate_cons_cons, List.flatMap_append, List.flatMap_append, ih]
      simp [hmark]

@[simp] theorem sources_joined (mark : String) (groups : List (List Piece)) :
    sources (joined mark groups) = groups.flatMap sources :=
  flatMap_joined rfl groups

@[simp] theorem sources_joined_tokens (mark : String) (tokens : List String) :
    sources (joined mark (tokens.map fun t => [.token t])) = tokens := by
  rw [sources_joined, List.flatMap_map]
  exact List.flatMap_singleton' tokens

@[simp] theorem sources_joined_params (mark : String) (params : List (String × String)) :
    sources (joined mark (params.map fun p => [.token p.1, .fixed ": ", .token p.2])) =
      params.flatMap fun p => [p.1, p.2] := by
  rw [sources_joined, List.flatMap_map]
  rfl

theorem typeName_eq_or_mem (aliases : Entries String) (name : String) :
    typeName aliases name = name ∨
      ∃ e ∈ builtinAliases ++ aliases, typeName aliases name = e.2 := by
  unfold typeName
  cases hget : Entries.get? name (aliasTable aliases) with
  | none => exact .inl rfl
  | some value =>
    have hmem := Entries.mem_of_mem_putAll (Entries.mem_of_get?_eq_some hget)
    exact .inr ⟨(name, value), List.mem_append.mpr hmem, rfl⟩

theorem not_mem_line {c : Char} {aliases : Entries String} {statement : Statement}
    (hfixed : ∀ text ∈ fixedTexts, c ∉ text.toList)
    (haliases : ∀ e ∈ builtinAliases ++ aliases, c ∉ e.2.toList)
    (htokens : ∀ t ∈ sources (pieces statement), c ∉ t.toList) :
    c ∉ (line aliases statement).toList := by
  rw [toList_line]
  intro hmem
  obtain ⟨p, hp, hc⟩ := List.mem_flatMap.mp hmem
  have hsource : ∀ t ∈ p.source?, c ∉ t.toList := fun t ht =>
    htokens t (List.mem_flatMap.mpr ⟨p, hp, Option.mem_toList.mpr ht⟩)
  cases p with
  | fixed text =>
    let lacks := fun text : String => !text.toList.contains c
    have htexts : ∀ text ∈ fixedTexts, lacks text = true := by simpa [lacks] using hfixed
    have htext := fixed_of_mem_pieces htexts hp
    simp only [lacks, Bool.not_eq_true', List.contains_eq_mem, decide_eq_false_iff_not] at htext
    exact htext hc
  | token t => exact hsource t rfl hc
  | type name =>
    rw [Piece.text] at hc
    rcases typeName_eq_or_mem aliases name with h | ⟨e, he, h⟩
    · rw [h] at hc
      exact hsource name rfl hc
    · rw [h] at hc
      exact haliases e he hc

theorem newline_not_mem_line {aliases : Entries String} {statement : Statement}
    (haliases : ∀ e ∈ aliases, '\n' ∉ e.2.toList)
    (htokens : ∀ t ∈ sources (pieces statement), '\n' ∉ t.toList) :
    '\n' ∉ (line aliases statement).toList :=
  not_mem_line (by decide) (List.forall_mem_append.mpr ⟨by decide, haliases⟩) htokens

end Linewise.TypeScript

namespace Linewise.Statement

open TypeScript

/-- The tokens of a written line come from the line that was read; only a loop that leaves out its
fields is written with an empty one. -/
theorem mem_of_mem_sources {command : String} {args : List String} {statement : Statement}
    (h : Shape command args statement) {t : String} (ht : t ∈ sources (pieces statement)) :
    t ∈ command :: args ∨ t = "" := by
  cases h with
  | @functionDecl before returns other =>
    simp only [pieces, sources_append, sources_cons, sources_nil, sources_joined_params,
      Piece.source?, Option.toList, List.nil_append, List.append_nil, List.mem_append,
      List.mem_flatMap, List.mem_cons, List.not_mem_nil, or_false] at ht
    rcases ht with (rfl | ⟨p, hp, ht⟩) | rfl
    -- without a name the arrow stands for it
    · cases before <;> simp
    · have hmem := mem_of_mem_paramsOfTokens hp
      have hbefore : t ∈ before := by
        rcases ht with rfl | rfl
        · exact List.mem_of_mem_tail hmem.1
        · exact List.mem_of_mem_tail hmem.2
      simp [hbefore]
    · simp
  | repeatLoop other =>
    have hfirst := mem_or_eq_empty_of_getElem? args 0
    have hthird := mem_or_eq_empty_of_getElem? args 2
    simp only [pieces, sources_cons, sources_nil, Piece.source?, Option.toList, List.nil_append,
      List.append_nil, List.singleton_append, List.mem_cons, List.not_mem_nil, or_false] at ht
    rw [List.mem_cons]
    rcases ht with rfl | rfl | rfl | rfl
    · exact hthird.imp_left .inr
    · exact hthird.imp_left .inr
    · exact hfirst.imp_left .inr
    · exact hthird.imp_left .inr
  | returnValue other =>
    cases args <;> simp_all [-List.map_cons, pieces, Piece.source?]
  | variableDecl _ | constantDecl _ | assign _ =>
    simp only [pieces, sources_append, sources_cons, sources_nil, sources_joined_tokens,
      Piece.source?, Option.toList, List.nil_append, List.append_nil, List.singleton_append,
      List.mem_append, List.mem_cons, List.not_mem_nil, or_false] at ht ⊢
    tauto
  | conditional _ _ | blockEnd | output _ _ | elseBranch | whileLoop _ | call _ =>
    simp_all [-List.map_cons, pieces, Piece.source?]

end Linewise.Statement
