import Linewise.Proofs.Depth
import Linewise.Proofs.Pieces
import Linewise.Proofs.Reading
import Mathlib

/-! # Matching braces

The check of blocks and the writer of lines sort the statements each on their own. They agree: as
long as no word of the source and no alias brings in braces, the check accepts a program exactly if
the braces of its TypeScript match outside the double quotes.
-/

namespace Linewise.TypeScript

/-- The characters outside double quotes; the flag tells whether a quote is open. -/
def outside : Bool → List Char → List Char
  | _, [] => []
  | quoted, c :: cs =>
    if c = '"' then outside (!quoted) cs
    else if quoted then outside quoted cs
    else c :: outside quoted cs

def braces (cs : List Char) : List Char :=
  (outside false cs).filter Block.isBrace

/-- The text puts these braces before those of any text after it, so it leaves no quote open. -/
def AddsBraces (cs added : List Char) : Prop :=
  ∀ rest, braces (cs ++ rest) = added ++ braces rest

theorem AddsBraces.braces_eq {cs added : List Char} (h : AddsBraces cs added) :
    braces cs = added := by
  have hnil := h []
  rwa [List.append_nil, show braces [] = [] from rfl, List.append_nil] at hnil

theorem addsBraces_nil : AddsBraces [] [] := fun _ => rfl

theorem AddsBraces.append {cs ds added more : List Char} (h : AddsBraces cs added)
    (h' : AddsBraces ds more) : AddsBraces (cs ++ ds) (added ++ more) := by
  intro rest
  rw [List.append_assoc, List.append_assoc, h, h']

theorem AddsBraces.flatMap {α : Type} {f g : α → List Char} {xs : List α}
    (h : ∀ x ∈ xs, AddsBraces (f x) (g x)) : AddsBraces (xs.flatMap f) (xs.flatMap g) := by
  induction xs with
  | nil => exact addsBraces_nil
  | cons x xs ih =>
    rw [List.flatMap_cons, List.flatMap_cons]
    exact (h x List.mem_cons_self).append (ih fun y hy => h y (List.mem_cons_of_mem x hy))

theorem AddsBraces.intercalate {α : Type} {f g : α → List Char} {mark : List Char} {xs : List α}
    (hmark : AddsBraces mark []) (h : ∀ x ∈ xs, AddsBraces (f x) (g x)) :
    AddsBraces (mark.intercalate (xs.map f)) (xs.flatMap g) := by
  induction xs with
  | nil => exact addsBraces_nil
  | cons x xs ih =>
    have hx := h x List.mem_cons_self
    have hxs := ih fun y hy => h y (List.mem_cons_of_mem x hy)
    cases xs with
    | nil => simpa using hx
    | cons y xs =>
      rw [List.map_cons, List.map_cons, List.intercalate_cons_cons, List.flatMap_cons,
        List.append_assoc]
      exact hx.append (hmark.append hxs)

theorem addsBraces_of_quote_not_mem {cs : List Char} (h : '"' ∉ cs) :
    AddsBraces cs (cs.filter Block.isBrace) := by
  intro rest
  have houtside : outside false (cs ++ rest) = cs ++ outside false rest := by
    induction cs with
    | nil => rfl
    | cons c cs ih =>
      have hc : c ≠ '"' := fun heq => h (heq ▸ List.mem_cons_self)
      rw [List.cons_append, outside, if_neg hc, ih fun hmem => h (List.mem_cons_of_mem c hmem)]
      rfl
  rw [braces, houtside, List.filter_append, braces]

theorem addsBraces_quoted {inside : List Char} (h : '"' ∉ inside) :
    AddsBraces ('"' :: inside ++ ['"']) [] := by
  intro rest
  have hskip : outside true (inside ++ '"' :: rest) = outside false rest := by
    induction inside with
    | nil => rfl
    | cons c cs ih =>
      have hc : c ≠ '"' := fun heq => h (heq ▸ List.mem_cons_self)
      rw [List.cons_append, outside, if_neg hc, if_pos rfl,
        ih fun hmem => h (List.mem_cons_of_mem c hmem)]
  rw [List.append_assoc, List.cons_append, List.singleton_append, braces, outside, if_pos rfl,
    Bool.not_false, hskip]
  rfl

def IsBraceless (t : String) : Prop :=
  '\x7b' ∉ t.toList ∧ '\x7d' ∉ t.toList

instance (t : String) : Decidable (IsBraceless t) :=
  inferInstanceAs (Decidable (_ ∧ _))

theorem IsBraceless.filter_eq_nil {t : String} (h : IsBraceless t) :
    t.toList.filter Block.isBrace = [] := by
  refine List.filter_eq_nil_iff.mpr fun c hc hbrace => ?_
  rcases by simpa [Block.isBrace] using hbrace with rfl | rfl
  · exact h.1 hc
  · exact h.2 hc

theorem IsBraceless.addsBraces {t : String} (h : IsBraceless t) (hquote : '"' ∉ t.toList) :
    AddsBraces t.toList [] :=
  h.filter_eq_nil ▸ addsBraces_of_quote_not_mem hquote

theorem addsBraces_of_isToken {t : String} (h : Token.IsToken t)
    (hbraces : ¬ Token.IsString t → IsBraceless t) : AddsBraces t.toList [] := by
  rcases h with hword | ⟨inside, hinside, htext⟩
  · refine (hbraces hword.not_isString).addsBraces fun hquote => ?_
    have hclass := hword.2 _ hquote
    rw [Token.isWordChar_quote] at hclass
    cases hclass
  · rw [htext]
    exact addsBraces_quoted hinside

def Piece.braces : Piece → List Char
  | .fixed text => text.toList.filter Block.isBrace
  | _ => []

theorem flatMap_braces_tokens {mark : String} (hmark : IsBraceless mark) (tokens : List String) :
    (joined mark (tokens.map fun t => [.token t])).flatMap Piece.braces = [] := by
  rw [flatMap_joined hmark.filter_eq_nil, List.flatMap_map]
  exact List.flatMap_eq_nil_iff.mpr fun t _ => rfl

theorem flatMap_braces_params (params : List (String × String)) :
    (joined ", " (params.map fun p => [.token p.1, .fixed ": ", .token p.2])).flatMap
      Piece.braces = [] := by
  rw [flatMap_joined (by decide), List.flatMap_map]
  exact List.flatMap_eq_nil_iff.mpr fun p _ => rfl

/-- The fixed texts of a line have the braces that its role needs. -/
theorem flatMap_braces_pieces (statement : Statement) :
    (pieces statement).flatMap Piece.braces = statement.role.braces := by
  have hspace : IsBraceless " " := by decide
  have hcomma : IsBraceless ", " := by decide
  cases statement with
  | returnValue value =>
    cases value with
    | nil => decide
    | cons t ts =>
      simp only [pieces, List.flatMap_append, flatMap_braces_tokens hspace]
      rfl
  | functionDecl name params returns =>
    simp only [pieces, List.flatMap_append, flatMap_braces_params]
    rfl
  | conditional condition isElif =>
    simp only [pieces, List.flatMap_append, flatMap_braces_tokens hspace]
    cases isElif <;> rfl
  | variableDecl name type constant value =>
    simp only [pieces, List.flatMap_append, flatMap_braces_tokens hspace]
    cases constant <;> rfl
  | assign | whileLoop =>
    simp only [pieces, List.flatMap_append, flatMap_braces_tokens hspace]
    rfl
  | output | call =>
    simp only [pieces, List.flatMap_append, flatMap_braces_tokens hcomma]
    rfl
  | blockEnd | elseBranch | repeatLoop => rfl

theorem addsBraces_piece {aliases : Entries String} {statement : Statement} {p : Piece}
    (hp : p ∈ pieces statement)
    (haliases : ∀ e ∈ aliases, IsBraceless e.2 ∧ '"' ∉ e.2.toList)
    (htoken : ∀ t ∈ p.source?, AddsBraces t.toList []) :
    AddsBraces (p.text aliases).toList p.braces := by
  cases p with
  | fixed text => exact addsBraces_of_quote_not_mem (not_mem_of_mem_pieces hp).2
  | token t => exact htoken t rfl
  | type name =>
    change AddsBraces (typeName aliases name).toList []
    rcases typeName_eq_or_mem aliases name with h | ⟨e, he, h⟩
    · rw [h]
      exact htoken name rfl
    · have hentry : IsBraceless e.2 ∧ '"' ∉ e.2.toList := by
        rcases List.mem_append.mp he with he | he
        · rw [List.mem_singleton.mp he]
          decide
        · exact haliases e he
      rw [h]
      exact hentry.1.addsBraces hentry.2

theorem addsBraces_line {aliases : Entries String} {statement : Statement}
    (haliases : ∀ e ∈ aliases, IsBraceless e.2 ∧ '"' ∉ e.2.toList)
    (htokens : ∀ t ∈ sources (pieces statement), AddsBraces t.toList []) :
    AddsBraces (line aliases statement).toList statement.role.braces := by
  rw [toList_line, ← flatMap_braces_pieces]
  refine .flatMap fun p hp => addsBraces_piece hp haliases fun t ht => htokens t ?_
  exact List.mem_flatMap.mpr ⟨p, hp, Option.mem_toList.mpr ht⟩

theorem braces_code {aliases : Entries String} {program : Program}
    (haliases : ∀ e ∈ aliases, IsBraceless e.2 ∧ '"' ∉ e.2.toList)
    (htokens : ∀ statement ∈ program.statements, ∀ t ∈ sources (pieces statement),
      AddsBraces t.toList []) :
    braces (code aliases program).toList =
      program.statements.flatMap fun statement => statement.role.braces := by
  rw [code, lines, String.toList_intercalate, List.map_map]
  refine (AddsBraces.intercalate ?_ fun statement hstatement => ?_).braces_eq
  · exact IsBraceless.addsBraces (t := "\n") (by decide) (by decide)
  · exact addsBraces_line haliases (htokens statement hstatement)

end Linewise.TypeScript

namespace Linewise.Program

def HasToken (text t : String) : Prop :=
  ∃ cs ∈ strippedLines text, ∃ tokens, Token.tokenize (String.ofList cs) = .ok tokens ∧ t ∈ tokens

theorem HasToken.isToken {text t : String} (h : HasToken text t) : Token.IsToken t := by
  obtain ⟨cs, -, tokens, htokens, ht⟩ := h
  exact Token.isToken_of_tokenize htokens ht

theorem HasToken.exists_line {text t : String} (h : HasToken text t) :
    ∃ line ∈ Text.splitLines text.toList, ∀ c ∈ t.toList, c ∈ line := by
  obtain ⟨cs, hcs, tokens, htokens, ht⟩ := h
  obtain ⟨line, hline, rfl⟩ := List.mem_map.mp (List.mem_of_mem_filter hcs)
  refine ⟨line, hline, fun c hc => Text.mem_of_mem_strip ?_⟩
  simpa using Token.mem_of_tokenize htokens ht hc

theorem HasToken.isBraceless {text t : String} (h : HasToken text t)
    (hlines : ∀ cs ∈ strippedLines text, '\x7b' ∉ cs ∧ '\x7d' ∉ cs) :
    TypeScript.IsBraceless t := by
  obtain ⟨cs, hcs, tokens, htokens, ht⟩ := h
  have hmem {c : Char} (hc : c ∈ t.toList) : c ∈ cs := by
    simpa using Token.mem_of_tokenize htokens ht hc
  exact ⟨fun hc => (hlines cs hcs).1 (hmem hc), fun hc => (hlines cs hcs).2 (hmem hc)⟩

theorem hasToken_of_mem_sources {text : String} {program : Program}
    (h : ofText text = .ok program) {statement : Statement} (hmem : statement ∈ program.statements)
    {t : String} (ht : t ∈ TypeScript.sources (TypeScript.pieces statement)) :
    HasToken text t ∨ t = "" := by
  obtain ⟨cs, hcs, hline⟩ := exists_ofLine_of_mem h hmem
  obtain ⟨command, args, htokens, hshape⟩ := hline.exists_shape
  exact (Statement.mem_of_mem_sources hshape ht).imp_left fun hmem => ⟨cs, hcs, _, htokens, hmem⟩

end Linewise.Program

namespace Linewise.Block

/-- The check of blocks accepts a program that was read exactly if the braces of its TypeScript
outside double quotes are balanced. -/
theorem check_eq_ok_iff_balanced (aliases : Entries String) {text : String} {program : Program}
    (hprogram : Program.ofText text = .ok program)
    (hwords : ∀ t, Program.HasToken text t → ¬ Token.IsString t → TypeScript.IsBraceless t)
    (haliases : ∀ e ∈ aliases, TypeScript.IsBraceless e.2 ∧ '"' ∉ e.2.toList) :
    check program = .ok () ↔
      Balanced (TypeScript.outside false (TypeScript.code aliases program).toList) := by
  have hbraces := TypeScript.braces_code haliases fun statement hmem t ht => by
    rcases Program.hasToken_of_mem_sources hprogram hmem ht with htoken | rfl
    · exact TypeScript.addsBraces_of_isToken htoken.isToken (hwords t htoken)
    · exact TypeScript.addsBraces_nil
  rw [check_eq_ok_iff_walk, ← hbraces, TypeScript.braces, walk_filter_isBrace, balanced_iff_walk]

theorem balanced_of_check_conditional :
    let aliases : Entries String := [("int", "number")]
    let text := "if b\nelse\nend"
    let program : Program := ⟨[.conditional ["b"] false, .elseBranch, .blockEnd], [1, 2, 3]⟩
    Program.ofText text = .ok program ∧
      (∀ t, Program.HasToken text t → ¬ Token.IsString t → TypeScript.IsBraceless t) ∧
      (∀ e ∈ aliases, TypeScript.IsBraceless e.2 ∧ '"' ∉ e.2.toList) ∧
      check program = .ok () ∧
      Balanced (TypeScript.outside false (TypeScript.code aliases program).toList) := by
  intro aliases text program
  have hprogram : Program.ofText text = .ok program := by cbv
  have hwords : ∀ t, Program.HasToken text t → ¬ Token.IsString t → TypeScript.IsBraceless t :=
    fun t ht _ => ht.isBraceless (by decide)
  have haliases : ∀ e ∈ aliases, TypeScript.IsBraceless e.2 ∧ '"' ∉ e.2.toList := by decide
  have hcheck : check program = .ok () := rfl
  exact ⟨hprogram, hwords, haliases, hcheck,
    (check_eq_ok_iff_balanced aliases hprogram hwords haliases).mp hcheck⟩

end Linewise.Block
