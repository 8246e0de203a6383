import Linewise.Proofs.Spelling

/-! # What a statement keeps of its line

Most statements keep all tokens of their line, which is the spelling of the statement. Three forms
lose something: output its command, a function head how its parameters were paired, and a counting
loop every token but the count and the counter.
-/

namespace Linewise.Statement

variable {tokens xs ys : List String} {statement : Statement}

def HasForm (kind : Kind) (tokens : List String) : Prop :=
  ∃ statement, ofTokens tokens = .ok statement ∧ statement.kind = kind

/-- The forms that do not keep every token of their line. -/
def lossyKinds : List Kind := [.output, .functionDecl, .repeatLoop]

def paramTokens (tokens : List String) : List String :=
  (tokens.drop 2).dropLast.dropLast

/-- Lines that differ only in tokens that their form does not keep. -/
inductive Alike (xs ys : List String) : Prop
  | output (hxs : HasForm .output xs) (hys : HasForm .output ys) (args : xs.tail = ys.tail)
  | functionDecl (hxs : HasForm .functionDecl xs) (hys : HasForm .functionDecl ys)
    (name : xs[1]? = ys[1]?) (returns : xs.getLast? = ys.getLast?)
    (params : paramsOfTokens (paramTokens xs) = paramsOfTokens (paramTokens ys))
  | repeatLoop (hxs : HasForm .repeatLoop xs) (hys : HasForm .repeatLoop ys)
    (times : xs[1]?.getD "" = ys[1]?.getD "") (counter : xs[3]?.getD "" = ys[3]?.getD "")

theorem Shape.spelling_eq {command : String} {args : List String}
    (h : Shape command args statement) (hkind : statement.kind ∉ lossyKinds) :
    statement.spelling = command :: args := by
  cases h with
  | output _ _ | functionDecl _ | repeatLoop _ => exact absurd (by simp [kind, lossyKinds]) hkind
  | variableDecl _ | constantDecl _ | assign _ | blockEnd | returnValue _ | conditional _ _
  | elseBranch | whileLoop _ | call _ => rfl

theorem spelling_of_ofTokens (h : ofTokens tokens = .ok statement)
    (hkind : statement.kind ∉ lossyKinds) : statement.spelling = tokens := by
  obtain ⟨command, args, rfl, hshape⟩ := ofTokens_eq_ok_iff.mp h
  exact hshape.spelling_eq hkind

theorem HasForm.ofTokens_output (h : HasForm .output tokens) :
    ofTokens tokens = .ok (.output tokens.tail) := by
  obtain ⟨statement, htokens, hkind⟩ := h
  obtain ⟨command, args, rfl, hshape⟩ := ofTokens_eq_ok_iff.mp htokens
  cases hshape with
  | output _ _ => exact htokens
  | _ => cases hkind

theorem paramTokens_head (before : List String) (returns : String) :
    paramTokens ("func" :: (before ++ ["->", returns])) = before.tail := by
  cases before <;> simp [paramTokens]

theorem HasForm.ofTokens_functionDecl (h : HasForm .functionDecl tokens) :
    ∃ name returns, tokens[1]? = some name ∧ tokens.getLast? = some returns ∧
      ofTokens tokens =
        .ok (.functionDecl name (paramsOfTokens (paramTokens tokens)) returns) := by
  obtain ⟨statement, htokens, hkind⟩ := h
  obtain ⟨command, args, rfl, hshape⟩ := ofTokens_eq_ok_iff.mp htokens
  cases hshape with
  | @functionDecl before returns _ =>
    refine ⟨before.headD "->", returns, ?_, by simp [List.getLast?_cons], ?_⟩
    · cases before <;> rfl
    · rw [paramTokens_head, htokens]
  | _ => cases hkind

theorem HasForm.ofTokens_repeatLoop (h : HasForm .repeatLoop tokens) :
    ofTokens tokens = .ok (.repeatLoop (tokens[1]?.getD "") (tokens[3]?.getD "")) := by
  obtain ⟨statement, htokens, hkind⟩ := h
  obtain ⟨command, args, rfl, hshape⟩ := ofTokens_eq_ok_iff.mp htokens
  cases hshape with
  | repeatLoop _ => exact htokens
  | _ => cases hkind

theorem Alike.ofTokens_eq (h : Alike xs ys) : ofTokens xs = ofTokens ys := by
  cases h with
  | output hxs hys args => rw [hxs.ofTokens_output, hys.ofTokens_output, args]
  | functionDecl hxs hys name returns params =>
    obtain ⟨nameX, returnsX, hnameX, hreturnsX, hX⟩ := hxs.ofTokens_functionDecl
    obtain ⟨nameY, returnsY, hnameY, hreturnsY, hY⟩ := hys.ofTokens_functionDecl
    obtain rfl : nameX = nameY := by simpa [hnameX, hnameY] using name
    obtain rfl : returnsX = returnsY := by simpa [hreturnsX, hreturnsY] using returns
    rw [hX, hY, params]
  | repeatLoop hxs hys times counter =>
    rw [hxs.ofTokens_repeatLoop, hys.ofTokens_repeatLoop, times, counter]

theorem alike_of_ofTokens (hne : xs ≠ ys) (hxs : ofTokens xs = .ok statement)
    (hys : ofTokens ys = .ok statement) : Alike xs ys := by
  by_cases hkind : statement.kind ∈ lossyKinds
  · have hformX : HasForm statement.kind xs := ⟨statement, hxs, rfl⟩
    have hformY : HasForm statement.kind ys := ⟨statement, hys, rfl⟩
    have heq : ofTokens xs = ofTokens ys := hxs.trans hys.symm
    simp only [lossyKinds, List.mem_cons, List.not_mem_nil, or_false] at hkind
    rcases hkind with hkind | hkind | hkind <;> rw [hkind] at hformX hformY
    · rw [hformX.ofTokens_output, hformY.ofTokens_output] at heq
      exact .output hformX hformY (by simpa using heq)
    · obtain ⟨nameX, returnsX, hnameX, hreturnsX, hX⟩ := hformX.ofTokens_functionDecl
      obtain ⟨nameY, returnsY, hnameY, hreturnsY, hY⟩ := hformY.ofTokens_functionDecl
      rw [hX, hY, Except.ok.injEq, Statement.functionDecl.injEq] at heq
      obtain ⟨rfl, hparams, rfl⟩ := heq
      exact .functionDecl hformX hformY (hnameX.trans hnameY.symm)
        (hreturnsX.trans hreturnsY.symm) hparams
    · rw [hformX.ofTokens_repeatLoop, hformY.ofTokens_repeatLoop, Except.ok.injEq,
        Statement.repeatLoop.injEq] at heq
      exact .repeatLoop hformX hformY heq.1 heq.2
  · exact absurd ((spelling_of_ofTokens hxs hkind).symm.trans (spelling_of_ofTokens hys hkind)) hne

/-- Different lines have one statement exactly if they differ only in what their form loses, and a
statement of any other form gives its line back. -/
theorem ofTokens_eq_iff_alike (xs ys : List String) (hne : xs ≠ ys) :
    (ofTokens xs = ofTokens ys ↔ Alike xs ys) ∧
      ∀ statement, ofTokens xs = .ok statement → statement.kind ∉ lossyKinds →
        statement.spelling = xs := by
  refine ⟨⟨fun heq => ?_, Alike.ofTokens_eq⟩, fun statement => spelling_of_ofTokens⟩
  cases hxs : ofTokens xs with
  | ok statement => exact alike_of_ofTokens hne hxs (heq ▸ hxs)
  | error fault =>
    -- only lines without tokens have no statement, and there is one such line
    have hnil := (ofTokens_eq_error_iff.mp hxs).1
    exact absurd (hnil.trans (ofTokens_eq_error_iff.mp (heq ▸ hxs)).1.symm) hne

theorem ofTokens_eq_iff_alike_heads :
    let xs := ["func", "f", "number", "a", "string", "a", "->", "T"]
    let ys := ["func", "f", "string", "a", "boolean", "->", "T"]
    xs ≠ ys ∧ Alike xs ys ∧ ofTokens xs = ofTokens ys :=
  have heq : ofTokens ["func", "f", "number", "a", "string", "a", "->", "T"] =
      ofTokens ["func", "f", "string", "a", "boolean", "->", "T"] := by decide
  ⟨by decide, (ofTokens_eq_iff_alike _ _ (by decide)).1.mp heq, heq⟩

end Linewise.Statement
