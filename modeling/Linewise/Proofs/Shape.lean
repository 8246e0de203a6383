import Linewise.Proofs.Entries
import Linewise.Rule

/-! # The shapes of a line

Every rule but that of assignments looks for first tokens of its own. A line whose second token is
no equals sign therefore has at most one rule, and only declarations and assignments can compete
for the others. The shapes list all lines with their statements, and the rules in their order of
precedence decide exactly among them.
-/

namespace Linewise

theorem mem_of_mem_paramPairs {tokens : List String} {p : String × String}
    (h : p ∈ paramPairs tokens) : p.1 ∈ tokens ∧ p.2 ∈ tokens := by
  fun_induction paramPairs tokens with
  | case1 typeName name rest ih =>
    rcases List.mem_cons.mp h with rfl | h
    · simp
    · exact ⟨by simp [(ih h).1], by simp [(ih h).2]⟩
  | case2 => cases h

theorem mem_of_mem_paramsOfTokens {tokens : List String} {p : String × String}
    (h : p ∈ paramsOfTokens tokens) : p.1 ∈ tokens ∧ p.2 ∈ tokens :=
  mem_of_mem_paramPairs (Entries.mem_of_mem_ofList h)

namespace Rule

/-- The first tokens that a rule looks for; an assignment may begin with any token. -/
def keywords : Rule → List String
  | variableDecl => primitiveTypes
  | constantDecl => ["const"]
  | assign => []
  | functionDecl => ["func"]
  | blockEnd => ["end"]
  | output => outputCommands
  | returnValue => ["return"]
  | conditional => ["if", "elif"]
  | elseBranch => ["else"]
  | whileLoop => ["while"]
  | repeatLoop => ["repeat"]

def ofKeyword? (command : String) : Option Rule :=
  precedence.find? fun rule => command ∈ rule.keywords

theorem ofKeyword?_of_mem (rule : Rule) :
    ∀ command ∈ rule.keywords, ofKeyword? command = some rule := by
  cases rule <;> decide

theorem eq_of_mem_keywords {command : String} {rule other : Rule}
    (h : command ∈ rule.keywords) (h' : command ∈ other.keywords) : rule = other :=
  Option.some.inj
    ((ofKeyword?_of_mem rule command h).symm.trans (ofKeyword?_of_mem other command h'))

variable {command : String} {args : List String} {statement : Statement}

theorem mem_keywords_of_apply {rule : Rule} (hrule : rule ≠ assign)
    (h : rule.apply command args = some statement) : command ∈ rule.keywords := by
  cases rule with
  | assign => exact absurd rfl hrule
  | variableDecl | constantDecl =>
    simp only [apply] at h
    split at h
    · split at h <;> simp_all [keywords]
    · cases h
  | functionDecl | blockEnd | output | returnValue | conditional | elseBranch | whileLoop
  | repeatLoop =>
    simp only [apply] at h
    split at h <;> simp_all [keywords]

theorem apply_assign_eq_none (h : args.head? ≠ some "=") : assign.apply command args = none := by
  cases args with
  | nil => rfl
  | cons sign value => exact if_neg fun he => h (by rw [he]; rfl)

/-- Without an equals sign behind the first token at most one rule accepts a line. -/
theorem eq_of_apply {rule other : Rule} {statement' : Statement} (hsign : args.head? ≠ some "=")
    (h : rule.apply command args = some statement)
    (h' : other.apply command args = some statement') : rule = other := by
  have hassign : ∀ {r : Rule} {s : Statement}, r.apply command args = some s → r ≠ assign := by
    rintro r s hr rfl
    rw [apply_assign_eq_none hsign] at hr
    cases hr
  exact eq_of_mem_keywords (mem_keywords_of_apply (hassign h) h)
    (mem_keywords_of_apply (hassign h') h')

end Rule

namespace Statement

/-- The lines, each as its first token and the others, with the statements they stand for. -/
inductive Shape : String → List String → Statement → Prop
  | variableDecl {type name : String} {value : List String} (primitive : type ∈ primitiveTypes) :
    Shape type (name :: "=" :: value) (.variableDecl name type false value)
  | constantDecl {type name : String} {value : List String} (primitive : type ∈ primitiveTypes) :
    Shape "const" (type :: name :: "=" :: value) (.variableDecl name type true value)
  /-- Two equals signs behind a type declare a variable of that name. -/
  | assign {name : String} {value : List String}
    (other : ¬ (name ∈ primitiveTypes ∧ value.head? = some "=")) :
    Shape name ("=" :: value) (.assign name value)
  /-- A head without a name takes its arrow for the name. -/
  | functionDecl {before : List String} {returns : String} (other : before.headD "->" ≠ "=") :
    Shape "func" (before ++ ["->", returns])
      (.functionDecl (before.headD "->") (paramsOfTokens before.tail) returns)
  | blockEnd : Shape "end" [] .blockEnd
  | output {command : String} {args : List String} (keyword : command ∈ outputCommands)
    (other : args.head? ≠ some "=") : Shape command args (.output args)
  | returnValue {value : List String} (other : value.head? ≠ some "=") :
    Shape "return" value (.returnValue value)
  | conditional {condition : List String} (isElif : Bool) (other : condition.head? ≠ some "=") :
    Shape (if isElif then "elif" else "if") condition (.conditional condition isElif)
  | elseBranch : Shape "else" [] .elseBranch
  | whileLoop {condition : List String} (other : condition.head? ≠ some "=") :
    Shape "while" condition (.whileLoop condition)
  | repeatLoop {args : List String} (other : args.head? ≠ some "=") :
    Shape "repeat" args (.repeatLoop (args[0]?.getD "") (args[2]?.getD ""))
  | call {command : String} {args : List String}
    (other : ∀ rule : Rule, rule.apply command args = none) :
    Shape command args (.call command args)

variable {command : String} {args : List String} {statement : Statement}

theorem ofTokensBy_eq_of_apply {rules : List Rule} {rule : Rule} (hmem : rule ∈ rules)
    (hsign : args.head? ≠ some "=") (h : rule.apply command args = some statement) :
    ofTokensBy rules command args = statement := by
  have hfirst : rules.findSome? (fun r => r.apply command args) = some statement := by
    induction rules with
    | nil => cases hmem
    | cons r rules ih =>
      rw [List.findSome?_cons]
      cases hr : r.apply command args with
      | some s =>
        rw [Rule.eq_of_apply hsign hr h, h] at hr
        exact hr.symm
      | none =>
        refine ih ((List.mem_cons.mp hmem).resolve_left fun he => ?_)
        rw [he, hr] at h
        cases h
  rw [ofTokensBy, hfirst, Option.getD_some]

/-- A line that no rule accepts is a call, in whatever order the rules are tried. -/
theorem ofTokensBy_of_call (rules : List Rule)
    (h : ∀ rule : Rule, rule.apply command args = none) :
    ofTokensBy rules command args = .call command args := by
  rw [ofTokensBy, List.findSome?_eq_none_iff.mpr fun rule _ => h rule, Option.getD_none]

theorem mem_precedence (rule : Rule) : rule ∈ Rule.precedence := by
  cases rule <;> decide

theorem functionHead?_append (before : List String) (returns : String) :
    Rule.functionHead? (before ++ ["->", returns]) =
      some (.functionDecl (before.headD "->") (paramsOfTokens before.tail) returns) := by
  cases before <;> simp [Rule.functionHead?]

theorem Shape.ofTokensBy_eq (h : Shape command args statement) :
    ofTokensBy Rule.precedence command args = statement := by
  cases h with
  | variableDecl primitive => simp [ofTokensBy, Rule.precedence, Rule.apply, primitive]
  | constantDecl primitive =>
    refine ofTokensBy_eq_of_apply (mem_precedence .constantDecl) ?_ ?_
    · intro he
      rw [Option.some.inj he] at primitive
      exact absurd primitive (by decide)
    · simp [Rule.apply, primitive]
  | @assign _ value other =>
    have hvariable : Rule.variableDecl.apply command ("=" :: value) = none := by
      cases value with
      | nil => rfl
      | cons sign value => exact if_neg fun he => other ⟨he.1, by rw [he.2]; rfl⟩
    have hconstant : Rule.constantDecl.apply command ("=" :: value) = none := by
      rcases value with _ | ⟨_, _ | ⟨_, _⟩⟩
      · rfl
      · rfl
      · exact if_neg fun he => absurd he.2.1 (by decide)
    simp only [ofTokensBy, Rule.precedence, List.findSome?_cons, hvariable, hconstant]
    rfl
  | @functionDecl before returns other =>
    refine ofTokensBy_eq_of_apply (mem_precedence .functionDecl) ?_ (functionHead?_append _ _)
    cases before with
    | nil => simp
    | cons name before => simpa using other
  | blockEnd =>
    exact ofTokensBy_eq_of_apply (mem_precedence .blockEnd) (by simp) rfl
  | output keyword other =>
    exact ofTokensBy_eq_of_apply (mem_precedence .output) other (if_pos keyword)
  | returnValue other => exact ofTokensBy_eq_of_apply (mem_precedence .returnValue) other rfl
  | conditional isElif other =>
    refine ofTokensBy_eq_of_apply (mem_precedence .conditional) other ?_
    cases isElif <;> rfl
  | elseBranch => exact ofTokensBy_eq_of_apply (mem_precedence .elseBranch) (by simp) rfl
  | whileLoop other => exact ofTokensBy_eq_of_apply (mem_precedence .whileLoop) other rfl
  | repeatLoop other => exact ofTokensBy_eq_of_apply (mem_precedence .repeatLoop) other rfl
  | call other => exact ofTokensBy_of_call Rule.precedence other

theorem exists_append_of_functionHead? (h : Rule.functionHead? args = some statement) :
    ∃ before returns, args = before ++ ["->", returns] := by
  unfold Rule.functionHead? at h
  split at h
  · next returns arrow before hrev =>
    split at h
    · next harrow =>
      refine ⟨before.reverse, returns, ?_⟩
      rw [← List.reverse_reverse args, hrev, harrow]
      simp
    · cases h
  · cases h

theorem shape_of_apply {rule : Rule} (hsign : args.head? ≠ some "=")
    (h : rule.apply command args = some statement) : Shape command args statement := by
  cases rule with
  | variableDecl =>
    simp only [Rule.apply] at h
    split at h
    · split at h
      · next hd =>
        obtain ⟨hprimitive, rfl⟩ := hd
        cases h
        exact .variableDecl hprimitive
      · cases h
    · cases h
  | constantDecl =>
    simp only [Rule.apply] at h
    split at h
    · split at h
      · next hd =>
        obtain ⟨rfl, hprimitive, rfl⟩ := hd
        cases h
        exact .constantDecl hprimitive
      · cases h
    · cases h
  | assign =>
    rw [Rule.apply_assign_eq_none hsign] at h
    cases h
  | functionDecl =>
    simp only [Rule.apply, Option.ite_none_right_eq_some] at h
    obtain ⟨rfl, h⟩ := h
    obtain ⟨before, returns, rfl⟩ := exists_append_of_functionHead? h
    rw [functionHead?_append] at h
    cases h
    refine .functionDecl ?_
    cases before with
    | nil => decide
    | cons name before => simpa using hsign
  | blockEnd =>
    simp only [Rule.apply, Option.ite_none_right_eq_some] at h
    obtain ⟨⟨rfl, rfl⟩, h⟩ := h
    cases h
    exact .blockEnd
  | output =>
    simp only [Rule.apply, Option.ite_none_right_eq_some] at h
    obtain ⟨hkeyword, h⟩ := h
    cases h
    exact .output hkeyword hsign
  | returnValue =>
    simp only [Rule.apply, Option.ite_none_right_eq_some] at h
    obtain ⟨rfl, h⟩ := h
    cases h
    exact .returnValue hsign
  | conditional =>
    simp only [Rule.apply, Option.ite_none_right_eq_some] at h
    obtain ⟨rfl | rfl, h⟩ := h
    · cases h
      exact .conditional false hsign
    · cases h
      exact .conditional true hsign
  | elseBranch =>
    simp only [Rule.apply, Option.ite_none_right_eq_some] at h
    obtain ⟨⟨rfl, rfl⟩, h⟩ := h
    cases h
    exact .elseBranch
  | whileLoop =>
    simp only [Rule.apply, Option.ite_none_right_eq_some] at h
    obtain ⟨rfl, h⟩ := h
    cases h
    exact .whileLoop hsign
  | repeatLoop =>
    simp only [Rule.apply, Option.ite_none_right_eq_some] at h
    obtain ⟨rfl, h⟩ := h
    cases h
    exact .repeatLoop hsign

theorem exists_shape (command : String) (args : List String) :
    ∃ statement, Shape command args statement := by
  by_cases hsign : args.head? = some "="
  · obtain ⟨value, rfl⟩ : ∃ value, args = "=" :: value :=
      ⟨args.tail, List.eq_cons_of_mem_head? hsign⟩
    by_cases hd : command ∈ primitiveTypes ∧ value.head? = some "="
    · rw [List.eq_cons_of_mem_head? hd.2]
      exact ⟨_, .variableDecl hd.1⟩
    · exact ⟨_, .assign hd⟩
  · by_cases hcall : ∀ rule : Rule, rule.apply command args = none
    · exact ⟨_, .call hcall⟩
    · push Not at hcall
      obtain ⟨rule, hrule⟩ := hcall
      obtain ⟨statement, h⟩ := Option.ne_none_iff_exists'.mp hrule
      exact ⟨statement, shape_of_apply hsign h⟩

/-- The rules give a line the statement of its shape and no other. -/
theorem ofTokensBy_precedence_eq_iff :
    ofTokensBy Rule.precedence command args = statement ↔ Shape command args statement := by
  refine ⟨fun h => ?_, Shape.ofTokensBy_eq⟩
  obtain ⟨found, hfound⟩ := exists_shape command args
  rwa [← h, hfound.ofTokensBy_eq]

theorem ofTokens_eq_ok_iff {tokens : List String} :
    ofTokens tokens = .ok statement ↔
      ∃ command args, tokens = command :: args ∧ Shape command args statement := by
  cases tokens with
  | nil => simp [ofTokens]
  | cons command args => simp [ofTokens, ofTokensBy_precedence_eq_iff]

theorem ofTokens_eq_error_iff {tokens : List String} {fault : Fault} :
    ofTokens tokens = .error fault ↔ tokens = [] ∧ fault = .emptyLine := by
  cases tokens <;> simp [ofTokens, eq_comm]

theorem mem_or_eq_empty_of_getElem? (args : List String) (i : Nat) :
    args[i]?.getD "" ∈ args ∨ args[i]?.getD "" = "" := by
  cases h : args[i]? with
  | none => exact .inr rfl
  | some t => exact .inl (List.mem_of_getElem? h)

end Statement
end Linewise
