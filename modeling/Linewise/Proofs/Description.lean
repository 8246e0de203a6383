import Linewise.Describe
import Linewise.Proofs.Params
import Linewise.Proofs.PrefixFree
import Linewise.Proofs.Spelling

/-! # Statements by their descriptions

The description of a statement determines the names and the values of its fields, where tokens count
as one text. The tokens are found again in that text, so that a statement that was read is known by
its kind and its description.
-/

namespace Linewise

open Text

namespace FieldValue

def plain : FieldValue → FieldValue
  | tokens ts => text (" ".intercalate ts)
  | value => value

def IsPlain (value : FieldValue) : Prop :=
  value.plain = value

theorem describe_plain (value : FieldValue) : value.plain.describe = value.describe := by
  cases value <;> rfl

theorem isPlain_plain (value : FieldValue) : value.plain.IsPlain := by
  cases value <;> rfl

def paramChars (p : String × String) : List Char :=
  (quote p.1).toList ++ (": ".toList ++ (quote p.2).toList)

theorem isPrefixFree_paramChars : IsPrefixFree (fun _ => True) paramChars := by
  intro p q _ _ s t heq
  have htype := isPrefixFree_quote.append_left ": ".toList
  exact isPrefixFree_quote.append htype ⟨trivial, trivial⟩ ⟨trivial, trivial⟩ heq

theorem isEnd_paramChars (s : List Char) : IsEnd (fun _ => True) paramChars ('\x7d' :: s) := by
  rintro p - hparam
  obtain ⟨mark, cs, hcs, hmark⟩ := quote_eq_cons p.1
  rw [paramChars, hcs] at hparam
  rcases hmark with rfl | rfl <;> simp at hparam

theorem toList_describe_params (ps : Entries String) :
    (params ps).describe.toList =
      '\x7b' :: (", ".toList.intercalate (ps.map paramChars) ++ ['\x7d']) := by
  have hparam : ∀ p : String × String,
      (quote p.1 ++ ": " ++ quote p.2).toList = paramChars p := fun p => by
    rw [String.toList_append, String.toList_append, List.append_assoc, paramChars]
  rw [describe, String.toList_append, String.toList_append, String.toList_intercalate, List.map_map]
  simp only [Function.comp_def, hparam]
  rfl

def leads : FieldValue → List Char
  | text _ | tokens _ => ['\x27', '"']
  | flag _ => ['T', 'F']
  | params _ => ['\x7b']

theorem exists_describe_eq_cons (value : FieldValue) :
    ∃ c ∈ value.leads, ∃ cs, value.describe.toList = c :: cs := by
  cases value with
  | text s =>
    obtain ⟨mark, cs, hcs, hmark⟩ := quote_eq_cons s
    exact ⟨mark, by simpa [leads] using hmark, cs, hcs⟩
  | tokens ts =>
    obtain ⟨mark, cs, hcs, hmark⟩ := quote_eq_cons (" ".intercalate ts)
    exact ⟨mark, by simpa [leads] using hmark, cs, hcs⟩
  | flag b => cases b <;> exact ⟨_, by decide, _, rfl⟩
  | params ps => exact ⟨_, List.mem_singleton_self _, _, toList_describe_params ps⟩

variable {v w : FieldValue} {s t : List Char}

theorem exists_mem_leads (heq : v.describe.toList ++ s = w.describe.toList ++ t) :
    ∃ c, c ∈ v.leads ∧ c ∈ w.leads := by
  obtain ⟨c, hc, cs, hcs⟩ := v.exists_describe_eq_cons
  obtain ⟨d, hd, ds, hds⟩ := w.exists_describe_eq_cons
  rw [hcs, hds] at heq
  exact ⟨c, hc, (List.cons.inj heq).1 ▸ hd⟩

/-- The first character of a description tells its form, and each form has its own end. -/
theorem isPrefixFree_describe : IsPrefixFree IsPlain fun value => value.describe.toList := by
  intro v w hv hw s t heq
  have hleads := exists_mem_leads heq
  cases v with
  | tokens ts => cases hv
  | text x =>
    cases w with
    | tokens ts => cases hw
    | text y =>
      obtain ⟨rfl, rfl⟩ := isPrefixFree_quote trivial trivial heq
      exact ⟨rfl, rfl⟩
    | flag | params => simp [leads] at hleads
  | flag b =>
    cases w with
    | tokens ts => cases hw
    | flag b' => cases b <;> cases b' <;> simp_all [describe]
    | text | params => simp [leads] at hleads
  | params ps =>
    cases w with
    | tokens ts => cases hw
    | params qs =>
      simp only [toList_describe_params, List.cons_append, List.append_assoc] at heq
      obtain ⟨rfl, htail⟩ := isPrefixFree_paramChars.intercalate_inj (fun _ _ => trivial)
        (fun _ _ => trivial) (isEnd_paramChars s) (isEnd_paramChars t) (by simp) (by simp)
        (List.cons.inj heq).2
      exact ⟨rfl, (List.cons.inj htail).2⟩
    | text | flag => simp [leads] at hleads

end FieldValue

namespace Statement

variable {statement other : Statement}

def plainFields (statement : Statement) : List (String × FieldValue) :=
  statement.fields.map fun field => (field.1, field.2.plain)

def fieldChars (field : String × FieldValue) : List Char :=
  (field.1.toList ++ ['=']) ++ field.2.describe.toList

theorem toList_describe (statement : Statement) :
    statement.describe.toList = ", ".toList.intercalate (statement.plainFields.map fieldChars) := by
  rw [describe, String.toList_intercalate, plainFields, List.map_map, List.map_map]
  congr 1
  refine List.map_congr_left fun field _ => ?_
  simp only [Function.comp_apply, fieldChars, FieldValue.describe_plain, String.toList_append]
  rfl

theorem isPrefixFree_fieldName :
    IsPrefixFree (fun name : String => '=' ∉ name.toList) fun name => name.toList ++ ['='] := by
  intro m n hm hn s t heq
  have hletters : IsPrefixFree (fun c => c ≠ '=') fun c => [c] :=
    fun c d _ _ s t heq => List.cons.inj heq
  have hend : ∀ u : List Char, IsEnd (fun c => c ≠ '=') (fun c => [c]) ('=' :: u) :=
    fun u c hc hbegins => hc (List.cons_prefix_cons.mp hbegins).1
  have hchars : ∀ cs : List Char, cs.flatMap (fun c => [c]) = cs := List.flatMap_singleton'
  rw [List.append_assoc, List.append_assoc, ← hchars m.toList, ← hchars n.toList] at heq
  obtain ⟨hname, htail⟩ := hletters.flatMap_inj (fun c hc he => hm (he ▸ hc))
    (fun c hc he => hn (he ▸ hc)) (hend s) (hend t) heq
  exact ⟨String.toList_inj.mp hname, (List.cons.inj htail).2⟩

/-- What the description of a field can be told apart by. -/
def IsPlainField (field : String × FieldValue) : Prop :=
  '=' ∉ field.1.toList ∧ field.2.IsPlain

theorem isPrefixFree_fieldChars : IsPrefixFree IsPlainField fieldChars :=
  isPrefixFree_fieldName.append FieldValue.isPrefixFree_describe

theorem isPlainField_of_mem {field : String × FieldValue} (h : field ∈ statement.plainFields) :
    IsPlainField field := by
  obtain ⟨given, hgiven, rfl⟩ := List.mem_map.mp h
  have hnames : statement.fields.all (fun field => !field.1.toList.contains '=') = true := by
    cases statement <;> simp [fields]
  exact ⟨by simpa using List.all_eq_true.mp hnames given hgiven, given.2.isPlain_plain⟩

theorem plainFields_eq_of_describe (h : statement.describe = other.describe) :
    statement.plainFields = other.plainFields := by
  have hchars := congrArg String.toList h
  rw [toList_describe, toList_describe, ← List.append_nil (List.intercalate _ _),
    ← List.append_nil (List.intercalate _ (other.plainFields.map _))] at hchars
  have hend : IsEnd IsPlainField fieldChars [] := by
    rintro field - hfield
    simp [fieldChars] at hfield
  have hcomma : ¬ ", ".toList <+: [] := by decide
  exact (isPrefixFree_fieldChars.intercalate_inj (fun _ => isPlainField_of_mem)
    (fun _ => isPlainField_of_mem) hend hend hcomma hcomma hchars).1

def tokensOf (text : String) : List String :=
  match Token.tokenize text with
  | .ok tokens => tokens
  | .error _ => []

theorem tokensOf_spaced {tokens : List String} (h : ∀ t ∈ tokens, Token.IsToken t) :
    tokensOf (" ".intercalate tokens) = tokens := by
  rw [tokensOf, Token.tokenize_spaced h]

def ofPlainFields : Kind → List (String × FieldValue) → Statement
  | .variableDecl, [(_, .text name), (_, .text type), (_, .flag constant), (_, .text value)] =>
    .variableDecl name type constant (tokensOf value)
  | .functionDecl, [(_, .text name), (_, .params params), (_, .text returns)] =>
    .functionDecl name params returns
  | .assign, [(_, .text name), (_, .text value)] => .assign name (tokensOf value)
  | .output, [(_, .text args)] => .output (tokensOf args)
  | .returnValue, [(_, .text value)] => .returnValue (tokensOf value)
  | .conditional, [(_, .text condition), (_, .flag isElif)] =>
    .conditional (tokensOf condition) isElif
  | .elseBranch, _ => .elseBranch
  | .whileLoop, [(_, .text condition)] => .whileLoop (tokensOf condition)
  | .repeatLoop, [(_, .text times), (_, .text counter)] => .repeatLoop times counter
  | .call, [(_, .text name), (_, .text args)] => .call name (tokensOf args)
  | _, _ => .blockEnd

theorem IsSpellable.paramTypes_eq {name returns : String} {params : Entries String}
    (h : IsSpellable (.functionDecl name params returns)) : paramTypes params = params := by
  obtain ⟨command, args, -, hshape⟩ := ofTokens_eq_ok_iff.mp h.reads
  cases hshape with
  | functionDecl other => exact Entries.ofList_of_nodup (nodup_keys_paramsOfTokens _)

/-- A statement is read back from its kind and its plain fields. -/
theorem IsSpellable.ofPlainFields_eq (h : IsSpellable statement) :
    ofPlainFields statement.kind statement.plainFields = statement := by
  cases statement with
  | blockEnd | elseBranch | repeatLoop => rfl
  | functionDecl name params returns =>
    simp only [kind, plainFields, fields, List.map_cons, List.map_nil, FieldValue.plain,
      ofPlainFields, h.paramTypes_eq]
  | variableDecl | assign | output | returnValue | conditional | whileLoop | call =>
    simp only [kind, plainFields, fields, List.map_cons, List.map_nil, FieldValue.plain,
      ofPlainFields]
    rw [tokensOf_spaced]
    exact fun t ht => h.token t (by simp [spelling, ht])

end Statement

namespace Program

/-- Statements that were read from any texts are the same when their kinds and their descriptions
are. -/
theorem statement_eq_iff_describe {text text' : String} {program program' : Program}
    (h : ofText text = .ok program) (h' : ofText text' = .ok program') :
    ∀ statement ∈ program.statements, ∀ other ∈ program'.statements,
      (statement = other ↔
        statement.kind = other.kind ∧ statement.describe = other.describe) := by
  intro statement hstatement other hother
  refine ⟨fun heq => heq ▸ ⟨rfl, rfl⟩, fun ⟨hkind, hdescribe⟩ => ?_⟩
  have hread := (isSpellable_of_ofText h statement hstatement).ofPlainFields_eq
  have hread' := (isSpellable_of_ofText h' other hother).ofPlainFields_eq
  rw [← hread, ← hread', hkind, Statement.plainFields_eq_of_describe hdescribe]

/-- The marks between two fields may stand in a token, which has its quotes escaped. -/
theorem statement_eq_iff_describe_marks :
    let statement : Statement := .assign "\"', value='\"" ["x"]
    let other : Statement := .assign "\"'\"" ["x"]
    ofText "\"', value='\" = x" = .ok ⟨[statement], [1]⟩ ∧
      ofText "\n\"'\" = x" = .ok ⟨[other], [2]⟩ ∧
      statement.describe = "name='\"\\', value=\\'\"', value='x'" ∧
      statement.describe ≠ other.describe := by
  intro statement other
  have htokens {t : String} (ht : Token.IsString t) : ∀ u ∈ [t, "=", "x"], Token.IsToken u := by
    simp only [List.forall_mem_cons]
    exact ⟨.inr ht, .inl ⟨by decide, List.all_eq_true.mp (by decide)⟩,
      .inl ⟨by decide, List.all_eq_true.mp (by decide)⟩, by simp⟩
  have hmarks : Token.IsString "\"', value='\"" := ⟨"', value='".toList, by decide, by decide⟩
  have hquote : Token.IsString "\"'\"" := ⟨['\x27'], by decide, by decide⟩
  have hstatement : ofText "\"', value='\" = x" = .ok ⟨[statement], [1]⟩ :=
    ofText_spaced (htokens hmarks) rfl (by decide)
  have hother : ofText "\n\"'\" = x" = .ok ⟨[other], [2]⟩ :=
    ofText_spaced (htokens hquote) rfl (by decide)
  have hiff := statement_eq_iff_describe hstatement hother statement (List.mem_singleton_self _)
    other (List.mem_singleton_self _)
  have hne : statement ≠ other := by decide
  exact ⟨hstatement, hother, by decide +kernel, fun heq => hne (hiff.mpr ⟨rfl, heq⟩)⟩

end Program
end Linewise
