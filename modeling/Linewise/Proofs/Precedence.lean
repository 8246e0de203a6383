import Linewise.Proofs.Shape

/-! # The order of the rules

Rules compete only for lines with an equals sign behind the first token. There a declaration goes
before an assignment, and an assignment before the rules that take any tokens behind their keyword.
The order of all other rules is free: the rules give every line its statement in exactly those
orders that keep the order of the rivals.
-/

namespace Linewise

namespace Rule

variable {rules : List Rule} {rule other first second : Rule} {command : String}
  {args : List String} {statement statement' : Statement}

/-- The rules that take any tokens behind their keyword, those of an assignment among them. -/
def openEnded : List Rule :=
  [functionDecl, output, returnValue, conditional, whileLoop, repeatLoop]

/-- Two rules that accept a common line, with the one that decides about it first. -/
inductive Rival : Rule → Rule → Prop
  | declaration : Rival variableDecl assign
  | assignment {rule : Rule} (h : rule ∈ openEnded) : Rival assign rule

def Precedes (rules : List Rule) (first second : Rule) : Prop :=
  rules.idxOf first < rules.idxOf second

instance : Decidable (Precedes rules first second) :=
  inferInstanceAs (Decidable (_ < _))

theorem keeps_rivals_iff :
    (∀ first second, Rival first second → Precedes rules first second) ↔
      Precedes rules variableDecl assign ∧ ∀ rule ∈ openEnded, Precedes rules assign rule := by
  constructor
  · exact fun h => ⟨h _ _ .declaration, fun rule hrule => h _ _ (.assignment hrule)⟩
  · rintro ⟨hdeclaration, hassignment⟩ first second (_ | hrule)
    · exact hdeclaration
    · exact hassignment _ hrule

theorem precedes_precedence (h : Rival first second) : Precedes precedence first second :=
  keeps_rivals_iff.mpr (by decide) first second h

theorem Rival.ne (h : Rival first second) : first ≠ second := by
  cases h with
  | declaration => decide
  | assignment hrule =>
    rintro rfl
    exact absurd hrule (by decide)

theorem Rival.eq_assign (h : Rival first second) : first = assign ∨ second = assign := by
  cases h with
  | declaration => exact .inr rfl
  | assignment => exact .inl rfl

theorem rival_of_sign (hrule : rule ≠ assign) (hsign : args.head? = some "=")
    (h : rule.apply command args = some statement) : Rival rule assign ∨ Rival assign rule := by
  obtain ⟨value, rfl⟩ : ∃ value, args = "=" :: value :=
    ⟨args.tail, List.eq_cons_of_mem_head? hsign⟩
  cases rule with
  | variableDecl => exact .inl .declaration
  | constantDecl =>
    simp only [apply] at h
    split at h
    · next typeName name sign rest heq =>
      have hprimitive : "=" ∉ primitiveTypes := by decide
      simp [← (List.cons.inj heq).1, hprimitive] at h
    · cases h
  | assign => exact absurd rfl hrule
  | blockEnd | elseBranch => simp [apply] at h
  | functionDecl | output | returnValue | conditional | whileLoop | repeatLoop =>
    exact .inr (.assignment (by decide))

theorem rival_of_apply (hne : rule ≠ other) (h : rule.apply command args = some statement)
    (h' : other.apply command args = some statement') : Rival rule other ∨ Rival other rule := by
  have hsign : args.head? = some "=" := by
    by_contra hsign
    exact hne (eq_of_apply hsign h h')
  by_cases hrule : rule = assign
  · rw [hrule] at hne ⊢
    exact (rival_of_sign hne.symm hsign h').symm
  by_cases hother : other = assign
  · rw [hother]
    exact rival_of_sign hrule hsign h
  · exact absurd (eq_of_mem_keywords (mem_keywords_of_apply hrule h)
      (mem_keywords_of_apply hother h')) hne

theorem Rival.eq_or_eq (hrival : Rival first second)
    (hfirst : first.apply command args = some statement)
    (hsecond : second.apply command args = some statement')
    (h : rule.apply command args ≠ none) : rule = first ∨ rule = second := by
  obtain ⟨accepted, h⟩ := Option.ne_none_iff_exists'.mp h
  by_cases hrule : rule = assign
  · rw [hrule]
    exact hrival.eq_assign.imp Eq.symm Eq.symm
  have hkeyword := mem_keywords_of_apply hrule h
  rcases hrival.eq_assign with heq | heq
  · have hassign : second ≠ assign := fun he => hrival.ne (heq.trans he.symm)
    exact .inr (eq_of_mem_keywords hkeyword (mem_keywords_of_apply hassign hsecond))
  · have hassign : first ≠ assign := fun he => hrival.ne (he.trans heq.symm)
    exact .inl (eq_of_mem_keywords hkeyword (mem_keywords_of_apply hassign hfirst))

/-- Rivals compete for some line, and they give it different statements. -/
theorem Rival.exists_contest (h : Rival first second) :
    ∃ command args statement statement', first.apply command args = some statement ∧
      second.apply command args = some statement' ∧ statement ≠ statement' := by
  cases h with
  | declaration => exact ⟨"number", ["=", "="], _, _, rfl, rfl, by decide⟩
  | assignment hrule =>
    simp only [openEnded, List.mem_cons, List.not_mem_nil, or_false] at hrule
    rcases hrule with rfl | rfl | rfl | rfl | rfl | rfl
    · exact ⟨"func", ["=", "->", "x"], _, _, rfl, rfl, by decide⟩
    · exact ⟨"say", ["="], _, _, rfl, rfl, by decide⟩
    · exact ⟨"return", ["="], _, _, rfl, rfl, by decide⟩
    · exact ⟨"if", ["="], _, _, rfl, rfl, by decide⟩
    · exact ⟨"while", ["="], _, _, rfl, rfl, by decide⟩
    · exact ⟨"repeat", ["="], _, _, rfl, rfl, by decide⟩

end Rule

namespace Statement

open Rule

variable {rules : List Rule} {rule first second : Rule} {command : String} {args : List String}
  {statement statement' : Statement}

theorem exists_leader (hmem : rule ∈ rules) (h : rule.apply command args ≠ none) :
    ∃ leader ∈ rules, leader.apply command args = some (ofTokensBy rules command args) ∧
      ∀ other : Rule, other.apply command args ≠ none →
        rules.idxOf leader ≤ rules.idxOf other := by
  induction rules with
  | nil => cases hmem
  | cons head rules ih =>
    cases hhead : head.apply command args with
    | some statement =>
      refine ⟨head, List.mem_cons_self, ?_, fun other _ => by simp⟩
      simp [ofTokensBy, hhead]
    | none =>
      have hne : ∀ other : Rule, other.apply command args ≠ none → head ≠ other := by
        rintro other hother rfl
        exact hother hhead
      obtain ⟨leader, hleader, happly, hleast⟩ :=
        ih ((List.mem_cons.mp hmem).resolve_left (hne rule h).symm)
      have hstatement :
          ofTokensBy (head :: rules) command args = ofTokensBy rules command args := by
        simp [ofTokensBy, hhead]
      refine ⟨leader, List.mem_cons_of_mem _ hleader, by rw [hstatement, happly],
        fun other hother => ?_⟩
      rw [List.idxOf_cons_ne _ (hne leader (by simp [happly])),
        List.idxOf_cons_ne _ (hne other hother)]
      exact Nat.succ_le_succ (hleast other hother)

theorem ofTokensBy_of_rival (hall : ∀ rule : Rule, rule ∈ rules) (hrival : Rival first second)
    (hfirst : first.apply command args = some statement)
    (hsecond : second.apply command args = some statement') :
    ofTokensBy rules command args =
      if Precedes rules first second then statement else statement' := by
  obtain ⟨leader, -, hleader, hleast⟩ :=
    exists_leader (hall first) (by rw [hfirst]; exact Option.some_ne_none _)
  have hfirst' := hleast first (by simp [hfirst])
  have hsecond' := hleast second (by simp [hsecond])
  have haccepts : leader.apply command args ≠ none := by rw [hleader]; exact Option.some_ne_none _
  rcases hrival.eq_or_eq hfirst hsecond haccepts with rfl | rfl
  · have hne : rules.idxOf leader ≠ rules.idxOf second := fun heq =>
      hrival.ne ((List.idxOf_inj (hall leader)).mp heq)
    have hprecedes : Precedes rules leader second := Nat.lt_of_le_of_ne hsecond' hne
    rw [if_pos hprecedes]
    exact Option.some.inj (hleader.symm.trans hfirst)
  · have hnot : ¬ Precedes rules first leader := Nat.not_lt.mpr hfirst'
    rw [if_neg hnot]
    exact Option.some.inj (hleader.symm.trans hsecond)

theorem ofTokensBy_eq_of_keeps (hall : ∀ rule : Rule, rule ∈ rules)
    (hkeeps : ∀ first second, Rival first second → Precedes rules first second)
    (command : String) (args : List String) :
    ofTokensBy rules command args = ofTokensBy precedence command args := by
  by_cases hcall : ∀ rule : Rule, rule.apply command args = none
  · rw [ofTokensBy_of_call rules hcall, ofTokensBy_of_call precedence hcall]
  push Not at hcall
  obtain ⟨rule, hrule⟩ := hcall
  obtain ⟨leader, -, hleader, hleast⟩ := exists_leader (hall rule) hrule
  obtain ⟨other, -, hother, hleast'⟩ := exists_leader (mem_precedence rule) hrule
  by_cases heq : leader = other
  · rw [heq] at hleader
    exact Option.some.inj (hleader.symm.trans hother)
  -- leaders that differ are rivals, and one of the two orders contradicts theirs
  rcases rival_of_apply heq hleader hother with hrival | hrival
  · exact absurd (hleast' leader (by simp [hleader])) (Nat.not_le.mpr (precedes_precedence hrival))
  · exact absurd (hleast other (by simp [hother])) (Nat.not_le.mpr (hkeeps _ _ hrival))

/-- The rules may be tried in exactly those orders that have declarations before assignments and
assignments before the open-ended rules. No line is accepted by two other rules. -/
theorem ofTokensBy_eq_iff_keeps (rules : List Rule) (hperm : rules.Perm precedence) :
    ((∀ command args, ofTokens (command :: args) = .ok (ofTokensBy rules command args)) ↔
      Precedes rules .variableDecl .assign ∧ ∀ rule ∈ openEnded, Precedes rules .assign rule) ∧
    ∀ rule other : Rule, rule ≠ other →
      ((∃ command args, rule.apply command args ≠ none ∧ other.apply command args ≠ none) ↔
        Rival rule other ∨ Rival other rule) := by
  have hall : ∀ rule : Rule, rule ∈ rules := fun rule => hperm.mem_iff.mpr (mem_precedence rule)
  rw [← keeps_rivals_iff]
  refine ⟨⟨fun hagree first second hrival => ?_, fun hkeeps command args => ?_⟩,
    fun rule other hne => ⟨?_, ?_⟩⟩
  · obtain ⟨command, args, statement, statement', hfirst, hsecond, hdiffer⟩ :=
      hrival.exists_contest
    have hrules := ofTokensBy_of_rival hall hrival hfirst hsecond
    have hprecedence := ofTokensBy_of_rival mem_precedence hrival hfirst hsecond
    rw [if_pos (precedes_precedence hrival), Except.ok.inj (hagree command args), hrules]
      at hprecedence
    by_contra hnot
    rw [if_neg hnot] at hprecedence
    exact hdiffer hprecedence.symm
  · rw [ofTokensBy_eq_of_keeps hall hkeeps]
    rfl
  · rintro ⟨command, args, hrule, hother⟩
    obtain ⟨statement, hrule⟩ := Option.ne_none_iff_exists'.mp hrule
    obtain ⟨statement', hother⟩ := Option.ne_none_iff_exists'.mp hother
    exact rival_of_apply hne hrule hother
  · rintro (hrival | hrival) <;>
      obtain ⟨command, args, statement, statement', hfirst, hsecond, -⟩ := hrival.exists_contest
    · exact ⟨command, args, by simp [hfirst], by simp [hsecond]⟩
    · exact ⟨command, args, by simp [hsecond], by simp [hfirst]⟩

theorem ofTokensBy_eq_iff_keeps_shuffled :
    let rules : List Rule := [.elseBranch, .blockEnd, .constantDecl, .variableDecl, .assign,
      .repeatLoop, .whileLoop, .conditional, .returnValue, .output, .functionDecl]
    rules.Perm precedence ∧
      ∀ command args, ofTokens (command :: args) = .ok (ofTokensBy rules command args) :=
  ⟨by decide, (ofTokensBy_eq_iff_keeps _ (by decide)).1.mpr (by decide)⟩

end Statement
end Linewise
