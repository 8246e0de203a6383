import Linewise.Proofs.Depth

/-! # The grammar of blocks

A program is a sequence of simple statements and blocks. A block has an opening statement, a
sequence of simple statements, blocks and branches, and an end. The check of blocks, which walks
over the statements once, accepts exactly the programs that this grammar derives.
-/

namespace Linewise

inductive Statement.IsOpener : Statement → Prop
  | functionDecl (name : String) (params : List (String × String)) (returns : String) :
    IsOpener (.functionDecl name params returns)
  | whileLoop (condition : List String) : IsOpener (.whileLoop condition)
  | repeatLoop (times counter : String) : IsOpener (.repeatLoop times counter)
  | conditional (condition : List String) : IsOpener (.conditional condition false)

inductive Statement.IsSimple : Statement → Prop
  | variableDecl (name type : String) (constant : Bool) (value : List String) :
    IsSimple (.variableDecl name type constant value)
  | assign (name : String) (value : List String) : IsSimple (.assign name value)
  | output (args : List String) : IsSimple (.output args)
  | returnValue (value : List String) : IsSimple (.returnValue value)
  | call (name : String) (args : List String) : IsSimple (.call name args)

theorem Statement.role_eq_opens_iff {statement : Statement} :
    statement.role = .opens ↔ statement.IsOpener := by
  constructor
  · intro h
    cases statement with
    | functionDecl name params returns => exact .functionDecl name params returns
    | whileLoop condition => exact .whileLoop condition
    | repeatLoop times counter => exact .repeatLoop times counter
    | conditional condition isElif =>
      cases isElif with
      | false => exact .conditional condition
      | true => cases h
    | variableDecl | blockEnd | assign | output | returnValue | elseBranch | call => cases h
  · intro h
    cases h <;> rfl

theorem Statement.role_eq_simple_iff {statement : Statement} :
    statement.role = .simple ↔ statement.IsSimple := by
  constructor
  · intro h
    cases statement with
    | variableDecl name type constant value => exact .variableDecl name type constant value
    | assign name value => exact .assign name value
    | output args => exact .output args
    | returnValue value => exact .returnValue value
    | call name args => exact .call name args
    | conditional condition isElif => cases isElif <;> cases h
    | functionDecl | blockEnd | elseBranch | whileLoop | repeatLoop => cases h
  · intro h
    cases h <;> rfl

theorem Statement.eq_blockEnd_of_role {statement : Statement} (h : statement.role = .closes) :
    statement = .blockEnd := by
  cases statement with
  | blockEnd => rfl
  | conditional condition isElif => cases isElif <;> cases h
  | variableDecl | functionDecl | assign | output | returnValue | elseBranch | whileLoop
  | repeatLoop | call => cases h

namespace Block

mutual

/-- `Block ::= Opener Inner* end` -/
inductive IsBlock : List Statement → Prop
  | intro {opener : Statement} {parts : List (List Statement)} (head : opener.IsOpener)
    (body : ∀ part ∈ parts, IsInner part) : IsBlock (opener :: parts.flatten ++ [.blockEnd])

/-- `Inner ::= Simple | Block | else | elif` -/
inductive IsInner : List Statement → Prop
  | simple {statement : Statement} (h : statement.IsSimple) : IsInner [statement]
  | block {statements : List Statement} (h : IsBlock statements) : IsInner statements
  | elseBranch : IsInner [.elseBranch]
  | elifBranch (condition : List String) : IsInner [.conditional condition true]

end

/-- `Outer ::= Simple | Block`, the parts of a program. -/
inductive IsOuter : List Statement → Prop
  | simple {statement : Statement} (h : statement.IsSimple) : IsOuter [statement]
  | block {statements : List Statement} (h : IsBlock statements) : IsOuter statements

/-- `Part*` -/
def IsSequence (IsPart : List Statement → Prop) (statements : List Statement) : Prop :=
  ∃ parts : List (List Statement), (∀ part ∈ parts, IsPart part) ∧ parts.flatten = statements

/-- `Top ::= (Simple | Block)*` -/
def IsTop (statements : List Statement) : Prop :=
  IsSequence IsOuter statements

theorem IsOuter.isInner {part : List Statement} (h : IsOuter part) : IsInner part := by
  cases h with
  | simple h => exact .simple h
  | block h => exact .block h

theorem isInner_of_role {statement : Statement} {dependent : Dependent}
    (h : statement.role = .continues dependent) : IsInner [statement] := by
  cases statement with
  | elseBranch => exact .elseBranch
  | conditional condition isElif =>
    cases isElif with
    | false => cases h
    | true => exact .elifBranch condition
  | variableDecl | functionDecl | blockEnd | assign | output | returnValue | whileLoop
  | repeatLoop | call => cases h

variable {IsPart : List Statement → Prop} {part statements : List Statement} {depth : Nat}

theorem isSequence_nil : IsSequence IsPart [] :=
  ⟨[], by simp, rfl⟩

theorem IsSequence.append_left (hpart : IsPart part) (h : IsSequence IsPart statements) :
    IsSequence IsPart (part ++ statements) := by
  obtain ⟨parts, hparts, rfl⟩ := h
  exact ⟨part :: parts, List.forall_mem_cons.mpr ⟨hpart, hparts⟩, rfl⟩

theorem IsSequence.isBlock {opener : Statement} (head : opener.IsOpener)
    (body : IsSequence IsInner statements) : IsBlock (opener :: statements ++ [.blockEnd]) := by
  obtain ⟨parts, hparts, rfl⟩ := body
  exact .intro head hparts

def roleBraces (statements : List Statement) : List Char :=
  statements.flatMap fun statement => statement.role.braces

theorem roleBraces_cons (statement : Statement) (statements : List Statement) :
    roleBraces (statement :: statements) = statement.role.braces ++ roleBraces statements :=
  List.flatMap_cons ..

theorem roleBraces_append (first second : List Statement) :
    roleBraces (first ++ second) = roleBraces first ++ roleBraces second :=
  List.flatMap_append

theorem walk_flatten {parts : List (List Statement)}
    (h : ∀ part ∈ parts, walk depth (roleBraces part) = some depth) :
    walk depth (roleBraces parts.flatten) = some depth := by
  induction parts with
  | nil => rfl
  | cons part parts ih =>
    obtain ⟨hpart, hparts⟩ := List.forall_mem_cons.mp h
    rw [List.flatten_cons, roleBraces_append, walk_append, hpart]
    exact ih hparts

mutual

theorem IsBlock.walk_eq {statements : List Statement} (h : IsBlock statements) (depth : Nat) :
    walk depth (roleBraces statements) = some depth :=
  match h with
  | @IsBlock.intro opener parts head body => by
    have hbody : walk (depth + 1) (roleBraces parts.flatten) = some (depth + 1) :=
      walk_flatten fun part hpart => (body part hpart).walk_eq depth
    rw [List.cons_append, roleBraces_cons, Statement.role_eq_opens_iff.mpr head,
      roleBraces_append, ← List.append_assoc, walk_append, Role.braces, List.singleton_append,
      walk_cons, depthStep_open, Option.bind_some, hbody]
    rfl

theorem IsInner.walk_eq {part : List Statement} (h : IsInner part) (depth : Nat) :
    walk (depth + 1) (roleBraces part) = some (depth + 1) :=
  match h with
  | .simple h => by
    rw [roleBraces_cons, Statement.role_eq_simple_iff.mpr h]
    rfl
  | .block h => h.walk_eq (depth + 1)
  | .elseBranch => rfl
  | .elifBranch _ => rfl

end

theorem IsOuter.walk_eq (h : IsOuter part) (depth : Nat) :
    walk depth (roleBraces part) = some depth := by
  cases h with
  | simple h =>
    rw [roleBraces_cons, Statement.role_eq_simple_iff.mpr h]
    rfl
  | block h => exact h.walk_eq depth

/-- The statements close as many open blocks as the depth says, one after the other, and what
follows is a program. -/
def Closes : Nat → List Statement → Prop
  | 0, statements => IsTop statements
  | depth + 1, statements => ∃ body rest, IsSequence IsInner body ∧ Closes depth rest ∧
      statements = body ++ .blockEnd :: rest

theorem Closes.append_inner (hpart : IsInner part) (h : Closes (depth + 1) statements) :
    Closes (depth + 1) (part ++ statements) := by
  obtain ⟨body, rest, hbody, hrest, rfl⟩ := h
  exact ⟨part ++ body, rest, hbody.append_left hpart, hrest, (List.append_assoc ..).symm⟩

theorem Closes.append_outer (hpart : IsOuter part) (h : Closes depth statements) :
    Closes depth (part ++ statements) := by
  cases depth with
  | zero => exact IsSequence.append_left hpart h
  | succ depth => exact h.append_inner hpart.isInner

theorem closes_of_walk (h : walk depth (roleBraces statements) = some 0) :
    Closes depth statements := by
  induction statements generalizing depth with
  | nil =>
    obtain rfl : depth = 0 := Option.some.inj h
    exact isSequence_nil
  | cons statement statements ih =>
    rw [roleBraces_cons, walk_append] at h
    cases hrole : statement.role with
    | opens =>
      -- the block of the statement ends where the innermost of the open blocks does
      rw [hrole] at h
      obtain ⟨body, rest, hbody, hrest, rfl⟩ := ih h
      have hblock := hbody.isBlock (Statement.role_eq_opens_iff.mp hrole)
      have hcloses := hrest.append_outer (.block hblock)
      rwa [List.append_assoc, List.singleton_append, List.cons_append] at hcloses
    | closes =>
      rw [hrole] at h
      obtain rfl := Statement.eq_blockEnd_of_role hrole
      cases depth with
      | zero => cases h
      | succ depth => exact ⟨[], statements, isSequence_nil, ih h, rfl⟩
    | continues dependent =>
      rw [hrole] at h
      cases depth with
      | zero => cases h
      | succ depth => exact (ih h).append_inner (isInner_of_role hrole)
    | simple =>
      rw [hrole] at h
      exact (ih h).append_outer (.simple (Statement.role_eq_simple_iff.mp hrole))

theorem isTop_iff_walk : IsTop statements ↔ walk 0 (roleBraces statements) = some 0 := by
  constructor
  · rintro ⟨parts, hparts, rfl⟩
    exact walk_flatten fun part hpart => (hparts part hpart).walk_eq 0
  · exact fun h => closes_of_walk h

/-- The check of blocks accepts exactly the programs that the grammar derives, whatever the numbers
of their lines are. -/
theorem check_eq_ok_iff_isTop (program : Program) :
    (check program = .ok () ↔ IsTop program.statements) ∧
      ∀ lines, check { program with lines } = .ok () ↔ check program = .ok () := by
  have hcheck : ∀ program : Program, check program = .ok () ↔ IsTop program.statements :=
    fun program => check_eq_ok_iff_walk.trans isTop_iff_walk.symm
  exact ⟨hcheck program, fun lines => (hcheck { program with lines }).trans (hcheck program).symm⟩

end Block
end Linewise
