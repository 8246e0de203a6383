import Linewise.Proofs.Grammar
import Mathlib.Data.List.Forall2

/-! # What the check of blocks finds wrong

An end closes the latest block above it that no end in between has closed. The check keeps the lines
of the blocks that are open, so it refuses a program for the first line that needs an open block
where all of them are closed, and otherwise for the blocks that no end closes.
-/

namespace Linewise

inductive Statement.Needs : Statement → Dependent → Prop
  | blockEnd : Needs .blockEnd .close
  | elseBranch : Needs .elseBranch .elseBranch
  | elifBranch (condition : List String) : Needs (.conditional condition true) .elifBranch

theorem Statement.needs_of_role {statement : Statement} {dependent : Dependent}
    (h : statement.role = .continues dependent) : statement.Needs dependent := by
  cases statement with
  | elseBranch =>
    cases h
    exact .elseBranch
  | conditional condition isElif =>
    cases isElif with
    | false => cases h
    | true =>
      cases h
      exact .elifBranch condition
  | variableDecl | functionDecl | blockEnd | assign | output | returnValue | whileLoop
  | repeatLoop | call => cases h

namespace Block

def OpensAt (statements : List Statement) (i : Nat) : Prop :=
  ∃ statement, statements[i]? = some statement ∧ statement.IsOpener

/-- The block that is opened at position `i` is open before position `j`: no end before `j` closes
it, where an end closes the latest block that is open before it. -/
def IsOpen (statements : List Statement) (j i : Nat) : Prop :=
  i < j ∧ OpensAt statements i ∧
    ∀ k, k < j → ¬ (statements[k]? = some .blockEnd ∧ IsOpen statements k i ∧
      ∀ i', IsOpen statements k i' → i' ≤ i)
termination_by j

/-- The end at position `j` closes the block that is opened at position `i`, the latest one that is
open before it. -/
def Matches (statements : List Statement) (j i : Nat) : Prop :=
  statements[j]? = some .blockEnd ∧ IsOpen statements j i ∧ ∀ i', IsOpen statements j i' → i' ≤ i

variable {statements : List Statement} {i j : Nat} {positions : List Nat}

theorem isOpen_iff :
    IsOpen statements j i ↔ i < j ∧ OpensAt statements i ∧ ∀ k < j, ¬ Matches statements k i := by
  rw [IsOpen]
  rfl

theorem OpensAt.lt (h : OpensAt statements i) : i < statements.length := by
  obtain ⟨statement, hstatement, -⟩ := h
  exact (List.getElem?_eq_some_iff.mp hstatement).1

theorem OpensAt.ne_blockEnd (h : OpensAt statements j) : statements[j]? ≠ some .blockEnd := by
  obtain ⟨statement, hstatement, hopener⟩ := h
  rintro hend
  cases hend.symm.trans hstatement
  cases hopener

theorem IsOpen.lt (h : IsOpen statements j i) : i < j :=
  (isOpen_iff.mp h).1

theorem Matches.lt (h : Matches statements j i) : i < j :=
  h.2.1.lt

theorem isOpen_succ_iff :
    IsOpen statements (j + 1) i ↔
      (IsOpen statements j i ∨ i = j ∧ OpensAt statements j) ∧ ¬ Matches statements j i := by
  simp only [isOpen_iff, Nat.lt_succ_iff_lt_or_eq]
  constructor
  · rintro ⟨hi, hopens, hnone⟩
    refine ⟨?_, hnone j (.inr rfl)⟩
    rcases hi with hi | rfl
    · exact .inl ⟨hi, hopens, fun k hk => hnone k (.inl hk)⟩
    · exact .inr ⟨rfl, hopens⟩
  · rintro ⟨⟨hi, hopens, hnone⟩ | ⟨rfl, hopens⟩, hlast⟩
    · refine ⟨.inl hi, hopens, ?_⟩
      rintro k (hk | rfl)
      · exact hnone k hk
      · exact hlast
    · refine ⟨.inr rfl, hopens, fun k hk h => ?_⟩
      have hlt := h.lt
      omega

structure IsStack (statements : List Statement) (j : Nat) (positions : List Nat) : Prop where
  sorted : positions.Pairwise (· > ·)
  mem_iff : ∀ i, i ∈ positions ↔ IsOpen statements j i

namespace IsStack

theorem zero (statements : List Statement) : IsStack statements 0 [] where
  sorted := .nil
  mem_iff i := by
    refine ⟨fun h => (by cases h), fun h => ?_⟩
    have hlt := h.lt
    omega

theorem opens (h : IsStack statements j positions) (hopens : OpensAt statements j) :
    IsStack statements (j + 1) (j :: positions) where
  sorted := by
    refine List.pairwise_cons.mpr ⟨fun i hi => ?_, h.sorted⟩
    exact ((h.mem_iff i).mp hi).lt
  mem_iff i := by
    have hnone : ¬ Matches statements j i := fun hm => hopens.ne_blockEnd hm.1
    rw [isOpen_succ_iff, List.mem_cons, h.mem_iff]
    exact ⟨fun hi => ⟨hi.symm.imp_right fun he => ⟨he, hopens⟩, hnone⟩,
      fun hi => hi.1.symm.imp_left And.left⟩

theorem matches_head (h : IsStack statements j (i :: positions))
    (hend : statements[j]? = some .blockEnd) : Matches statements j i := by
  refine ⟨hend, (h.mem_iff i).mp List.mem_cons_self, fun k hk => ?_⟩
  rcases List.mem_cons.mp ((h.mem_iff k).mpr hk) with rfl | hmem
  · exact Nat.le_refl k
  · exact Nat.le_of_lt ((List.pairwise_cons.mp h.sorted).1 k hmem)

theorem closes (h : IsStack statements j (i :: positions))
    (hend : statements[j]? = some .blockEnd) : IsStack statements (j + 1) positions where
  sorted := (List.pairwise_cons.mp h.sorted).2
  mem_iff k := by
    rw [isOpen_succ_iff]
    constructor
    · intro hk
      refine ⟨.inl ((h.mem_iff k).mp (List.mem_cons_of_mem _ hk)), fun hm => ?_⟩
      have hle := hm.2.2 i ((h.mem_iff i).mp List.mem_cons_self)
      have hlt := (List.pairwise_cons.mp h.sorted).1 k hk
      omega
    · rintro ⟨hk | ⟨-, hopens⟩, hnone⟩
      · refine (List.mem_cons.mp ((h.mem_iff k).mpr hk)).resolve_left ?_
        rintro rfl
        exact hnone (h.matches_head hend)
      · exact absurd hend hopens.ne_blockEnd

theorem stays (h : IsStack statements j positions) (hopens : ¬ OpensAt statements j)
    (hend : statements[j]? ≠ some .blockEnd) : IsStack statements (j + 1) positions where
  sorted := h.sorted
  mem_iff k := by
    rw [isOpen_succ_iff, h.mem_iff]
    exact ⟨fun hk => ⟨.inl hk, fun hm => hend hm.1⟩,
      fun hk => hk.1.resolve_right fun ho => hopens ho.2⟩

end IsStack

/-- The statement at the position needs an open block, and every block that is opened before it is
closed before it. -/
structure IsStray (statements : List Statement) (j : Nat) (dependent : Dependent) : Prop where
  needs : ∃ statement, statements[j]? = some statement ∧ statement.Needs dependent
  closed : ∀ i < j, OpensAt statements i → ∃ k < j, Matches statements k i

theorem isStray_iff {dependent : Dependent} :
    IsStray statements j dependent ↔
      (∃ statement, statements[j]? = some statement ∧ statement.Needs dependent) ∧
        ∀ i, ¬ IsOpen statements j i := by
  constructor
  · rintro ⟨hneeds, hclosed⟩
    refine ⟨hneeds, fun i hi => ?_⟩
    obtain ⟨hlt, hopens, hnone⟩ := isOpen_iff.mp hi
    obtain ⟨k, hk, hm⟩ := hclosed i hlt hopens
    exact hnone k hk hm
  · rintro ⟨hneeds, hnone⟩
    refine ⟨hneeds, fun i hi hopens => ?_⟩
    by_contra hopen
    push Not at hopen
    exact hnone i (isOpen_iff.mpr ⟨hi, hopens, hopen⟩)

variable {entries : List (Int × Statement)} {entry : Int × Statement} {opened : List Int}
  {dependent : Dependent} {line : Int}

def LineAt (entries : List (Int × Statement)) (i : Nat) (line : Int) : Prop :=
  ∃ statement, entries[i]? = some (line, statement)

/-- The lines of the blocks that are open before a position, the latest one first. -/
def IsOpened (entries : List (Int × Statement)) (j : Nat) (opened : List Int) : Prop :=
  ∃ positions, IsStack (entries.map Prod.snd) j positions ∧
    List.Forall₂ (LineAt entries) positions opened

theorem IsOpened.eq_nil_iff (h : IsOpened entries j opened) :
    opened = [] ↔ ∀ i, ¬ IsOpen (entries.map Prod.snd) j i := by
  obtain ⟨positions, hstack, hlines⟩ := h
  simp only [← hstack.mem_iff, ← List.eq_nil_iff_forall_not_mem]
  constructor
  · rintro rfl
    exact List.forall₂_nil_right_iff.mp hlines
  · rintro rfl
    exact List.forall₂_nil_left_iff.mp hlines

theorem exists_step (h : IsOpened entries j opened) (hentry : entries[j]? = some entry)
    (hnone : ∀ dependent, ¬ IsStray (entries.map Prod.snd) j dependent) :
    ∃ next, step opened entry = .ok next ∧ IsOpened entries (j + 1) next := by
  obtain ⟨line, statement⟩ := entry
  have hstatement : (entries.map Prod.snd)[j]? = some statement := by simp [hentry]
  have hfilled {dependent : Dependent} (hneeds : statement.Needs dependent) : opened ≠ [] := by
    intro hnil
    exact hnone dependent (isStray_iff.mpr ⟨⟨statement, hstatement, hneeds⟩, h.eq_nil_iff.mp hnil⟩)
  have hstays (hopens : ¬ statement.IsOpener) (hend : statement ≠ .blockEnd) :
      IsOpened entries (j + 1) opened := by
    obtain ⟨positions, hstack, hlines⟩ := h
    refine ⟨positions, hstack.stays ?_ (by simpa [hstatement] using hend), hlines⟩
    rintro ⟨other, hother, hopener⟩
    cases hstatement.symm.trans hother
    exact hopens hopener
  cases hrole : statement.role with
  | opens =>
    obtain ⟨positions, hstack, hlines⟩ := h
    have hopener := Statement.role_eq_opens_iff.mp hrole
    refine ⟨line :: opened, by simp [step, hrole], j :: positions, ?_, ?_⟩
    · exact hstack.opens ⟨statement, hstatement, hopener⟩
    · exact .cons ⟨statement, hentry⟩ hlines
  | closes =>
    obtain rfl := Statement.eq_blockEnd_of_role hrole
    obtain ⟨top, outer, rfl⟩ := List.exists_cons_of_ne_nil (hfilled .blockEnd)
    obtain ⟨positions, hstack, hlines⟩ := h
    obtain ⟨i, rest, -, hrest, rfl⟩ := List.forall₂_cons_right_iff.mp hlines
    exact ⟨outer, by simp [step, hrole], rest, hstack.closes hstatement, hrest⟩
  | continues dependent =>
    obtain ⟨top, outer, rfl⟩ := List.exists_cons_of_ne_nil (hfilled (Statement.needs_of_role hrole))
    refine ⟨top :: outer, by simp [step, hrole], hstays (fun ho => ?_) ?_⟩
    · rw [Statement.role_eq_opens_iff.mpr ho] at hrole
      cases hrole
    · rintro rfl
      cases hrole
  | simple =>
    refine ⟨opened, by simp [step, hrole], hstays (fun ho => ?_) ?_⟩
    · rw [Statement.role_eq_opens_iff.mpr ho] at hrole
      cases hrole
    · rintro rfl
      cases hrole

/-- The run over the statements before a position, each of which has the open block that it needs,
gives the lines of the open blocks. -/
theorem exists_foldlM_step (hj : j ≤ entries.length)
    (hnone : ∀ k < j, ∀ dependent, ¬ IsStray (entries.map Prod.snd) k dependent) :
    ∃ opened, (entries.take j).foldlM step [] = .ok opened ∧ IsOpened entries j opened := by
  induction j with
  | zero => exact ⟨[], rfl, [], .zero _, .nil⟩
  | succ j ih =>
    obtain ⟨opened, hrun, hopened⟩ := ih (by omega) fun k hk => hnone k (by omega)
    obtain ⟨entry, hentry⟩ : ∃ entry, entries[j]? = some entry := ⟨_, List.getElem?_eq_getElem hj⟩
    obtain ⟨next, hstep, hnext⟩ := exists_step hopened hentry (hnone j (by omega))
    refine ⟨next, ?_, hnext⟩
    rw [List.take_add_one, hentry, List.foldlM_append, hrun]
    change (step opened entry >>= _) = _
    rw [hstep]
    rfl

def IsFirstStray (statements : List Statement) (j : Nat) (dependent : Dependent) : Prop :=
  IsStray statements j dependent ∧ ∀ k < j, ∀ other, ¬ IsStray statements k other

theorem IsStray.exists_first (h : IsStray statements j dependent) :
    ∃ k other, IsFirstStray statements k other := by
  induction j using Nat.strongRecOn generalizing dependent with
  | ind j ih =>
    by_cases hearlier : ∃ k < j, ∃ other, IsStray statements k other
    · obtain ⟨k, hk, other, hother⟩ := hearlier
      exact ih k hk hother
    · push Not at hearlier
      exact ⟨j, dependent, h, hearlier⟩

theorem IsStray.step_eq (h : IsStray (entries.map Prod.snd) j dependent)
    (hentry : entries[j]? = some entry) :
    step [] entry = .error (.outside dependent entry.1) := by
  obtain ⟨statement, hstatement, hneeds⟩ := h.needs
  obtain rfl : entry.2 = statement := by simpa [hentry] using hstatement
  obtain ⟨line, statement⟩ := entry
  cases hneeds <;> rfl

theorem IsFirstStray.foldlM_step (h : IsFirstStray (entries.map Prod.snd) j dependent)
    (hentry : entries[j]? = some entry) :
    (entries.take (j + 1)).foldlM step [] = .error (.outside dependent entry.1) := by
  obtain ⟨hlt, -⟩ := List.getElem?_eq_some_iff.mp hentry
  obtain ⟨opened, hrun, hopened⟩ := exists_foldlM_step (Nat.le_of_lt hlt) h.2
  obtain rfl := hopened.eq_nil_iff.mpr (isStray_iff.mp h.1).2
  rw [List.take_add_one, hentry, List.foldlM_append, hrun]
  change (step [] entry >>= _) = _
  rw [h.1.step_eq hentry]
  rfl

theorem foldlM_step_of_take {n : Nat} {fault : BlockFault}
    (h : (entries.take n).foldlM step [] = .error fault) :
    entries.foldlM step [] = .error fault := by
  rw [← List.take_append_drop n entries, List.foldlM_append, h]
  rfl

variable {program : Program}

theorem check_of_isFirstStray (h : IsFirstStray program.statements j dependent) :
    ∃ line, LineAt program.numbered j line ∧
      ∀ other : Program, other.numbered.take (j + 1) = program.numbered.take (j + 1) →
        check other = .error (.outside dependent line) := by
  rw [← program.map_snd_numbered] at h
  obtain ⟨statement, hstatement, -⟩ := h.1.needs
  rw [List.getElem?_map] at hstatement
  obtain ⟨entry, hentry, rfl⟩ := Option.map_eq_some_iff.mp hstatement
  refine ⟨entry.1, ⟨entry.2, hentry⟩, fun other hother => ?_⟩
  have hrun : other.numbered.foldlM step [] = _ :=
    foldlM_step_of_take (hother ▸ h.foldlM_step hentry)
  rw [check, hrun]

structure IsUnclosed (statements : List Statement) (positions : List Nat) : Prop where
  sorted : positions.Pairwise (· < ·)
  mem_iff : ∀ i, i ∈ positions ↔ OpensAt statements i ∧ ∀ j, ¬ Matches statements j i

theorem isOpen_length_iff :
    IsOpen statements statements.length i ↔
      OpensAt statements i ∧ ∀ j, ¬ Matches statements j i := by
  rw [isOpen_iff]
  constructor
  · rintro ⟨-, hopens, hnone⟩
    refine ⟨hopens, fun k hm => ?_⟩
    obtain ⟨hk, -⟩ := List.getElem?_eq_some_iff.mp hm.1
    exact hnone k hk hm
  · rintro ⟨hopens, hnone⟩
    exact ⟨hopens.lt, hopens, fun k _ => hnone k⟩

theorem IsStack.isUnclosed (h : IsStack statements statements.length positions) :
    IsUnclosed statements positions.reverse where
  sorted := List.pairwise_reverse.mpr h.sorted
  mem_iff i := by rw [List.mem_reverse, h.mem_iff, isOpen_length_iff]

theorem check_of_not_isStray (h : ∀ j dependent, ¬ IsStray program.statements j dependent) :
    ∃ positions lines, IsUnclosed program.statements positions ∧
      List.Forall₂ (LineAt program.numbered) positions lines ∧
      check program = if positions = [] then .ok () else .error (.unclosed lines) := by
  obtain ⟨opened, hrun, positions, hstack, hlines⟩ :=
    exists_foldlM_step (Nat.le_refl program.numbered.length) fun k _ => by
      rw [program.map_snd_numbered]
      exact h k
  rw [List.take_length] at hrun
  rw [← List.length_map Prod.snd, program.map_snd_numbered] at hstack
  refine ⟨positions.reverse, opened.reverse, hstack.isUnclosed, List.rel_reverse hlines, ?_⟩
  rw [check, hrun]
  cases hlines with
  | nil => rfl
  | cons => simp

/-- A program with a line that needs an open block where every block above is closed is refused for
the first such line, whatever comes after it. Any other program is refused for the blocks that no
end closes, or accepted if there is none. -/
theorem check_diagnosis (program : Program) :
    ((∃ j dependent, IsStray program.statements j dependent) →
      ∃ j dependent line, IsFirstStray program.statements j dependent ∧
        LineAt program.numbered j line ∧
        let fault := BlockFault.outside dependent line
        fault.line = some line ∧
        fault.message = "'" ++ dependent.keyword ++ "' without an open block" ++ " (line " ++
          toString line ++ ")" ∧
        ∀ other : Program, other.numbered.take (j + 1) = program.numbered.take (j + 1) →
          check other = .error fault) ∧
    ((∀ j dependent, ¬ IsStray program.statements j dependent) →
      ∃ positions lines, IsUnclosed program.statements positions ∧
        List.Forall₂ (LineAt program.numbered) positions lines ∧
        let fault := BlockFault.unclosed lines
        fault.line = none ∧
        fault.message = toString positions.length ++ " block(s) never closed (opened on line " ++
          ", ".intercalate (lines.map toString) ++ ")" ∧
        check program = if positions = [] then .ok () else .error fault) ∧
    program.numbered.map Prod.snd = program.statements ∧
    program.numbered.map Prod.fst =
      if program.lines.length = program.statements.length then program.lines
      else (List.range program.statements.length).map fun i : Nat => (i : Int) + 1 := by
  refine ⟨?_, fun h => ?_, program.map_snd_numbered, program.map_fst_numbered⟩
  · rintro ⟨j, dependent, h⟩
    obtain ⟨k, first, hfirst⟩ := h.exists_first
    obtain ⟨line, hline, hcheck⟩ := check_of_isFirstStray hfirst
    exact ⟨k, first, line, hfirst, hline, rfl, rfl, hcheck⟩
  · obtain ⟨positions, lines, hunclosed, hlines, hcheck⟩ := check_of_not_isStray h
    refine ⟨positions, lines, hunclosed, hlines, rfl, ?_, hcheck⟩
    rw [hlines.length_eq]
    rfl

/-- The branch of a closed block is at fault, on the third line where the lines have no numbers. -/
example : check ⟨[.whileLoop ["x"], .blockEnd, .elseBranch, .blockEnd], []⟩ =
    .error (.outside .elseBranch 3) := by decide

/-- The end closes the condition, and the two loops are left. -/
example : check ⟨[.whileLoop ["x"], .conditional ["y"] false, .elseBranch, .blockEnd,
    .repeatLoop "3" ""], [2, 3, 5, 6, 9]⟩ = .error (.unclosed [2, 9]) := by decide

end Block
end Linewise
