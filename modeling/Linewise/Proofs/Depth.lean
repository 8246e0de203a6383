import Linewise.Block
import Mathlib.Data.List.Basic

/-! # The depth of open blocks

The check of blocks keeps the lines of the open blocks, but only their number decides which
statements it accepts. This number moves as the depth of a text of braces does, when each statement
stands for the braces that its role asks for.
-/

namespace Linewise.Block

/-- The depth after one character: an opening brace adds one, a closing brace needs one to take. -/
def depthStep (depth : Nat) (c : Char) : Option Nat :=
  if c = '\x7b' then some (depth + 1)
  else if c = '\x7d' then if depth = 0 then none else some (depth - 1)
  else some depth

def walk (depth : Nat) (cs : List Char) : Option Nat :=
  cs.foldlM depthStep depth

@[simp] theorem walk_nil (depth : Nat) : walk depth [] = some depth := rfl

@[simp] theorem walk_cons (depth : Nat) (c : Char) (cs : List Char) :
    walk depth (c :: cs) = (depthStep depth c).bind fun next => walk next cs :=
  List.foldlM_cons ..

theorem walk_append (depth : Nat) (cs ds : List Char) :
    walk depth (cs ++ ds) = (walk depth cs).bind fun next => walk next ds :=
  List.foldlM_append

@[simp] theorem depthStep_open (depth : Nat) : depthStep depth '\x7b' = some (depth + 1) := rfl

@[simp] theorem depthStep_close_zero : depthStep 0 '\x7d' = none := rfl

@[simp] theorem depthStep_close_succ (depth : Nat) :
    depthStep (depth + 1) '\x7d' = some depth := rfl

theorem depthStep_other {c : Char} (hopen : c ≠ '\x7b') (hclose : c ≠ '\x7d') (depth : Nat) :
    depthStep depth c = some depth := by
  rw [depthStep, if_neg hopen, if_neg hclose]

def isBrace (c : Char) : Bool :=
  c = '\x7b' || c = '\x7d'

theorem walk_filter_isBrace (depth : Nat) (cs : List Char) :
    walk depth (cs.filter isBrace) = walk depth cs := by
  induction cs generalizing depth with
  | nil => rfl
  | cons c cs ih =>
    by_cases hc : isBrace c = true
    · rw [List.filter_cons_of_pos hc, walk_cons, walk_cons]
      simp only [ih]
    · have hother : c ≠ '\x7b' ∧ c ≠ '\x7d' := by simpa [isBrace] using hc
      rw [List.filter_cons_of_neg hc, walk_cons, depthStep_other hother.1 hother.2, ih]
      rfl

/-- No prefix has more closing than opening braces, and the whole has as many of both. -/
structure Balanced (cs : List Char) : Prop where
  closed_le : ∀ pre, pre <+: cs → pre.count '\x7d' ≤ pre.count '\x7b'
  count_eq : cs.count '\x7d' = cs.count '\x7b'

theorem forall_prefix_cons_iff {bound : List Char → Prop} {c : Char} {cs : List Char} :
    (∀ pre, pre <+: c :: cs → bound pre) ↔
      bound [] ∧ ∀ pre, pre <+: cs → bound (c :: pre) := by
  simp only [List.prefix_cons_iff]
  constructor
  · exact fun h => ⟨h [] (.inl rfl), fun pre hpre => h _ (.inr ⟨pre, rfl, hpre⟩)⟩
  · rintro ⟨hnil, hrest⟩ pre (rfl | ⟨pre, rfl, hpre⟩)
    · exact hnil
    · exact hrest pre hpre

/-- A walk from a depth succeeds if no prefix closes more than it opens and was open before. -/
theorem walk_eq_some_iff {depth last : Nat} {cs : List Char} :
    walk depth cs = some last ↔
      (∀ pre, pre <+: cs → pre.count '\x7d' ≤ depth + pre.count '\x7b') ∧
        depth + cs.count '\x7b' = last + cs.count '\x7d' := by
  induction cs generalizing depth with
  | nil => simp
  | cons c cs ih =>
    rw [walk_cons, forall_prefix_cons_iff]
    by_cases hopen : c = '\x7b'
    · subst hopen
      rw [depthStep_open, Option.bind_some, ih]
      simp only [List.count_cons_self, List.count_cons_of_ne (show '\x7b' ≠ '\x7d' by decide),
        List.count_nil, Nat.zero_le, true_and, Nat.add_assoc, Nat.add_comm 1]
    · by_cases hclose : c = '\x7d'
      · subst hclose
        simp only [List.count_cons_self, List.count_cons_of_ne (show '\x7d' ≠ '\x7b' by decide),
          List.count_nil, Nat.zero_le, true_and]
        cases depth with
        | zero =>
          simp only [depthStep_close_zero, Option.bind_none, reduceCtorEq, false_iff]
          -- the brace alone is a prefix that closes too much
          rintro ⟨hclosed, -⟩
          simpa using hclosed [] List.nil_prefix
        | succ depth =>
          rw [depthStep_close_succ, Option.bind_some, ih]
          simp only [Nat.add_right_comm depth 1, Nat.add_le_add_iff_right, ← Nat.add_assoc,
            Nat.add_right_cancel_iff]
      · rw [depthStep_other hopen hclose, Option.bind_some, ih]
        simp only [List.count_cons_of_ne hopen, List.count_cons_of_ne hclose, List.count_nil,
          Nat.zero_le, true_and]

theorem balanced_iff_walk {cs : List Char} : Balanced cs ↔ walk 0 cs = some 0 := by
  rw [walk_eq_some_iff]
  simp only [Nat.zero_add]
  exact ⟨fun h => ⟨h.closed_le, h.count_eq.symm⟩, fun h => ⟨h.1, h.2.symm⟩⟩

end Linewise.Block

namespace Linewise

def Role.braces : Role → List Char
  | .opens => ['\x7b']
  | .closes => ['\x7d']
  | .continues _ => ['\x7d', '\x7b']
  | .simple => []

theorem Program.map_snd_numbered (program : Program) :
    program.numbered.map Prod.snd = program.statements := by
  unfold numbered
  split
  · next hlength => exact List.map_snd_zip (Nat.le_of_eq hlength.symm)
  · exact List.ext_getElem (by simp) fun i _ _ => by simp

theorem Program.map_fst_numbered (program : Program) :
    program.numbered.map Prod.fst =
      if program.lines.length = program.statements.length then program.lines
      else (List.range program.statements.length).map fun i : Nat => (i : Int) + 1 := by
  unfold numbered
  split
  · next hlength => exact List.map_fst_zip (Nat.le_of_eq hlength)
  · exact List.ext_getElem (by simp) fun i _ _ => by simp

end Linewise

namespace Linewise.Block

/-- One statement moves the number of open blocks as its braces move the depth. -/
theorem length_step (opened : List Int) (entry : Int × Statement) :
    (step opened entry).toOption.map List.length = walk opened.length entry.2.role.braces := by
  unfold step
  cases entry.2.role <;> cases opened <;> rfl

theorem length_foldlM_step (opened : List Int) (entries : List (Int × Statement)) :
    (entries.foldlM step opened).toOption.map List.length =
      walk opened.length (entries.flatMap fun entry => entry.2.role.braces) := by
  induction entries generalizing opened with
  | nil => rfl
  | cons entry entries ih =>
    have hstep := length_step opened entry
    rw [List.flatMap_cons, walk_append, ← hstep, List.foldlM_cons]
    cases hnext : step opened entry with
    | error fault => rfl
    | ok next => exact ih next

theorem check_eq_ok_iff_walk {program : Program} :
    check program = .ok () ↔
      walk 0 (program.statements.flatMap fun statement => statement.role.braces) = some 0 := by
  have hrun := length_foldlM_step [] program.numbered
  rw [← program.map_snd_numbered, List.flatMap_map, ← List.length_nil (α := Int), ← hrun, check]
  cases program.numbered.foldlM step [] with
  | error fault => simp [Except.toOption]
  | ok opened => cases opened <;> simp [Except.toOption]

end Linewise.Block
