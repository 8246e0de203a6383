import Linewise.FilePath
import Linewise.Proofs.Lines

/-! # Normal forms of paths

Every path that is read from a text is in normal form, and a path in normal form is read again from
the text that shows it. So two paths with one text are the same path.
-/

namespace Linewise

namespace FilePath

variable {path other : FilePath} {parts : List String}

/-- The steps that a path keeps: they have a name, and they do not stay in place. -/
def IsStep (part : String) : Prop :=
  part ≠ "" ∧ part ≠ "." ∧ '/' ∉ part.toList

def IsNormal (path : FilePath) : Prop :=
  ∀ part ∈ path.parts, IsStep part

theorem isNormal_ofString (s : String) : (ofString s).IsNormal := by
  intro part hpart
  obtain ⟨hmem, hkept⟩ := List.mem_filter.mp hpart
  obtain ⟨cs, hcs, rfl⟩ := List.mem_map.mp hmem
  obtain ⟨hempty, hdot⟩ : String.ofList cs ≠ "" ∧ String.ofList cs ≠ "." := of_decide_eq_true hkept
  refine ⟨hempty, hdot, fun hslash => ?_⟩
  rw [String.toList_ofList] at hslash
  exact absurd (Text.mark_not_mem_of_mem_divide hcs '/' hslash) (by decide)

def stepsOf (cs : List Char) : List String :=
  ((Text.divide (· == '/') cs).map String.ofList).filter fun part => part ≠ "" ∧ part ≠ "."

theorem stepsOf_slash (cs : List Char) : stepsOf ('/' :: cs) = stepsOf cs := by
  rw [stepsOf, Text.divide]
  rfl

theorem stepsOf_intercalate (h : ∀ part ∈ parts, IsStep part) :
    stepsOf ("/".intercalate parts).toList = parts := by
  have hkept : parts.filter (fun part => part ≠ "" ∧ part ≠ ".") = parts :=
    List.filter_eq_self.mpr fun part hpart =>
      decide_eq_true ⟨(h part hpart).1, (h part hpart).2.1⟩
  cases parts with
  | nil => rfl
  | cons part parts =>
    have hslash : ∀ cs ∈ (part :: parts).map String.toList, '/' ∉ cs := by
      intro cs hcs
      obtain ⟨step, hstep, rfl⟩ := List.mem_map.mp hcs
      exact (h step hstep).2.2
    rw [stepsOf, Text.divide_eq_splitOnP, String.toList_intercalate]
    change ((List.splitOn '/' (['/'].intercalate _)).map String.ofList).filter _ = _
    rw [List.splitOn_intercalate '/' hslash (by simp), List.map_map]
    simpa using hkept

theorem head?_intercalate_ne_slash (h : ∀ part ∈ parts, IsStep part) :
    ("/".intercalate parts).toList.head? ≠ some '/' := by
  cases parts with
  | nil => simp
  | cons part parts =>
    obtain ⟨hempty, -, hslash⟩ := h part List.mem_cons_self
    obtain ⟨c, cs, hcs⟩ := List.exists_cons_of_ne_nil (mt String.toList_eq_nil_iff.mp hempty)
    rw [hcs] at hslash
    have hc : c ≠ '/' := fun he => hslash (he ▸ List.mem_cons_self)
    rw [String.toList_intercalate]
    cases parts with
    | nil => simpa [hcs] using hc
    | cons next rest => simpa [hcs] using hc

theorem rootOf_append {root : PathRoot} {cs : List Char} (hcs : cs.head? ≠ some '/') :
    rootOf (root.toString.toList ++ cs) = root := by
  cases cs with
  | nil => cases root <;> rfl
  | cons c cs =>
    have hc : c ≠ '/' := by simpa using hcs
    cases root <;> simp [PathRoot.toString, rootOf, hc]

/-- A path in normal form is read again from the text that shows it. -/
theorem ofString_toString (h : path.IsNormal) : ofString path.toString = path := by
  by_cases hplace : path = {}
  · rw [hplace]
    decide
  · obtain ⟨root, parts⟩ := path
    have hroot : rootOf (root.toString ++ "/".intercalate parts).toList = root := by
      rw [String.toList_append, rootOf_append (head?_intercalate_ne_slash h)]
    have hsteps : stepsOf (root.toString ++ "/".intercalate parts).toList = parts := by
      rw [String.toList_append]
      cases root with
      | relative => exact stepsOf_intercalate h
      | absolute => exact (stepsOf_slash _).trans (stepsOf_intercalate h)
      | network =>
        exact (stepsOf_slash _).trans ((stepsOf_slash _).trans (stepsOf_intercalate h))
    rw [toString, if_neg hplace]
    change FilePath.mk (rootOf _) (stepsOf _) = _
    rw [hroot, hsteps]

theorem toString_injective (h : path.IsNormal) (hother : other.IsNormal)
    (htext : path.toString = other.toString) : path = other := by
  rw [← ofString_toString h, htext, ofString_toString hother]

end FilePath
end Linewise
