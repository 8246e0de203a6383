import Linewise.Text.Blank
import Linewise.Text.Lines
import Mathlib.Data.List.Basic
import Mathlib.Data.List.Forall2
import Mathlib.Data.List.TakeWhile

/-! # Dividing and joining lines

No line holds a line feed, and lines that are joined by line feeds are found again. Whether a
carriage return before a line feed belongs to the line end or to the line makes no other difference
than this character at the end of the line. Stripping takes blanks off the two ends of a line and
leaves the characters between them as they are.
-/

namespace Linewise.Text

theorem splitLines_cons {c : Char} {cs : List Char} (hc : c ≠ '\n')
    (hcr : c = '\r' → cs.head? ≠ some '\n') :
    splitLines (c :: cs) = (splitLines cs).modifyHead (c :: ·) := by
  rw [splitLines.eq_4 c cs hc (fun rest he hcs => hcr he (by rw [hcs]; rfl))]
  cases hsplit : splitLines cs with
  | nil => exact absurd hsplit (splitLines_ne_nil cs)
  | cons line lines => rfl

theorem splitLines_of_not_mem {cs : List Char} (h : '\n' ∉ cs) : splitLines cs = [cs] := by
  induction cs with
  | nil => rfl
  | cons c cs ih =>
    have hcs : '\n' ∉ cs := fun hmem => h (List.mem_cons_of_mem _ hmem)
    rw [splitLines_cons (fun he => h (he ▸ List.mem_cons_self))
      (fun _ hhead => hcs (List.mem_of_mem_head? hhead)), ih hcs]
    rfl

theorem splitLines_append {line : List Char} (h : '\n' ∉ line) (hcr : line.getLast? ≠ some '\r')
    (cs : List Char) : splitLines (line ++ '\n' :: cs) = line :: splitLines cs := by
  induction line with
  | nil => rw [List.nil_append, splitLines]
  | cons c line ih =>
    have hline : '\n' ∉ line := fun hmem => h (List.mem_cons_of_mem _ hmem)
    cases line with
    | nil =>
      rw [List.singleton_append, splitLines_cons (fun he => h (by simp [he]))
        (fun he => absurd (by simp [he]) hcr), splitLines]
      rfl
    | cons d line =>
      have hd : d ≠ '\n' := fun he => hline (he ▸ List.mem_cons_self)
      rw [List.cons_append, splitLines_cons (fun he => h (he ▸ List.mem_cons_self))
        (fun _ hhead => hd (by simpa using hhead)), ih hline (by simpa using hcr)]
      rfl

/-- Lines are found again after they are joined, when none ends in a carriage return. -/
theorem splitLines_intercalate : ∀ {lines : List (List Char)}, lines ≠ [] →
    (∀ line ∈ lines, '\n' ∉ line ∧ line.getLast? ≠ some '\r') →
      splitLines (['\n'].intercalate lines) = lines
  | [], hne, _ => absurd rfl hne
  | [line], _, h => by
    rw [List.intercalate_singleton, splitLines_of_not_mem (h line List.mem_cons_self).1]
  | line :: next :: rest, _, h => by
    obtain ⟨hline, hcr⟩ := h line List.mem_cons_self
    have hrest := splitLines_intercalate (List.cons_ne_nil next rest)
      fun l hl => h l (List.mem_cons_of_mem _ hl)
    calc splitLines (['\n'].intercalate (line :: next :: rest))
        = splitLines (line ++ '\n' :: ['\n'].intercalate (next :: rest)) := by
          rw [List.intercalate_cons_cons, List.append_assoc, List.singleton_append]
      _ = line :: next :: rest := by rw [splitLines_append hline hcr, hrest]

theorem newline_not_mem_of_mem_splitLines {cs line : List Char} (h : line ∈ splitLines cs) :
    '\n' ∉ line := by
  fun_induction splitLines cs generalizing line with
  | case1 => simp_all
  | case2 cs ih => grind
  | case3 cs ih => grind
  | case4 c cs hlf hcrlf hnil ih => exact absurd hnil (splitLines_ne_nil cs)
  | case5 c cs hlf hcrlf first rest heq ih => grind

theorem length_splitLines (cs : List Char) : (splitLines cs).length = cs.count '\n' + 1 := by
  fun_induction splitLines cs with
  | case1 => rfl
  | case2 cs ih => simp [ih]
  | case3 cs ih => simp [ih]
  | case4 c cs hlf hcrlf hnil ih => exact absurd hnil (splitLines_ne_nil cs)
  | case5 c cs hlf hcrlf first rest heq ih =>
    rw [heq, List.length_cons] at ih
    rw [List.count_cons_of_ne (by simpa using hlf)]
    exact ih

theorem flatten_splitLines_sublist (cs : List Char) : (splitLines cs).flatten.Sublist cs := by
  fun_induction splitLines cs with
  | case1 => exact .slnil
  | case2 cs ih => exact ih.cons _
  | case3 cs ih => exact (ih.cons _).cons _
  | case4 c cs hlf hcrlf hnil ih => exact absurd hnil (splitLines_ne_nil cs)
  | case5 c cs hlf hcrlf first rest heq ih =>
    rw [heq] at ih
    exact ih.cons_cons c

theorem mem_flatten_splitLines {c : Char} {cs : List Char} (h : c ∈ cs) (hfeed : c ≠ '\n')
    (hreturn : c ≠ '\r') : c ∈ (splitLines cs).flatten := by
  fun_induction splitLines cs with
  | case1 => cases h
  | case2 cs ih => simpa using ih (by simpa [hfeed] using h)
  | case3 cs ih => simpa using ih (by simpa [hfeed, hreturn] using h)
  | case4 d cs hlf hcrlf hnil ih => exact absurd hnil (splitLines_ne_nil cs)
  | case5 d cs hlf hcrlf first rest heq ih =>
    rw [heq] at ih
    rw [List.flatten_cons, List.cons_append]
    exact (List.mem_cons.mp h).elim (fun hd => hd ▸ List.mem_cons_self)
      fun hcs => List.mem_cons_of_mem d (ih hcs)

theorem forall_mem_splitLines_iff {property : Char → Prop} {cs : List Char} (hfeed : property '\n')
    (hreturn : '\r' ∉ cs) :
    (∀ line ∈ splitLines cs, ∀ c ∈ line, property c) ↔ ∀ c ∈ cs, property c := by
  constructor
  · intro h c hc
    by_cases hend : c = '\n'
    · exact hend ▸ hfeed
    · have hflat := mem_flatten_splitLines hc hend fun heq => hreturn (heq ▸ hc)
      obtain ⟨line, hline, hmem⟩ := List.mem_flatten.mp hflat
      exact h line hline c hmem
  · intro h line hline c hc
    exact h c ((flatten_splitLines_sublist cs).mem (List.mem_flatten_of_mem hline hc))

section Marks

variable {isMark : Char → Bool} {c : Char} {cs part : List Char}

theorem divide_cons_of_mark (hc : isMark c = true) (cs : List Char) :
    divide isMark (c :: cs) = [] :: divide isMark cs := by
  rw [divide, if_pos hc]

theorem divide_cons_of_not_mark (hc : isMark c = false) (cs : List Char) :
    divide isMark (c :: cs) = (divide isMark cs).modifyHead (c :: ·) := by
  rw [divide, if_neg (by simp [hc])]
  cases hdivide : divide isMark cs with
  | nil => exact absurd hdivide (divide_ne_nil isMark cs)
  | cons part parts => rfl

theorem divide_eq_splitOnP (isMark : Char → Bool) (cs : List Char) :
    divide isMark cs = cs.splitOnP isMark := by
  induction cs with
  | nil => rw [divide, List.splitOnP_nil]
  | cons c cs ih =>
    rw [List.splitOnP_cons_eq_if_modifyHead, ← ih]
    split
    · next hmark => exact divide_cons_of_mark hmark cs
    · next hmark => exact divide_cons_of_not_mark (Bool.eq_false_iff.mpr hmark) cs

theorem mark_not_mem_of_mem_divide (h : part ∈ divide isMark cs) :
    ∀ c ∈ part, isMark c = false := by
  fun_induction divide isMark cs generalizing part with
  | case1 => simp_all
  | case2 c cs hmark ih => grind
  | case3 c cs hmark hnil ih => exact absurd hnil (divide_ne_nil isMark cs)
  | case4 c cs hmark first rest heq ih => grind

theorem mem_of_mem_divide (h : part ∈ divide isMark cs) : ∀ c ∈ part, c ∈ cs := by
  fun_induction divide isMark cs generalizing part with
  | case1 => simp_all
  | case2 c cs hmark ih => grind
  | case3 c cs hmark hnil ih => exact absurd hnil (divide_ne_nil isMark cs)
  | case4 c cs hmark first rest heq ih => grind

theorem divide_of_not_mem (h : ∀ c ∈ cs, isMark c = false) : divide isMark cs = [cs] := by
  induction cs with
  | nil => rfl
  | cons c cs ih =>
    rw [List.forall_mem_cons] at h
    rw [divide_cons_of_not_mark h.1, ih h.2]
    rfl

theorem divide_filter {keep : Char → Bool} (h : ∀ c, isMark c = true → keep c = true)
    (cs : List Char) : divide isMark (cs.filter keep) = (divide isMark cs).map (·.filter keep) := by
  induction cs with
  | nil => rfl
  | cons c cs ih =>
    by_cases hmark : isMark c = true
    · rw [List.filter_cons_of_pos (h c hmark), divide_cons_of_mark hmark,
        divide_cons_of_mark hmark, ih, List.map_cons, List.filter_nil]
    · rw [Bool.not_eq_true] at hmark
      by_cases hkeep : keep c = true
      · rw [List.filter_cons_of_pos hkeep, divide_cons_of_not_mark hmark,
          divide_cons_of_not_mark hmark, ih]
        cases divide isMark cs <;> simp [hkeep]
      · rw [List.filter_cons_of_neg hkeep, divide_cons_of_not_mark hmark, ih]
        cases divide isMark cs <;> simp [hkeep]

end Marks

/-- A line, or the same line with a carriage return behind it. -/
inductive ReturnBehind (line : List Char) : List Char → Prop
  | absent : ReturnBehind line line
  | present : ReturnBehind line (line ++ ['\r'])

namespace ReturnBehind

variable {line other : List Char} {lines others : List (List Char)}

theorem cons (h : ReturnBehind line other) (c : Char) :
    ReturnBehind (c :: line) (c :: other) := by
  cases h with
  | absent => exact .absent
  | present => exact .present

theorem modifyHead (h : List.Forall₂ ReturnBehind lines others) (c : Char) :
    List.Forall₂ ReturnBehind (lines.modifyHead (c :: ·)) (others.modifyHead (c :: ·)) := by
  cases h with
  | nil => exact .nil
  | cons hline hrest => exact .cons (hline.cons c) hrest

theorem map_eq {α : Type} {f : List Char → α} (hf : ∀ cs, f (cs ++ ['\r']) = f cs)
    (h : List.Forall₂ ReturnBehind lines others) : others.map f = lines.map f := by
  induction h with
  | nil => rfl
  | cons hline _ ih =>
    rw [List.map_cons, List.map_cons, ih]
    cases hline with
    | absent => rfl
    | present => rw [hf]

end ReturnBehind

/-- Dividing at line feeds alone leaves the carriage returns before them in the lines. -/
theorem splitLines_divide (cs : List Char) :
    List.Forall₂ ReturnBehind (splitLines cs) (divide (· == '\n') cs) := by
  fun_induction splitLines cs with
  | case1 => exact .cons .absent .nil
  | case2 cs ih => exact .cons .absent ih
  | case3 cs ih => exact .cons .present ih
  | case4 c cs hlf hcrlf hnil ih => exact absurd hnil (splitLines_ne_nil cs)
  | case5 c cs hlf hcrlf first rest heq ih =>
    rw [heq] at ih
    rw [divide_cons_of_not_mark (by simpa using hlf)]
    exact ReturnBehind.modifyHead ih c

/-- A line feed between two texts ends the last line of the first one, whose carriage return, if it
ends in one, then belongs to the line end. -/
theorem splitLines_append_feed (cs ds : List Char) :
    ∃ lines, splitLines (cs ++ '\n' :: ds) = lines ++ splitLines ds ∧
      List.Forall₂ ReturnBehind lines (splitLines cs) := by
  fun_induction splitLines cs with
  | case1 => exact ⟨[[]], rfl, .cons .absent .nil⟩
  | case2 cs ih =>
    obtain ⟨lines, hlines, hreturns⟩ := ih
    refine ⟨[] :: lines, ?_, .cons .absent hreturns⟩
    rw [List.cons_append, splitLines, hlines, List.cons_append]
  | case3 cs ih =>
    obtain ⟨lines, hlines, hreturns⟩ := ih
    refine ⟨[] :: lines, ?_, .cons .absent hreturns⟩
    rw [List.cons_append, List.cons_append, splitLines, hlines, List.cons_append]
  | case4 c cs hlf hcrlf hnil ih => exact absurd hnil (splitLines_ne_nil cs)
  | case5 c cs hlf hcrlf first rest heq ih =>
    obtain ⟨lines, hlines, hreturns⟩ := ih
    rw [heq] at hreturns
    by_cases hjoin : c = '\r' ∧ cs = []
    · -- The return at the end of the first text meets the feed.
      obtain ⟨rfl, rfl⟩ := hjoin
      cases heq
      exact ⟨[[]], rfl, .cons .present .nil⟩
    · have hhead : c = '\r' → (cs ++ '\n' :: ds).head? ≠ some '\n' := by
        intro hc
        cases cs with
        | nil => exact absurd ⟨hc, rfl⟩ hjoin
        | cons d cs => simpa using fun hd => hcrlf cs hc (by rw [hd])
      refine ⟨lines.modifyHead (c :: ·), ?_, ReturnBehind.modifyHead hreturns c⟩
      rw [List.cons_append, splitLines_cons hlf hhead, hlines]
      cases hreturns with
      | cons hline hrest => rfl

def returnFeeds (cs : List Char) : List Char :=
  cs.flatMap fun c => if c = '\n' then ['\r', '\n'] else [c]

theorem splitLines_returnFeeds (cs : List Char) :
    List.Forall₂ ReturnBehind (splitLines cs) (splitLines (returnFeeds cs)) := by
  fun_induction splitLines cs with
  | case1 => exact .cons .absent .nil
  | case2 cs ih => exact .cons .absent ih
  | case3 cs ih => exact .cons .present ih
  | case4 c cs hlf hcrlf hnil ih => exact absurd hnil (splitLines_ne_nil cs)
  | case5 c cs hlf hcrlf first rest heq ih =>
    rw [heq] at ih
    have hhead : (returnFeeds cs).head? ≠ some '\n' := by
      cases cs with
      | nil => simp [returnFeeds]
      | cons d cs => by_cases hd : d = '\n' <;> simp [returnFeeds, hd]
    have hcons : returnFeeds (c :: cs) = c :: returnFeeds cs := by
      rw [returnFeeds, List.flatMap_cons, if_neg hlf]
      rfl
    rw [hcons, splitLines_cons hlf fun _ => hhead]
    exact ReturnBehind.modifyHead ih c

/-- Whether each carriage return is directly followed by a line feed. -/
def HasPairedReturns (cs : List Char) : Prop :=
  ∀ before after, cs = before ++ '\r' :: after → after.head? = some '\n'

theorem HasPairedReturns.tail {c : Char} {cs : List Char} (h : HasPairedReturns (c :: cs)) :
    HasPairedReturns cs :=
  fun before after heq => h (c :: before) after (by rw [heq, List.cons_append])

theorem hasPairedReturns_of_getElem? {cs : List Char}
    (h : ∀ i < cs.length, cs[i]? = some '\r' → cs[i + 1]? = some '\n') : HasPairedReturns cs := by
  rintro before after rfl
  simpa [List.head?_eq_getElem?, List.getElem?_append_right] using
    h before.length (by simp) (by simp)

/-- Unifying the line ends keeps the lines of a text without lone carriage returns. -/
theorem splitLines_unifyLineEnds {cs : List Char} (h : HasPairedReturns cs) :
    splitLines (unifyLineEnds cs) = splitLines cs := by
  fun_induction unifyLineEnds cs with
  | case1 => rfl
  | case2 cs ih => rw [splitLines, splitLines, ih h.tail.tail]
  | case3 cs hlone ih =>
    have hhead := h [] cs rfl
    exact (hlone cs.tail (List.eq_cons_of_mem_head? hhead)).elim
  | case4 c cs hpair hreturn ih =>
    by_cases hc : c = '\n'
    · rw [hc, splitLines, splitLines, ih h.tail]
    · rw [splitLines_cons hc fun he => (hreturn he).elim, ih h.tail,
        splitLines_cons hc fun he => (hreturn he).elim]

theorem return_not_mem_unifyLineEnds (cs : List Char) : '\r' ∉ unifyLineEnds cs := by
  fun_induction unifyLineEnds cs with
  | case1 => simp
  | case2 cs ih => simpa using ih
  | case3 cs hlone ih => simpa using ih
  | case4 c cs hpair hreturn ih => simpa using ⟨fun h => hreturn h.symm, ih⟩

theorem stripRight_concat {c : Char} (hc : isBlank c = true) (cs : List Char) :
    stripRight (cs ++ [c]) = stripRight cs := by
  simp [stripRight, hc]

theorem strip_concat {c : Char} (hc : isBlank c = true) (cs : List Char) :
    strip (cs ++ [c]) = strip cs := by
  rw [strip, strip, List.dropWhile_append]
  by_cases hcs : cs.dropWhile isBlank = []
  · simp [hcs, hc]
  · simp [hcs, stripRight_concat hc]

theorem mem_of_mem_strip {c : Char} {cs : List Char} (h : c ∈ strip cs) : c ∈ cs := by
  rw [strip, stripRight, List.mem_reverse] at h
  have hdrop := (List.dropWhile_sublist isBlank).mem h
  rw [List.mem_reverse] at hdrop
  exact (List.dropWhile_sublist isBlank).mem hdrop

theorem not_isBlank_of_mem_getLast?_strip {c : Char} {cs : List Char}
    (h : c ∈ (strip cs).getLast?) : isBlank c = false := by
  rw [strip, stripRight, List.getLast?_reverse] at h
  have hfirst := List.head?_dropWhile_not isBlank (cs.dropWhile isBlank).reverse
  rw [Option.mem_def.mp h] at hfirst
  exact hfirst

theorem exists_not_isBlank {cs : List Char} (h : strip cs ≠ []) :
    ∃ c ∈ strip cs, isBlank c = false := by
  obtain ⟨c, hc⟩ := Option.ne_none_iff_exists'.mp (mt List.getLast?_eq_none_iff.mp h)
  exact ⟨c, List.mem_of_mem_getLast? hc, not_isBlank_of_mem_getLast?_strip hc⟩

theorem exists_eq_append_strip (cs : List Char) :
    ∃ before after, (∀ c ∈ before, isBlank c = true) ∧ (∀ c ∈ after, isBlank c = true) ∧
      cs = before ++ strip cs ++ after := by
  let rest := cs.dropWhile isBlank
  refine ⟨cs.takeWhile isBlank, (rest.reverse.takeWhile isBlank).reverse,
    fun c hc => List.mem_takeWhile_imp hc,
    fun c hc => List.mem_takeWhile_imp (List.mem_reverse.mp hc), ?_⟩
  have hrest : strip cs ++ (rest.reverse.takeWhile isBlank).reverse = rest := by
    rw [strip, stripRight, ← List.reverse_append, List.takeWhile_append_dropWhile,
      List.reverse_reverse]
  rw [List.append_assoc, hrest, List.takeWhile_append_dropWhile]

theorem strip_eq_self {cs : List Char} (hhead : ∀ c ∈ cs.head?, isBlank c = false)
    (hlast : ∀ c ∈ cs.getLast?, isBlank c = false) : strip cs = cs := by
  have hkeep : ∀ {ds : List Char}, (∀ c ∈ ds.head?, isBlank c = false) →
      ds.dropWhile isBlank = ds := by
    intro ds hds
    cases ds with
    | nil => rfl
    | cons d ds => exact List.dropWhile_cons_of_neg (by simp [hds d rfl])
  rw [strip, stripRight, hkeep hhead, hkeep (by simpa [List.head?_reverse] using hlast),
    List.reverse_reverse]

end Linewise.Text
