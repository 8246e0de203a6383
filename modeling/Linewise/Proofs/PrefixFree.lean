import Linewise.Text.Quoted
import Linewise.Toml.Lexeme
import Mathlib

/-! # Texts that can be split off

Some texts can be told apart from all others of their form whatever follows them. So can lists of
such texts up to something that does not begin with one, and texts between quotes, whose characters
are read back from their escapes.
-/

namespace Linewise.Text

variable {α β : Type} {P : α → Prop} {Q : β → Prop} {f : α → List Char} {g : β → List Char}
  {s t : List Char} {xs ys : List α}

/-- Whether the texts of items can be split off whatever follows them. -/
def IsPrefixFree (P : α → Prop) (f : α → List Char) : Prop :=
  ∀ ⦃x y⦄, P x → P y → ∀ ⦃s t⦄, f x ++ s = f y ++ t → x = y ∧ s = t

/-- Whether a text does not begin with an item. -/
def IsEnd (P : α → Prop) (f : α → List Char) (s : List Char) : Prop :=
  ∀ x, P x → ¬ f x <+: s

theorem isPrefixFree_of_read {read : List Char → α × List Char}
    (h : ∀ x, P x → ∀ s, read (f x ++ s) = (x, s)) : IsPrefixFree P f := by
  intro x y hx hy s t heq
  have hread := congrArg read heq
  rw [h x hx, h y hy] at hread
  exact Prod.mk.inj hread

theorem IsEnd.ne_append (h : IsEnd P f s) {x : α} (hx : P x) (t : List Char) : s ≠ f x ++ t :=
  fun heq => h x hx ⟨t, heq.symm⟩

theorem IsEnd.of_mark {mark : List Char} (h : ¬ mark <+: s) :
    IsEnd P (fun x => mark ++ f x) s :=
  fun x _ hbegins => h ((List.prefix_append mark (f x)).trans hbegins)

theorem intercalate_map_cons (mark : List Char) (f : α → List Char) (x : α) (xs : List α) :
    mark.intercalate ((x :: xs).map f) = f x ++ xs.flatMap fun y => mark ++ f y := by
  induction xs generalizing x with
  | nil => simp
  | cons y ys ih =>
    rw [List.map_cons, List.map_cons, List.intercalate_cons_cons, ← List.map_cons, ih,
      List.flatMap_cons, List.append_assoc, List.append_assoc]

namespace IsPrefixFree

theorem append (hf : IsPrefixFree P f) (hg : IsPrefixFree Q g) :
    IsPrefixFree (fun p : α × β => P p.1 ∧ Q p.2) fun p => f p.1 ++ g p.2 := by
  rintro ⟨x, u⟩ ⟨y, v⟩ ⟨hx, hu⟩ ⟨hy, hv⟩ s t heq
  simp only [List.append_assoc] at heq
  obtain ⟨rfl, htail⟩ := hf hx hy heq
  obtain ⟨rfl, rfl⟩ := hg hu hv htail
  exact ⟨rfl, rfl⟩

theorem append_left (h : IsPrefixFree P f) (mark : List Char) :
    IsPrefixFree P fun x => mark ++ f x := by
  intro x y hx hy s t heq
  simp only [List.append_assoc] at heq
  exact h hx hy (List.append_cancel_left heq)

/-- Items that follow each other are found again up to the end of their list. -/
theorem flatMap_inj (h : IsPrefixFree P f) (hxs : ∀ x ∈ xs, P x) (hys : ∀ y ∈ ys, P y)
    (hs : IsEnd P f s) (ht : IsEnd P f t) (heq : xs.flatMap f ++ s = ys.flatMap f ++ t) :
    xs = ys ∧ s = t := by
  induction xs generalizing ys with
  | nil =>
    cases ys with
    | nil => exact ⟨rfl, heq⟩
    | cons y ys =>
      rw [List.flatMap_cons, List.append_assoc] at heq
      exact absurd heq (hs.ne_append (hys y List.mem_cons_self) _)
  | cons x xs ih =>
    obtain ⟨hx, hxs'⟩ := List.forall_mem_cons.mp hxs
    rw [List.flatMap_cons, List.append_assoc] at heq
    cases ys with
    | nil => exact absurd heq.symm (ht.ne_append hx _)
    | cons y ys =>
      obtain ⟨hy, hys'⟩ := List.forall_mem_cons.mp hys
      rw [List.flatMap_cons, List.append_assoc] at heq
      obtain ⟨rfl, htail⟩ := h hx hy heq
      obtain ⟨rfl, rfl⟩ := ih hxs' hys' htail
      exact ⟨rfl, rfl⟩

/-- Items with marks between them are found again if the end does not begin with a mark either. -/
theorem intercalate_inj (h : IsPrefixFree P f) (hxs : ∀ x ∈ xs, P x) (hys : ∀ y ∈ ys, P y)
    (hs : IsEnd P f s) (ht : IsEnd P f t) {mark : List Char} (hmark : ¬ mark <+: s)
    (hmark' : ¬ mark <+: t)
    (heq : mark.intercalate (xs.map f) ++ s = mark.intercalate (ys.map f) ++ t) :
    xs = ys ∧ s = t := by
  cases xs with
  | nil =>
    cases ys with
    | nil => exact ⟨rfl, heq⟩
    | cons y ys =>
      rw [intercalate_map_cons, List.append_assoc] at heq
      exact absurd heq (hs.ne_append (hys y List.mem_cons_self) _)
  | cons x xs =>
    obtain ⟨hx, hxs'⟩ := List.forall_mem_cons.mp hxs
    rw [intercalate_map_cons, List.append_assoc] at heq
    cases ys with
    | nil => exact absurd heq.symm (ht.ne_append hx _)
    | cons y ys =>
      obtain ⟨hy, hys'⟩ := List.forall_mem_cons.mp hys
      rw [intercalate_map_cons, List.append_assoc] at heq
      obtain ⟨rfl, htail⟩ := h hx hy heq
      obtain ⟨rfl, rfl⟩ :=
        (h.append_left mark).flatMap_inj hxs' hys' (.of_mark hmark) (.of_mark hmark') htail
      exact ⟨rfl, rfl⟩

end IsPrefixFree

def hexValue (digits : List Char) : Nat :=
  digits.foldl (fun n c => 16 * n + (Toml.hexDigit? c).getD 0) 0

theorem hexValue_concat (digits : List Char) (c : Char) :
    hexValue (digits ++ [c]) = 16 * hexValue digits + (Toml.hexDigit? c).getD 0 := by
  rw [hexValue, List.foldl_append]
  rfl

theorem hexDigit?_digitChar :
    ∀ n : Fin 16, Toml.hexDigit? (n : Nat).digitChar = some (n : Nat) := by
  decide

theorem hexValue_toDigits (n : Nat) : hexValue (Nat.toDigits 16 n) = n := by
  induction n using Nat.strongRecOn with
  | _ n ih =>
    by_cases hn : n < 16
    · rw [Nat.toDigits_of_lt_base hn, ← List.nil_append [_], hexValue_concat,
        hexDigit?_digitChar ⟨n, hn⟩]
      exact Nat.zero_add n
    · rw [Nat.toDigits_of_base_le (by decide) (by omega), hexValue_concat, ih (n / 16) (by omega),
        hexDigit?_digitChar ⟨n % 16, Nat.mod_lt n (by decide)⟩]
      exact Nat.div_add_mod n 16

theorem hexValue_hexDigits (width n : Nat) : hexValue (hexDigits width n) = n := by
  have hzeros : ∀ k : Nat, hexValue (List.replicate k '0') = 0 := fun k => by
    induction k with
    | zero => rfl
    | succ k ih =>
      rw [List.replicate_succ', hexValue_concat, ih]
      rfl
  rw [hexDigits, hexValue, List.foldl_append, ← hexValue, hzeros]
  exact hexValue_toDigits n

theorem length_hexDigits {width n : Nat} (hwidth : 0 < width) (hn : n < 16 ^ width) :
    (hexDigits width n).length = width := by
  have hlength := (Nat.length_toDigits_le_iff (b := 16) (by decide) hwidth).mpr hn
  rw [hexDigits, List.length_append, List.length_replicate, Nat.sub_add_cancel hlength]

def readCodePoint (width : Nat) (cs : List Char) : Char × List Char :=
  (Char.ofNat (hexValue (cs.take width)), cs.drop width)

theorem readCodePoint_hexDigits {width : Nat} {c : Char} (hwidth : 0 < width)
    (hc : c.toNat < 16 ^ width) (s : List Char) :
    readCodePoint width (hexDigits width c.toNat ++ s) = (c, s) := by
  have hlength := length_hexDigits hwidth hc
  rw [readCodePoint, List.take_left' hlength, List.drop_left' hlength, hexValue_hexDigits,
    Char.ofNat_toNat]

def readEscape : List Char → Char × List Char
  | 'n' :: cs => ('\n', cs)
  | 'r' :: cs => ('\r', cs)
  | 't' :: cs => ('\t', cs)
  | 'x' :: cs => readCodePoint 2 cs
  | 'u' :: cs => readCodePoint 4 cs
  | 'U' :: cs => readCodePoint 8 cs
  | cs => (cs.headD '\x00', cs.tail)

def readChar : List Char → Char × List Char
  | '\\' :: cs => readEscape cs
  | cs => (cs.headD '\x00', cs.tail)

theorem readChar_escapeCodePoint (c : Char) (s : List Char) :
    readChar (escapeCodePoint c ++ s) = (c, s) := by
  have hword : c.toNat < 16 ^ 8 := c.val.toNat_lt
  unfold escapeCodePoint
  split_ifs with hbyte hplane
  · exact readCodePoint_hexDigits (by decide) hbyte s
  · exact readCodePoint_hexDigits (by decide) hplane s
  · exact readCodePoint_hexDigits (by decide) hword s

variable {mark : Char}

theorem readChar_escapeChar (hmark : mark = '\x27' ∨ mark = '"') (c : Char) (s : List Char) :
    readChar (escapeChar mark c ++ s) = (c, s) := by
  unfold escapeChar
  split_ifs with hescaped hfeed hreturn htab hprintable
  · obtain rfl | rfl | rfl : c = '\x27' ∨ c = '"' ∨ c = '\\' := by
      simp only [Bool.or_eq_true, decide_eq_true_eq] at hescaped
      rcases hmark with rfl | rfl <;> tauto
    all_goals rfl
  · rw [hfeed]
    rfl
  · rw [hreturn]
    rfl
  · rw [htab]
    rfl
  · have hbackslash : c ≠ '\\' := by
      rintro rfl
      simp at hescaped
    rw [List.singleton_append, readChar]
    · rfl
    · simpa using hbackslash
  · exact readChar_escapeCodePoint c s

theorem quoteMark_eq (cs : List Char) : quoteMark cs = '\x27' ∨ quoteMark cs = '"' := by
  unfold quoteMark
  split
  · exact .inr rfl
  · exact .inl rfl

theorem isPrefixFree_escapeChar (hmark : mark = '\x27' ∨ mark = '"') :
    IsPrefixFree (fun _ => True) (escapeChar mark) :=
  isPrefixFree_of_read fun c _ s => readChar_escapeChar hmark c s

theorem isEnd_escapeChar (hmark : mark = '\x27' ∨ mark = '"') (s : List Char) :
    IsEnd (fun _ => True) (escapeChar mark) (mark :: s) := by
  rintro c - ⟨t, ht⟩
  have hread := readChar_escapeChar hmark c t
  rw [ht] at hread
  have hself : c = mark := by
    rcases hmark with rfl | rfl <;> exact (congrArg Prod.fst hread).symm
  rw [hself, escapeChar, if_pos (by simp)] at ht
  rcases hmark with rfl | rfl <;> cases ht

theorem isPrefixFree_quoteChars : IsPrefixFree (fun _ => True) quoteChars := by
  intro cs ds _ _ s t heq
  simp only [quoteChars, List.cons_append, List.append_assoc, List.cons.injEq] at heq
  obtain ⟨hmark, heq⟩ := heq
  rw [← hmark] at heq
  have hquote := quoteMark_eq cs
  obtain ⟨rfl, htail⟩ := (isPrefixFree_escapeChar hquote).flatMap_inj (fun _ _ => trivial)
    (fun _ _ => trivial) (isEnd_escapeChar hquote s) (isEnd_escapeChar hquote t) heq
  exact ⟨rfl, (List.cons.inj htail).2⟩

theorem isPrefixFree_quote : IsPrefixFree (fun _ => True) fun text => (quote text).toList := by
  intro x y _ _ s t heq
  simp only [quote, String.toList_ofList] at heq
  obtain ⟨hchars, rfl⟩ := isPrefixFree_quoteChars trivial trivial heq
  exact ⟨String.toList_inj.mp hchars, rfl⟩

theorem quote_eq_cons (text : String) :
    ∃ mark cs, (quote text).toList = mark :: cs ∧ (mark = '\x27' ∨ mark = '"') :=
  ⟨_, _, String.toList_ofList, quoteMark_eq text.toList⟩

end Linewise.Text
