import Linewise.Console.Report
import Linewise.Proofs.Attempt
import Mathlib.Data.List.TakeWhile

/-! # Escaped texts are shown

Escaping leaves in a text only tags that are plain, and no bracket of it becomes part of a tag by
what comes after it. So a text with markup around escaped texts is shown whenever its own tags are
in order, whatever the escaped texts are.
-/

namespace Linewise.Console

variable {opened outer : List (List Char)} {cs body after tail : List Char} {c : Char} {n : Nat}

def isBracket (c : Char) : Bool :=
  c == ']' || c == '['

def IsTagBody (body : List Char) : Prop :=
  ∃ c rest, body = c :: rest ∧ isTagStart c = true ∧ ∀ d ∈ rest, isBracket d = false

def slashedTag (n : Nat) (body after : List Char) : List Char :=
  List.replicate n '\\' ++ '[' :: (body ++ ']' :: after)

theorem not_isBracket_eq :
    (fun d : Char => d != ']' && d != '[') = fun d => !isBracket d := by
  funext d
  rw [isBracket, Bool.not_or]
  rfl

theorem takeWhile_slash_eq (cs : List Char) :
    cs.takeWhile (· == '\\') = List.replicate (cs.takeWhile (· == '\\')).length '\\' :=
  List.eq_replicate_iff.mpr ⟨rfl, fun _ hc => by simpa using List.mem_takeWhile_imp hc⟩

theorem tagAt?_slashedTag (h : IsTagBody body) :
    tagAt? (slashedTag n body after) = some (n, body, after) := by
  obtain ⟨c, rest, rfl, hstart, hrest⟩ := h
  have hslashes : ∀ d ∈ List.replicate n '\\', (d == '\\') = true := by simp
  have hinside : ∀ d ∈ rest, (!isBracket d) = true := by simpa using hrest
  have hclose : isBracket ']' = true := rfl
  rw [tagAt?, not_isBracket_eq, slashedTag, List.dropWhile_append_of_pos hslashes,
    List.takeWhile_append_of_pos hslashes]
  simp [hstart, hclose, List.dropWhile_append_of_pos hinside,
    List.takeWhile_append_of_pos hinside]

theorem tagAt?_eq_some_iff :
    tagAt? cs = some (n, body, after) ↔ IsTagBody body ∧ cs = slashedTag n body after := by
  refine ⟨fun h => ?_, fun ⟨hbody, hcs⟩ => hcs ▸ tagAt?_slashedTag hbody⟩
  rw [tagAt?, not_isBracket_eq] at h
  split at h
  · next c rest hdrop =>
    split at h
    · next hstart =>
      split at h
      · next hclose =>
        cases h
        refine ⟨⟨c, _, rfl, hstart, fun d hd => by simpa using List.mem_takeWhile_imp hd⟩, ?_⟩
        rw [slashedTag, ← takeWhile_slash_eq, List.cons_append, ← hclose,
          List.takeWhile_append_dropWhile, ← hdrop, List.takeWhile_append_dropWhile]
      · cases h
    · cases h
  · cases h

@[simp] theorem tagAt?_nil : tagAt? [] = none := rfl

theorem tagAt?_of_ne (hslash : c ≠ '\\') (hbracket : c ≠ '[') : tagAt? (c :: cs) = none := by
  rw [tagAt?, List.dropWhile_cons_of_neg (by simpa using hslash)]
  split
  · next heq => exact absurd (List.cons.inj heq).1 hbracket
  · rfl

theorem slashedTag_succ (n : Nat) (body after : List Char) :
    slashedTag (n + 1) body after = '\\' :: slashedTag n body after := rfl

theorem slashedTag_append (n : Nat) (body after tail : List Char) :
    slashedTag n body after ++ tail = slashedTag n body (after ++ tail) := by
  simp [slashedTag]

/-- A backslash more before a tag counts with it. -/
theorem tagAt?_slash_eq_none_iff : tagAt? ('\\' :: cs) = none ↔ tagAt? cs = none := by
  rw [← not_iff_not, ← ne_eq, ← ne_eq, Option.ne_none_iff_exists', Option.ne_none_iff_exists']
  constructor
  · rintro ⟨⟨n, body, after⟩, htag⟩
    obtain ⟨hbody, hcs⟩ := tagAt?_eq_some_iff.mp htag
    cases n with
    | zero => cases hcs
    | succ n =>
      rw [slashedTag_succ] at hcs
      exact ⟨_, tagAt?_eq_some_iff.mpr ⟨hbody, (List.cons.inj hcs).2⟩⟩
  · rintro ⟨⟨n, body, after⟩, htag⟩
    obtain ⟨hbody, rfl⟩ := tagAt?_eq_some_iff.mp htag
    exact ⟨_, tagAt?_eq_some_iff.mpr ⟨hbody, (slashedTag_succ n body after).symm⟩⟩

/-- A bracket begins no tag if no tag may begin with what follows it, or if the next bracket is not
a closing one. -/
theorem tagAt?_bracket_eq_none_iff :
    tagAt? ('[' :: cs) = none ↔ ∀ c rest, cs = c :: rest → isTagStart c = true →
      rest.find? isBracket ≠ some ']' := by
  constructor
  · rintro h c rest rfl hstart hfind
    obtain ⟨-, inside, after, rfl, hinside⟩ := List.find?_eq_some_iff_append.mp hfind
    have hbody : IsTagBody (c :: inside) := ⟨c, inside, rfl, hstart, by simpa using hinside⟩
    have htag : tagAt? ('[' :: c :: (inside ++ ']' :: after)) = some (0, c :: inside, after) :=
      tagAt?_eq_some_iff.mpr ⟨hbody, rfl⟩
    rw [htag] at h
    cases h
  · intro h
    by_contra hsome
    obtain ⟨⟨n, body, after⟩, htag⟩ := Option.ne_none_iff_exists'.mp hsome
    obtain ⟨⟨c, rest, rfl, hstart, hrest⟩, hcs⟩ := tagAt?_eq_some_iff.mp htag
    cases n with
    | succ n => cases hcs
    | zero =>
      refine h c (rest ++ ']' :: after) (List.cons.inj hcs).2 hstart ?_
      exact List.find?_eq_some_iff_append.mpr ⟨rfl, rest, after, rfl, by simpa using hrest⟩

theorem pieces_of_tag (h : tagAt? cs = some (n, body, after)) :
    pieces cs = .tag n body :: pieces after := by
  rw [pieces]
  split
  · next htag =>
    cases htag.symm.trans h
    rfl
  · next htag => cases htag.symm.trans h

theorem pieces_of_none (h : tagAt? (c :: cs) = none) : pieces (c :: cs) = .char c :: pieces cs := by
  rw [pieces]
  split
  · next htag => cases htag.symm.trans h
  · rfl

theorem pieces_nil : pieces [] = [] := by
  rw [pieces]
  rfl

/-- A text with all its tags made plain, before its end is guarded. -/
def plainTags (cs : List Char) : List Char :=
  (pieces cs).flatMap escapePiece

theorem plainTags_of_tag (h : tagAt? cs = some (n, body, after)) :
    plainTags cs = slashedTag (2 * n + 1) body (plainTags after) := by
  rw [plainTags, pieces_of_tag h, List.flatMap_cons, escapePiece, slashedTag]
  simp [plainTags]

theorem plainTags_of_none (h : tagAt? (c :: cs) = none) :
    plainTags (c :: cs) = c :: plainTags cs := by
  rw [plainTags, pieces_of_none h]
  rfl

theorem plainTags_nil : plainTags [] = [] := by
  rw [plainTags, pieces_nil]
  rfl

theorem find?_isBracket_slashedTag (n : Nat) (body after : List Char) :
    (slashedTag n body after).find? isBracket = some '[' := by
  induction n with
  | zero => rfl
  | succ n ih => exact ih

theorem find?_isBracket_plainTags (cs : List Char) :
    (plainTags cs).find? isBracket = cs.find? isBracket := by
  fun_induction pieces cs with
  | case1 cs n body after htag ih =>
    rw [plainTags_of_tag htag, (tagAt?_eq_some_iff.mp htag).2, find?_isBracket_slashedTag,
      find?_isBracket_slashedTag]
  | case2 htag => rw [plainTags_nil]
  | case3 c cs htag ih => rw [plainTags_of_none htag, List.find?_cons, List.find?_cons, ih]

/-- Whether the rest of a text is shown when tags of these styles are open. -/
def IsShown (opened : List (List Char)) (cs : List Char) : Prop :=
  ∀ position plain, ∃ text, showPieces position opened plain (pieces cs) = .ok text

theorem exists_shown {markup : String} (h : IsShown [] markup.toList) :
    ∃ text, shown markup = .ok text := by
  obtain ⟨text, htext⟩ := h 0 []
  exact ⟨String.ofList text, by rw [shown, htext]; rfl⟩

theorem isShown_nil (opened : List (List Char)) : IsShown opened [] := by
  intro position plain
  rw [pieces_nil]
  exact ⟨_, rfl⟩

namespace IsShown

theorem cons_of_none (h : IsShown opened cs) (htag : tagAt? (c :: cs) = none) :
    IsShown opened (c :: cs) := by
  intro position plain
  rw [pieces_of_none htag]
  exact h _ _

theorem cons (h : IsShown opened cs) (hslash : c ≠ '\\') (hbracket : c ≠ '[') :
    IsShown opened (c :: cs) :=
  h.cons_of_none (tagAt?_of_ne hslash hbracket)

theorem slashes (h : IsShown opened cs) (htag : tagAt? cs = none) (n : Nat) :
    tagAt? (List.replicate n '\\' ++ cs) = none ∧
      IsShown opened (List.replicate n '\\' ++ cs) := by
  induction n with
  | zero => exact ⟨htag, h⟩
  | succ n ih =>
    have hslash := tagAt?_slash_eq_none_iff.mpr ih.1
    exact ⟨hslash, ih.2.cons_of_none hslash⟩

theorem plainTag (h : IsShown opened after) (hbody : IsTagBody body) (hodd : n % 2 = 1) :
    IsShown opened (slashedTag n body after) := by
  intro position plain
  obtain ⟨text, htext⟩ := h (position + n + body.length + 2) []
  rw [pieces_of_tag (tagAt?_slashedTag hbody), showPieces]
  simp only [hodd, if_true, htext]
  exact ⟨_, rfl⟩

theorem styleTag (h : IsShown outer after) (hbody : IsTagBody body) (heven : n % 2 = 0)
    (happly : ∀ position, applyTag position body opened = .ok outer) :
    IsShown opened (slashedTag n body after) := by
  intro position plain
  obtain ⟨text, htext⟩ := h (position + n + body.length + 2) []
  rw [pieces_of_tag (tagAt?_slashedTag hbody), showPieces]
  rw [if_neg (by simp [heven]), happly]
  refine ⟨dropBracketSlash plain.reverse ++ List.replicate (n / 2) '\\' ++ text, ?_⟩
  simp only [bind, Except.bind, htext]
  rfl

end IsShown

/-- What may follow an escaped text: it is shown after any number of backslashes, and it makes no
tag of a bracket before it. -/
structure IsTail (opened : List (List Char)) (tail : List Char) : Prop where
  isShown : ∀ n, IsShown opened (List.replicate n '\\' ++ tail)
  not_isTagStart : ∀ c ∈ tail.head?, isTagStart c = false
  find?_ne : tail.find? isBracket ≠ some ']'

theorem IsTail.slash (h : IsTail opened tail) : IsTail opened ('\\' :: tail) where
  isShown n := by
    have hslashes := h.isShown (n + 1)
    rwa [List.replicate_succ', List.append_assoc] at hslashes
  not_isTagStart := by simp [isTagStart]
  find?_ne := h.find?_ne

theorem isTail_nil (opened : List (List Char)) : IsTail opened [] where
  isShown n := ((isShown_nil opened).slashes tagAt?_nil n).2
  not_isTagStart := by simp
  find?_ne := by simp

theorem tagAt?_bracket_plainTags (htail : IsTail opened tail) (h : tagAt? ('[' :: cs) = none) :
    tagAt? ('[' :: (plainTags cs ++ tail)) = none := by
  rw [tagAt?_bracket_eq_none_iff] at h ⊢
  intro c rest heq hstart
  cases htag : tagAt? cs with
  | some tag =>
    rw [plainTags_of_tag htag, slashedTag_succ, List.cons_append] at heq
    rw [← (List.cons.inj heq).1] at hstart
    cases hstart
  | none =>
    cases cs with
    | nil =>
      rw [plainTags_nil, List.nil_append] at heq
      rw [htail.not_isTagStart c (by simp [heq])] at hstart
      cases hstart
    | cons first cs =>
      rw [plainTags_of_none htag, List.cons_append] at heq
      obtain ⟨rfl, rfl⟩ := List.cons.inj heq
      have hfirst := h first cs rfl hstart
      rw [List.find?_append, find?_isBracket_plainTags]
      cases hfind : cs.find? isBracket with
      | none => simpa using htail.find?_ne
      | some bracket => simpa [hfind] using hfirst

/-- A text whose tags are made plain is shown before whatever may follow it. The backslashes count
those that have been passed since they stand before no tag. -/
theorem isShown_plainTags_append (htail : IsTail opened tail) (cs : List Char) (n : Nat)
    (hn : n = 0 ∨ tagAt? cs = none) :
    IsShown opened (List.replicate n '\\' ++ (plainTags cs ++ tail)) := by
  fun_induction pieces cs generalizing n with
  | case1 cs slashes body after htag ih =>
    obtain rfl := hn.resolve_right (by simp [htag])
    rw [plainTags_of_tag htag]
    have hodd : (2 * slashes + 1) % 2 = 1 := by omega
    have h := (ih 0 (.inl rfl)).plainTag (tagAt?_eq_some_iff.mp htag).1 hodd
    rwa [List.replicate_zero, List.nil_append, ← slashedTag_append] at h
  | case2 htag => simpa [plainTags_nil] using htail.isShown n
  | case3 c cs htag ih =>
    rw [plainTags_of_none htag, List.cons_append]
    by_cases hslash : c = '\\'
    · -- A backslash is put off until it is known what it stands before.
      subst hslash
      have h := ih (n + 1) (.inr (tagAt?_slash_eq_none_iff.mp htag))
      rwa [List.replicate_succ', List.append_assoc] at h
    · have h := ih 0 (.inl rfl)
      by_cases hbracket : c = '['
      · subst hbracket
        have hplain := tagAt?_bracket_plainTags htail htag
        exact ((h.cons_of_none hplain).slashes hplain n).2
      · have hplain : tagAt? (c :: (plainTags cs ++ tail)) = none := tagAt?_of_ne hslash hbracket
        exact ((h.cons_of_none hplain).slashes hplain n).2

theorem isShown_escape_append (htail : IsTail opened tail) (s : String) :
    IsShown opened ((escape s).toList ++ tail) := by
  have h (tail : List Char) (htail : IsTail opened tail) :
      IsShown opened (plainTags s.toList ++ tail) :=
    isShown_plainTags_append htail s.toList 0 (.inl rfl)
  rw [escape, String.toList_ofList]
  change IsShown opened (guardEnd (plainTags s.toList) ++ tail)
  unfold guardEnd
  split
  · exact h tail htail
  · rw [List.append_assoc]
    exact h _ htail.slash
  · exact h tail htail

theorem isShown_escape (s : String) : IsShown opened (escape s).toList := by
  have h := isShown_escape_append (isTail_nil opened) s
  rwa [List.append_nil] at h

theorem IsShown.plain_append (h : IsShown opened cs) {plain : List Char}
    (hplain : ∀ c ∈ plain, c ≠ '\\' ∧ c ≠ '[') : IsShown opened (plain ++ cs) := by
  induction plain with
  | nil => exact h
  | cons c plain ih =>
    obtain ⟨hc, hplain⟩ := List.forall_mem_cons.mp hplain
    exact (ih hplain).cons hc.1 hc.2

/-- A name that is one word in small letters, and neither begins a definition of several words nor
names a colour, names a style. -/
theorem exists_nameOf {name : List Char} (hwords : splitWords name = [name])
    (hlower : Text.lower name = name)
    (hsingle : name ≠ "on".toList ∧ name ≠ "not".toList ∧ name ≠ "link".toList)
    (hcolor : isColor name = .ok false) : ∃ style, Style.nameOf name = .ok style := by
  rw [Style.nameOf, hwords, Style.extend, hlower, if_neg hsingle.1, if_neg hsingle.2.1,
    if_neg hsingle.2.2]
  cases attribute? name with
  | some named => exact ⟨_, rfl⟩
  | none =>
    simp only [hcolor]
    exact ⟨_, rfl⟩

structure IsStyleName (name style : List Char) : Prop where
  nameOf_eq : Style.nameOf name = .ok style
  isTagStart : ∃ c rest, name = c :: rest ∧ c ≠ '/' ∧ isTagStart c = true
  any_isBracket : name.any isBracket = false
  sign_not_mem : '=' ∉ name
  strip_ne_nil : Text.strip name ≠ []

namespace IsStyleName

variable {name style : List Char}

theorem not_isBracket (h : IsStyleName name style) : ∀ c ∈ name, isBracket c = false := by
  simpa using h.any_isBracket

theorem isTagBody (h : IsStyleName name style) : IsTagBody name := by
  obtain ⟨c, rest, rfl, -, hstart⟩ := h.isTagStart
  exact ⟨c, rest, rfl, hstart, (List.forall_mem_cons.mp h.not_isBracket).2⟩

theorem isTagBody_closing (h : IsStyleName name style) : IsTagBody ('/' :: name) :=
  ⟨'/', name, rfl, rfl, h.not_isBracket⟩

theorem takeWhile_eq (h : IsStyleName name style) : name.takeWhile (· != '=') = name := by
  refine List.takeWhile_eq_self_iff.mpr fun c hc => ?_
  have hne : c ≠ '=' := fun heq => h.sign_not_mem (heq ▸ hc)
  simpa using hne

theorem applyTag_opening (h : IsStyleName name style) (position : Nat) :
    applyTag position name opened = .ok (style :: opened) := by
  obtain ⟨c, rest, hname, hslash, -⟩ := h.isTagStart
  unfold applyTag
  rw [h.takeWhile_eq]
  split
  · exact absurd (List.cons.inj hname).1.symm hslash
  · rw [h.nameOf_eq]

theorem applyTag_closing (h : IsStyleName name style) (position : Nat) :
    applyTag position ('/' :: name) (style :: opened) = .ok opened := by
  unfold applyTag
  rw [List.takeWhile_cons_of_pos (by decide), h.takeWhile_eq]
  simp only [h.strip_ne_nil, if_false, h.nameOf_eq, closeStyle, if_true]

theorem isShown_opening (h : IsStyleName name style) (hafter : IsShown (style :: opened) after) :
    IsShown opened (slashedTag 0 name after) :=
  hafter.styleTag h.isTagBody rfl h.applyTag_opening

theorem isTail_closing (h : IsStyleName name style) (hafter : ∀ opened, IsShown opened after) :
    IsTail (style :: opened) (slashedTag 0 ('/' :: name) after) where
  isShown n := by
    -- The end of an escaped text may have backslashes of its own, so the tag may turn out plain.
    rcases Nat.mod_two_eq_zero_or_one n with heven | hodd
    · exact (hafter opened).styleTag h.isTagBody_closing heven h.applyTag_closing
    · exact (hafter (style :: opened)).plainTag h.isTagBody_closing hodd
  not_isTagStart := by
    intro c hc
    cases hc
    rfl
  find?_ne := by
    rw [find?_isBracket_slashedTag]
    decide

theorem isShown_escape (h : IsStyleName name style) (hafter : ∀ opened, IsShown opened after)
    (s : String) :
    IsShown opened (slashedTag 0 name ((escape s).toList ++ slashedTag 0 ('/' :: name) after)) :=
  h.isShown_opening (isShown_escape_append (h.isTail_closing hafter) s)

end IsStyleName

theorem exists_isStyleName_path : ∃ style, IsStyleName "path".toList style := by
  obtain ⟨style, hstyle⟩ : ∃ style, Style.nameOf "path".toList = .ok style :=
    exists_nameOf (by cbv) (by decide) (by decide) (by decide)
  exact ⟨style, hstyle, ⟨'p', "ath".toList, by decide⟩, by decide, by decide, by decide⟩

theorem exists_isStyleName_bold : ∃ style, IsStyleName "bold".toList style := by
  obtain ⟨style, hstyle⟩ : ∃ style, Style.nameOf "bold".toList = .ok style :=
    exists_nameOf (by cbv) (by decide) (by decide) (by decide)
  exact ⟨style, hstyle, ⟨'b', "old".toList, by decide⟩, by decide, by decide, by decide⟩

def Report.IsShown (report : Report) : Prop :=
  ∃ lines, report.lines = .ok lines

theorem Report.isShown_record {message : String} (level : Level)
    (h : Console.IsShown [] message.toList) : (Report.record level message).IsShown := by
  obtain ⟨text, htext⟩ := exists_shown h
  exact ⟨_, Attempt.map_eq_ok_iff.mpr ⟨text, htext, rfl⟩⟩

theorem Report.isShown_markup {text : String} (h : Console.IsShown [] text.toList) :
    (Report.markup text).IsShown := by
  obtain ⟨text, htext⟩ := exists_shown h
  exact ⟨_, Attempt.map_eq_ok_iff.mpr ⟨text, htext, rfl⟩⟩

theorem exists_shown_column {column : Column} (hhead : IsShown [] column.head.toList)
    (hcells : ∀ cell ∈ column.cells, IsShown [] cell.toList) :
    ∃ shown, column.shown = .ok shown := by
  obtain ⟨head, hhead⟩ := exists_shown hhead
  obtain ⟨cells, hcells⟩ :=
    Attempt.exists_mapM_eq_ok_iff.mpr fun cell hcell => exists_shown (hcells cell hcell)
  exact ⟨⟨head, column.alignment, cells⟩, by rw [Column.shown, hhead, hcells]; rfl⟩

theorem Report.isShown_table {table : Table} (htitle : Console.IsShown [] table.title.toList)
    (hcolumns : ∀ column ∈ table.columns, Console.IsShown [] column.head.toList ∧
      ∀ cell ∈ column.cells, Console.IsShown [] cell.toList) : (Report.table table).IsShown := by
  obtain ⟨title, htitle⟩ := exists_shown htitle
  obtain ⟨columns, hcolumns⟩ := Attempt.exists_mapM_eq_ok_iff.mpr fun column hcolumn =>
    exists_shown_column (hcolumns column hcolumn).1 (hcolumns column hcolumn).2
  have htable : table.shown = .ok ⟨title, columns⟩ := by
    rw [Table.shown, htitle, hcolumns]
    rfl
  exact ⟨_, Attempt.map_eq_ok_iff.mpr ⟨_, htable, rfl⟩⟩

theorem Report.exists_allLines {reports : List Report} (h : ∀ report ∈ reports, report.IsShown) :
    ∃ lines, Report.allLines reports = .ok lines := by
  obtain ⟨lines, hlines⟩ := Attempt.exists_mapM_eq_ok_iff.mpr h
  exact ⟨_, Attempt.map_eq_ok_iff.mpr ⟨lines, hlines, rfl⟩⟩

end Linewise.Console
