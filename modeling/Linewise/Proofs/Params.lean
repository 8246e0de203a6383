import Linewise.Proofs.Spelling

/-! # How parameters are paired

Every second token between a function's name and its arrow is a parameter, and the token before it
is its type. A parameter that is named again keeps its place and takes the later type, so that
pairing in two parts is pairing in one.
-/

namespace Linewise

variable {tokens before : List String} {name type : String}

/-- The tokens at even places, counted from one. -/
def evenPlaced (tokens : List String) : List String :=
  ((tokens.zipIdx 1).filter fun e => e.2 % 2 = 0).map Prod.fst

theorem keys_paramPairs (tokens : List String) :
    Entries.keys (paramPairs tokens) = evenPlaced tokens := by
  -- the two tokens of a pair stand at an odd place and at the even one behind it
  have hfrom (n : Nat) (hodd : n % 2 = 1) : Entries.keys (paramPairs tokens) =
      ((tokens.zipIdx n).filter fun e => e.2 % 2 = 0).map Prod.fst := by
    fun_induction paramPairs tokens generalizing n with
    | case1 type name rest ih =>
      have hnext : (n + 1) % 2 = 0 := by omega
      simp only [Entries.keys] at ih
      simp [Entries.keys, List.zipIdx_cons, hodd, hnext, ih (n + 1 + 1) (by omega)]
    | case2 tokens hshort =>
      rcases tokens with _ | ⟨type, _ | ⟨name, rest⟩⟩
      · rfl
      · simp [Entries.keys, hodd]
      · exact absurd rfl (hshort type name rest)
  exact hfrom 1 rfl

theorem getElem?_paramPairs {i : Nat} :
    (paramPairs tokens)[i]? = some (name, type) ↔
      tokens[2 * i]? = some type ∧ tokens[2 * i + 1]? = some name := by
  fun_induction paramPairs tokens generalizing i with
  | case1 first second rest ih =>
    cases i with
    | zero => simp [and_comm]
    | succ i =>
      have hdouble : 2 * (i + 1) = 2 * i + 1 + 1 := by omega
      rw [List.getElem?_cons_succ, ih, hdouble]
      simp
  | case2 tokens hshort =>
    rcases tokens with _ | ⟨first, _ | ⟨second, rest⟩⟩
    · simp
    · simp
    · exact absurd rfl (hshort first second rest)

theorem paramPairs_append (h : Even before.length) (after : List String) :
    paramPairs (before ++ after) = paramPairs before ++ paramPairs after := by
  fun_induction paramPairs before with
  | case1 type name rest ih =>
    have heven : Even rest.length := by simpa [Nat.even_add_one] using h
    rw [List.cons_append, List.cons_append, paramPairs, ih heven, List.cons_append]
  | case2 tokens hshort =>
    rcases tokens with _ | ⟨type, _ | ⟨name, rest⟩⟩
    · rfl
    · exact absurd h (by simp)
    · exact absurd rfl (hshort type name rest)

/-- The type of a parameter stands before the last place where the parameter is named. -/
theorem mem_paramsOfTokens_iff :
    (name, type) ∈ paramsOfTokens tokens ↔ ∃ i, tokens[2 * i + 1]? = some name ∧
      tokens[2 * i]? = some type ∧ ∀ j, i < j → tokens[2 * j + 1]? ≠ some name := by
  simp only [paramsOfTokens, Entries.mem_ofList_iff_getElem?, ne_eq, getElem?_paramPairs]
  constructor
  · rintro ⟨i, ⟨htype, hname⟩, hlast⟩
    refine ⟨i, hname, htype, fun j hj hagain => ?_⟩
    have hbound := (List.getElem?_eq_some_iff.mp hagain).1
    have hbefore : tokens[2 * j]? = some tokens[2 * j] := List.getElem?_eq_getElem (by omega)
    exact hlast j _ hj ⟨hbefore, hagain⟩
  · rintro ⟨i, hname, htype, hlast⟩
    exact ⟨i, ⟨htype, hname⟩, fun j later hj hpair => hlast j hj hpair.2⟩

theorem nodup_keys_paramsOfTokens (tokens : List String) :
    (Entries.keys (paramsOfTokens tokens)).Nodup :=
  Entries.nodup_keys_ofList (paramPairs tokens)

theorem paramsOfTokens_append (h : Even before.length) (after : List String) :
    paramsOfTokens (before ++ after) = Entries.putAll (paramsOfTokens before)
      (paramsOfTokens after) := by
  simp only [paramsOfTokens]
  rw [Entries.putAll_ofList, paramPairs_append h, Entries.ofList, Entries.putAll_append]
  rfl

/-- The parameters are the distinct tokens at even places in the order in which they come first,
each with the token before the last such place. A last token without a partner does not count,
pairing in two parts writes the entries of the second over those of the first, where each parameter
keeps its place, and the parameters are paired again from their types and names. -/
theorem paramsOfTokens_merges (tokens : List String) :
    Entries.keys (paramsOfTokens tokens) = (evenPlaced tokens).eraseDups ∧
    (∀ name type, (name, type) ∈ paramsOfTokens tokens ↔ ∃ i, tokens[2 * i + 1]? = some name ∧
      tokens[2 * i]? = some type ∧ ∀ j, i < j → tokens[2 * j + 1]? ≠ some name) ∧
    (Even tokens.length → ∀ last, paramsOfTokens (tokens ++ [last]) = paramsOfTokens tokens) ∧
    (Even tokens.length → ∀ more,
      paramsOfTokens (tokens ++ more) =
        Entries.putAll (paramsOfTokens tokens) (paramsOfTokens more) ∧
      paramsOfTokens (tokens ++ more) =
        Entries.overlay (paramsOfTokens tokens) (paramsOfTokens more)) ∧
    paramsOfTokens ((paramsOfTokens tokens).flatMap fun p => [p.2, p.1]) =
      paramsOfTokens tokens := by
  refine ⟨?_, fun name type => mem_paramsOfTokens_iff, fun heven last => ?_,
    fun heven more => ⟨paramsOfTokens_append heven more, ?_⟩,
    Statement.paramsOfTokens_flatMap tokens⟩
  · rw [paramsOfTokens, Entries.keys_ofList, keys_paramPairs]
  · rw [paramsOfTokens_append heven]
    rfl
  · rw [paramsOfTokens_append heven, Entries.putAll_eq_overlay (nodup_keys_paramsOfTokens more)]

theorem paramsOfTokens_merges_repeated :
    let tokens := ["number", "a", "string", "b"]
    let more := ["T", "c", "boolean", "a", "U", "c", "V"]
    Even tokens.length ∧
      paramsOfTokens (tokens ++ more) = [("a", "boolean"), ("b", "string"), ("c", "U")] ∧
      paramsOfTokens (tokens ++ more) =
        Entries.putAll (paramsOfTokens tokens) (paramsOfTokens more) := by
  intro tokens more
  have heven : Even tokens.length := by decide
  exact ⟨heven, by decide, ((paramsOfTokens_merges tokens).2.2.2.1 heven more).1⟩

end Linewise
