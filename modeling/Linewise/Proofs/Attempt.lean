import Mathlib.Data.List.Forall2

/-! # Computations that may end in a fault

When a mapped computation and a list of computations give a result, and what it is made of; and when
they end in a fault, and where.
-/

namespace Linewise.Attempt

variable {ε α β : Type}

theorem map_eq_ok_iff {f : α → β} {x : Except ε α} {b : β} :
    x.map f = .ok b ↔ ∃ a, x = .ok a ∧ f a = b := by
  cases x <;> simp [Except.map]

theorem map_eq_error_iff {f : α → β} {x : Except ε α} {e : ε} :
    x.map f = .error e ↔ x = .error e := by
  cases x <;> simp [Except.map]

theorem map_map {γ : Type} (f : α → β) (g : β → γ) (x : Except ε α) :
    (x.map f).map g = x.map (g ∘ f) := by
  cases x <;> rfl

theorem mapError_inj {ε' : Type} {f : ε → ε'} (hf : Function.Injective f) {x y : Except ε α} :
    x.mapError f = y.mapError f ↔ x = y := by
  cases x <;> cases y <;> simp [Except.mapError, hf.eq_iff]

theorem bind_eq_ok_iff {f : α → Except ε β} {x : Except ε α} {b : β} :
    x.bind f = .ok b ↔ ∃ a, x = .ok a ∧ f a = .ok b := by
  cases x <;> simp [Except.bind]

theorem bind_eq_error_iff {f : α → Except ε β} {x : Except ε α} {e : ε} :
    x.bind f = .error e ↔ x = .error e ∨ ∃ a, x = .ok a ∧ f a = .error e := by
  cases x <;> simp [Except.bind]

theorem mapM_eq_ok_iff {f : α → Except ε β} {xs : List α} {ys : List β} :
    xs.mapM f = .ok ys ↔ List.Forall₂ (fun x y => f x = .ok y) xs ys := by
  induction xs generalizing ys with
  | nil =>
    rw [List.mapM_nil, List.forall₂_nil_left_iff]
    exact ⟨fun h => (Except.ok.inj h).symm, fun h => h ▸ rfl⟩
  | cons x xs ih =>
    rw [List.mapM_cons, List.forall₂_cons_left_iff]
    change (f x).bind (fun y => (xs.mapM f).bind fun rest => .ok (y :: rest)) = .ok ys ↔ _
    simp only [bind_eq_ok_iff, ih, Except.ok.injEq]
    constructor
    · rintro ⟨y, hy, rest, hrest, rfl⟩
      exact ⟨y, rest, hy, hrest, rfl⟩
    · rintro ⟨y, rest, hy, hrest, rfl⟩
      exact ⟨y, hy, rest, hrest, rfl⟩

/-- A list of computations ends in the fault of the first one that has no result. -/
theorem mapM_eq_error_iff {f : α → Except ε β} {xs : List α} {e : ε} :
    xs.mapM f = .error e ↔
      ∃ before x after, xs = before ++ x :: after ∧ (∀ a ∈ before, ∃ b, f a = .ok b) ∧
        f x = .error e := by
  induction xs with
  | nil => simp [List.mapM_nil, pure, Except.pure]
  | cons x xs ih =>
    rw [List.mapM_cons]
    change (f x).bind (fun y => (xs.mapM f).bind fun rest => .ok (y :: rest)) = .error e ↔ _
    simp only [bind_eq_error_iff, ih, reduceCtorEq, and_false, exists_false, or_false]
    constructor
    · rintro (hx | ⟨b, hx, before, y, after, rfl, hbefore, hy⟩)
      · exact ⟨[], x, xs, rfl, by simp, hx⟩
      · exact ⟨x :: before, y, after, rfl, List.forall_mem_cons.mpr ⟨⟨b, hx⟩, hbefore⟩, hy⟩
    · rintro ⟨before, y, after, heq, hbefore, hy⟩
      cases before with
      | nil =>
        obtain ⟨rfl, rfl⟩ := List.cons.inj heq
        exact .inl hy
      | cons first before =>
        obtain ⟨rfl, rfl⟩ := List.cons.inj heq
        obtain ⟨⟨b, hb⟩, hbefore⟩ := List.forall_mem_cons.mp hbefore
        exact .inr ⟨b, hb, before, y, after, rfl, hbefore, hy⟩

/-- In a list with increasing keys, an element is the first without a property exactly if those
with lower keys have it. -/
theorem exists_first_iff {key : α → Int} {xs : List α} {property last : α → Prop}
    (h : xs.Pairwise fun a b => key a < key b) :
    (∃ before x after, xs = before ++ x :: after ∧ (∀ a ∈ before, property a) ∧ last x) ↔
      ∃ x ∈ xs, (∀ a ∈ xs, key a < key x → property a) ∧ last x := by
  constructor
  · rintro ⟨before, x, after, rfl, hbefore, hx⟩
    refine ⟨x, by simp, fun a ha hlt => ?_, hx⟩
    have hafter := List.pairwise_cons.mp (List.pairwise_append.mp h).2.1
    rcases List.mem_append.mp ha with ha | ha
    · exact hbefore a ha
    · rcases List.mem_cons.mp ha with rfl | ha
      · omega
      · have hgt := hafter.1 a ha
        omega
  · rintro ⟨x, hx, hbefore, hlast⟩
    obtain ⟨before, after, rfl⟩ := List.append_of_mem hx
    refine ⟨before, x, after, rfl, fun a ha => ?_, hlast⟩
    have hlt := (List.pairwise_append.mp h).2.2 a ha x List.mem_cons_self
    exact hbefore a (List.mem_append_left _ ha) hlt

theorem exists_forall₂_iff {related : α → β → Prop} {xs : List α} :
    (∃ ys, List.Forall₂ related xs ys) ↔ ∀ x ∈ xs, ∃ y, related x y := by
  induction xs with
  | nil => simp
  | cons x xs ih =>
    rw [List.forall_mem_cons, ← ih]
    constructor
    · rintro ⟨ys, h⟩
      obtain ⟨y, rest, hy, hrest, -⟩ := List.forall₂_cons_left_iff.mp h
      exact ⟨⟨y, hy⟩, rest, hrest⟩
    · rintro ⟨⟨y, hy⟩, rest, hrest⟩
      exact ⟨y :: rest, .cons hy hrest⟩

theorem exists_mapM_eq_ok_iff {f : α → Except ε β} {xs : List α} :
    (∃ ys, xs.mapM f = .ok ys) ↔ ∀ x ∈ xs, ∃ y, f x = .ok y := by
  simp only [mapM_eq_ok_iff, exists_forall₂_iff]

theorem exists_mem_of_forall₂ {related : α → β → Prop} {xs : List α} {ys : List β}
    (h : List.Forall₂ related xs ys) {y : β} (hy : y ∈ ys) : ∃ x ∈ xs, related x y := by
  induction h with
  | nil => cases hy
  | cons hxy _ ih =>
    rcases List.mem_cons.mp hy with rfl | hy
    · exact ⟨_, List.mem_cons_self, hxy⟩
    · obtain ⟨x, hx, hrel⟩ := ih hy
      exact ⟨x, List.mem_cons_of_mem _ hx, hrel⟩

theorem forall₂_congr_of_mem {related other : α → β → Prop} {xs : List α} {ys : List β}
    (h : ∀ x ∈ xs, ∀ y, related x y ↔ other x y) :
    List.Forall₂ related xs ys ↔ List.Forall₂ other xs ys := by
  induction xs generalizing ys with
  | nil => rw [List.forall₂_nil_left_iff, List.forall₂_nil_left_iff]
  | cons x xs ih =>
    obtain ⟨hx, hxs⟩ := List.forall_mem_cons.mp h
    rw [List.forall₂_cons_left_iff, List.forall₂_cons_left_iff]
    simp only [hx, ih hxs]

theorem forall₂_exists_iff {γ : Type} {related : α → β → Prop} {f : β → γ} {xs : List α}
    {zs : List γ} :
    List.Forall₂ (fun x z => ∃ y, related x y ∧ f y = z) xs zs ↔
      ∃ ys, List.Forall₂ related xs ys ∧ ys.map f = zs := by
  constructor
  · intro h
    induction h with
    | nil => exact ⟨[], .nil, rfl⟩
    | cons hxz _ ih =>
      obtain ⟨y, hy, rfl⟩ := hxz
      obtain ⟨ys, hys, rfl⟩ := ih
      exact ⟨y :: ys, .cons hy hys, rfl⟩
  · rintro ⟨ys, hys, rfl⟩
    exact List.forall₂_map_right_iff.mpr (hys.imp fun x y hy => ⟨y, hy, rfl⟩)

end Linewise.Attempt
