import Mathlib.Data.List.Basic

/-!
# Readers that can fail

A reader goes through a list, handing on what it has read so far, and stops at the first failure.
The lemmas say what it means that such a reader succeeds, and where it fails.
-/

namespace QueryBook.Reading

variable {α β ε ε' : Type}

/-- A reader followed by another succeeds exactly if both do. -/
theorem bind_eq_ok {x : Except ε α} {f : α → Except ε β} {b : β} :
    x.bind f = .ok b ↔ ∃ a, x = .ok a ∧ f a = .ok b := by
  cases x <;> simp [Except.bind]

/-- Changing the result does not change whether there is one. -/
theorem map_eq_ok {f : α → β} {x : Except ε α} {b : β} :
    x.map f = .ok b ↔ ∃ a, x = .ok a ∧ f a = b := by
  cases x <;> simp [Except.map]

/-- Where a reader gives one value under one condition, so does its image. -/
theorem map_eq_ok_iff {x : Except ε α} {P : Prop} {v : α} (h : ∀ a, x = .ok a ↔ P ∧ a = v)
    {f : α → β} {b : β} : x.map f = .ok b ↔ P ∧ b = f v := by
  rw [map_eq_ok]
  constructor
  · rintro ⟨a, ha, rfl⟩
    obtain ⟨hP, rfl⟩ := (h a).1 ha
    exact ⟨hP, rfl⟩
  · rintro ⟨hP, rfl⟩
    exact ⟨v, (h v).2 ⟨hP, rfl⟩, rfl⟩

/-- Changing the error does not change the result. -/
theorem mapError_eq_ok {f : ε → ε'} {x : Except ε α} {a : α} :
    x.mapError f = .ok a ↔ x = .ok a := by
  cases x <;> simp [Except.mapError]

/-- A reader followed by another fails exactly if the first does, or the second behind it. -/
theorem bind_eq_error {x : Except ε α} {f : α → Except ε β} {e : ε} :
    x.bind f = .error e ↔ x = .error e ∨ ∃ a, x = .ok a ∧ f a = .error e := by
  cases x <;> simp [Except.bind]

/-- Changing the result does not change the error. -/
theorem map_eq_error {f : α → β} {x : Except ε α} {e : ε} :
    x.map f = .error e ↔ x = .error e := by
  cases x <;> simp [Except.map]

/-- A changed error comes from one that was there. -/
theorem mapError_eq_error {f : ε → ε'} {x : Except ε α} {e : ε'} :
    x.mapError f = .error e ↔ ∃ e', x = .error e' ∧ f e' = e := by
  cases x <;> simp [Except.mapError]

/-- Success is a result. -/
theorem eq_ok_iff_toOption {x : Except ε α} {a : α} : x = .ok a ↔ x.toOption = some a := by
  cases x <;> simp [Except.toOption]

/-- There is a result exactly if one can be taken out. -/
theorem exists_eq_ok_iff {x : Except ε α} : (∃ a, x = .ok a) ↔ x.toOption.isSome = true := by
  cases x <;> simp [Except.toOption]

/-- A result that is there is the one that is taken out. -/
theorem eq_ok_getD {x : Except ε α} (h : x.toOption.isSome = true) (a : α) :
    x = .ok (x.toOption.getD a) := by
  obtain ⟨b, hb⟩ := Option.isSome_iff_exists.mp h
  rw [eq_ok_iff_toOption, hb, Option.getD_some]

theorem toOption_map (f : α → β) (x : Except ε α) : (x.map f).toOption = x.toOption.map f := by
  cases x <;> rfl

/-- Reading nothing leaves what has been read. -/
theorem foldlM_nil_eq_ok {f : β → α → Except ε β} {b c : β} :
    [].foldlM f b = .ok c ↔ c = b := by
  rw [List.foldlM_nil]
  exact ⟨fun h => by cases h; rfl, fun h => by rw [h]; rfl⟩

/-- Reading a list is reading its head and then its tail. -/
theorem foldlM_cons_eq_ok {f : β → α → Except ε β} {a : α} {as : List α} {b c : β} :
    (a :: as).foldlM f b = .ok c ↔ ∃ b', f b a = .ok b' ∧ as.foldlM f b' = .ok c := by
  rw [List.foldlM_cons]
  exact bind_eq_ok

/-- Reading a list fails exactly at the first item that fails behind items that are read; what
follows that item does not matter. -/
theorem foldlM_eq_error {f : β → α → Except ε β} {as : List α} {b : β} {e : ε} :
    as.foldlM f b = .error e ↔ ∃ before a after b',
      as = before ++ a :: after ∧ before.foldlM f b = .ok b' ∧ f b' a = .error e := by
  induction as generalizing b with
  | nil =>
    constructor
    · intro h
      cases h
    · rintro ⟨before, a, after, b', h, -⟩
      exact absurd h.symm (by simp)
  | cons x as ih =>
    have hcons : (x :: as).foldlM f b = (f b x).bind fun b' => as.foldlM f b' := List.foldlM_cons
    rw [hcons]
    constructor
    · intro h
      -- the head fails, or it is read and an item of the tail fails
      cases hx : f b x with
      | error e' =>
        rw [hx] at h
        cases h
        exact ⟨[], x, as, b, rfl, foldlM_nil_eq_ok.2 rfl, hx⟩
      | ok next =>
        rw [hx] at h
        obtain ⟨before, a, after, b', rfl, hbefore, ha⟩ := ih.1 h
        exact ⟨x :: before, a, after, b', rfl, foldlM_cons_eq_ok.2 ⟨next, hx, hbefore⟩, ha⟩
    · rintro ⟨before, a, after, b', h, hbefore, ha⟩
      cases before with
      | nil =>
        obtain ⟨rfl, rfl⟩ := List.cons.inj h
        obtain rfl := foldlM_nil_eq_ok.1 hbefore
        rw [ha]
        rfl
      | cons y before =>
        obtain ⟨rfl, rfl⟩ := List.cons.inj h
        obtain ⟨next, hx, hbefore⟩ := foldlM_cons_eq_ok.1 hbefore
        rw [hx]
        exact ih.2 ⟨before, a, after, b', rfl, hbefore, ha⟩

end QueryBook.Reading
