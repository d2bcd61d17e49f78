/-!
# What comes of steps

A reader is made of steps each of which may fail. It succeeds if all of them do, and these lemmas
take a success apart into the successes of the steps, or put it together from them.
-/

namespace RangeSync

variable {α β ε : Type}

/-- A computation in two steps succeeds if both do. -/
theorem bind_eq_ok_iff {x : Except ε α} {f : α → Except ε β} {b : β} :
    x >>= f = .ok b ↔ ∃ a, x = .ok a ∧ f a = .ok b := by
  cases x with
  | error fault =>
    constructor
    · intro h
      cases h
    · rintro ⟨a, ha, -⟩
      cases ha
  | ok a =>
    constructor
    · intro h
      exact ⟨a, rfl, h⟩
    · rintro ⟨a', ha, h⟩
      cases ha
      exact h

theorem map_eq_ok_iff {x : Except ε α} {f : α → β} {b : β} :
    x.map f = .ok b ↔ ∃ a, x = .ok a ∧ f a = b := by
  cases x with
  | error fault =>
    constructor
    · intro h
      cases h
    · rintro ⟨a, ha, -⟩
      cases ha
  | ok a =>
    constructor
    · intro h
      exact ⟨a, rfl, Except.ok.inj h⟩
    · rintro ⟨a', ha, rfl⟩
      cases ha
      rfl

/-- All elements are converted if each of them is. -/
theorem mapM_eq_some_iff {f : α → Option β} {s : List α} {t : List β} :
    s.mapM f = some t ↔ s.map f = t.map some := by
  induction s generalizing t with
  | nil => cases t <;> simp
  | cons a s ih =>
    rw [List.mapM_cons]
    constructor
    · intro h
      obtain ⟨b, hb, h⟩ := Option.bind_eq_some_iff.mp h
      obtain ⟨bs, hbs, h⟩ := Option.bind_eq_some_iff.mp h
      cases h
      rw [List.map_cons, List.map_cons, hb, ih.mp hbs]
    · intro h
      cases t with
      | nil => cases h
      | cons b t =>
        rw [List.map_cons, List.map_cons, List.cons.injEq] at h
        rw [h.1, ih.mpr h.2]
        rfl

end RangeSync
