/-!
# Cutting text

Lines, paths and URLs are cut at separators. `fields` cuts everywhere, `cutAt?` and `cutAtLast?`
cut once, at the first and at the last occurrence.
-/

namespace RangeSync.Text

/-- The parts of a list between the elements that are `separator`; one more than there are
separators. -/
def fields {α : Type} [BEq α] (separator : α) : List α → List (List α)
  | [] => [[]]
  | a :: rest =>
    if a == separator then [] :: fields separator rest
    else match fields separator rest with
      | [] => [[a]]
      | part :: more => (a :: part) :: more

/-- The parts with the separator between them. -/
def joined {α : Type} (separator : α) : List (List α) → List α
  | [] => []
  | [part] => part
  | part :: more => part ++ separator :: joined separator more

/-- The text before the first element with a property, that element, and the text after it. -/
def cutAt? {α : Type} (p : α → Bool) : List α → Option (List α × α × List α)
  | [] => none
  | a :: rest =>
    if p a then some ([], a, rest)
    else (cutAt? p rest).map fun (before, at_, after) => (a :: before, at_, after)

/-- The text before the last element with a property, that element, and the text after it. -/
def cutAtLast? {α : Type} (p : α → Bool) : List α → Option (List α × α × List α)
  | [] => none
  | a :: rest =>
    match cutAtLast? p rest with
    | some (before, at_, after) => some (a :: before, at_, after)
    | none => if p a then some ([], a, rest) else none

/-- The text before and after the first occurrence of `mark`. -/
def cutAround? {α : Type} [BEq α] (mark : List α) : List α → Option (List α × List α)
  | [] => if mark.isEmpty then some ([], []) else none
  | a :: rest =>
    if mark.isPrefixOf (a :: rest) then some ([], (a :: rest).drop mark.length)
    else (cutAround? mark rest).map fun (before, after) => (a :: before, after)

@[simp] theorem fields_nil {α : Type} [BEq α] (separator : α) :
    fields separator [] = [[]] := rfl

/-- Cutting gives at least one part. -/
theorem fields_ne_nil {α : Type} [BEq α] (separator : α) (s : List α) :
    fields separator s ≠ [] := by
  cases s with
  | nil => simp
  | cons a rest =>
    unfold fields
    split
    · simp
    · split <;> simp

/-- **Nothing is lost**: the parts with the separator between them are the text. -/
theorem joined_fields {α : Type} [BEq α] [LawfulBEq α] (separator : α) (s : List α) :
    joined separator (fields separator s) = s := by
  induction s with
  | nil => rfl
  | cons a rest ih =>
    have hne := fields_ne_nil separator rest
    by_cases h : a = separator
    · subst h
      cases hf : fields a rest with
      | nil => exact absurd hf hne
      | cons part more => rw [hf] at ih; simp [fields, hf, joined, ih]
    · cases hf : fields separator rest with
      | nil => exact absurd hf hne
      | cons part more =>
        rw [hf] at ih
        cases more with
        | nil => simp_all [fields, joined]
        | cons next more => simp_all [fields, joined]

section Joined

variable {α : Type} {separator : α}

theorem joined_cons {part : List α} {more : List (List α)} (h : more ≠ []) :
    joined separator (part :: more) = part ++ separator :: joined separator more := by
  cases more with
  | nil => exact absurd rfl h
  | cons => rfl

/-- Two rows of parts have a separator between them. -/
theorem joined_append {parts more : List (List α)} (hparts : parts ≠ []) (hmore : more ≠ []) :
    joined separator (parts ++ more) =
      joined separator parts ++ separator :: joined separator more := by
  induction parts with
  | nil => exact absurd rfl hparts
  | cons part rest ih =>
    by_cases hrest : rest = []
    · rw [hrest]
      exact joined_cons hmore
    · rw [List.cons_append, joined_cons (by simp [hrest]), ih hrest, joined_cons hrest]
      simp

/-- Only a single empty part leaves no text. -/
theorem joined_ne_nil {parts : List (List α)} (hne : parts ≠ []) (h : parts ≠ [[]]) :
    joined separator parts ≠ [] := by
  match parts with
  | [part] => exact fun he => h (congrArg ([·]) he)
  | part :: next :: more => simp [joined]

/-- What stands in the joined text is a separator or stands in a part. -/
theorem mem_joined {parts : List (List α)} {a : α}
    (h : a ∈ joined separator parts) : a = separator ∨ ∃ part ∈ parts, a ∈ part := by
  induction parts with
  | nil => exact absurd h List.not_mem_nil
  | cons part more ih =>
    by_cases hmore : more = []
    · subst hmore
      exact .inr ⟨part, List.mem_cons_self, h⟩
    · rw [joined_cons hmore, List.mem_append, List.mem_cons] at h
      rcases h with h | rfl | h
      · exact .inr ⟨part, List.mem_cons_self, h⟩
      · exact .inl rfl
      · exact (ih h).imp id fun ⟨p, hp, ha⟩ => ⟨p, List.mem_cons_of_mem _ hp, ha⟩

end Joined

section Parts

variable {α : Type} [BEq α] [LawfulBEq α] {separator : α}

/-- Text without the separator is a single part. -/
theorem fields_of_not_mem {s : List α} (h : separator ∉ s) : fields separator s = [s] := by
  induction s with
  | nil => rfl
  | cons a rest ih =>
    obtain ⟨ha, hrest⟩ := not_or.mp (mt List.mem_cons.mpr h)
    have hne : (a == separator) = false := by simpa using Ne.symm ha
    rw [fields, hne, if_neg Bool.false_ne_true, ih hrest]

/-- **A separator cuts**: the parts before it and the parts behind it. -/
theorem fields_append (before after : List α) :
    fields separator (before ++ separator :: after) =
      fields separator before ++ fields separator after := by
  induction before with
  | nil => simp [fields]
  | cons a rest ih =>
    by_cases ha : a = separator
    · simp [fields, ha, ih]
    · have hne := fields_ne_nil separator rest
      cases hf : fields separator rest with
      | nil => exact absurd hf hne
      | cons part more => simp [fields, ha, ih, hf]

theorem not_mem_of_mem_fields {s part : List α} (h : part ∈ fields separator s) :
    separator ∉ part := by
  induction s generalizing part with
  | nil =>
    rw [List.mem_singleton.mp h]
    exact List.not_mem_nil
  | cons a rest ih =>
    have hne := fields_ne_nil separator rest
    cases hf : fields separator rest with
    | nil => exact absurd hf hne
    | cons first more =>
      rw [hf] at ih
      by_cases ha : a = separator
      · simp only [fields, ha, beq_self_eq_true, if_true, hf, List.mem_cons] at h
        rcases h with rfl | h
        · exact List.not_mem_nil
        · exact ih (List.mem_cons.mpr h)
      · simp only [fields, beq_iff_eq, ha, if_false, hf, List.mem_cons] at h
        rcases h with rfl | h
        · exact mt List.mem_cons.mp (not_or.mpr ⟨Ne.symm ha, ih List.mem_cons_self⟩)
        · exact ih (List.mem_cons_of_mem _ h)

/-- **Parts without the separator are found again** between the separators. -/
theorem fields_joined {parts : List (List α)} (hne : parts ≠ [])
    (h : ∀ part ∈ parts, separator ∉ part) : fields separator (joined separator parts) = parts := by
  induction parts with
  | nil => exact absurd rfl hne
  | cons part rest ih =>
    obtain ⟨hpart, hrest⟩ := List.forall_mem_cons.mp h
    by_cases he : rest = []
    · rw [he]
      exact fields_of_not_mem hpart
    · rw [joined_cons he, fields_append, fields_of_not_mem hpart, ih he hrest]
      rfl

end Parts

theorem cutAtLast?_eq_none {α : Type} {p : α → Bool} {s : List α} (h : cutAtLast? p s = none) :
    ∀ b ∈ s, p b = false := by
  induction s with
  | nil => exact nofun
  | cons a rest ih =>
    unfold cutAtLast? at h
    split at h
    · cases h
    · rename_i hrest
      split at h
      · cases h
      · rename_i ha
        exact List.forall_mem_cons.mpr ⟨eq_false_of_ne_true ha, ih hrest⟩

/-- Cutting at the last element with a property loses nothing, and behind it there is none. -/
theorem cutAtLast?_eq_some {α : Type} {p : α → Bool} {s before after : List α} {a : α}
    (h : cutAtLast? p s = some (before, a, after)) :
    s = before ++ a :: after ∧ p a = true ∧ ∀ b ∈ after, p b = false := by
  induction s generalizing before with
  | nil => cases h
  | cons first rest ih =>
    unfold cutAtLast? at h
    split at h
    · rename_i front b back hrest
      cases h
      obtain ⟨rfl, ha, hafter⟩ := ih hrest
      exact ⟨rfl, ha, hafter⟩
    · rename_i hrest
      split at h
      · rename_i ha
        cases h
        exact ⟨rfl, ha, cutAtLast?_eq_none hrest⟩
      · cases h

theorem cutAtLast?_of_forall {α : Type} {p : α → Bool} {s : List α} (h : ∀ b ∈ s, p b = false) :
    cutAtLast? p s = none := by
  induction s with
  | nil => rfl
  | cons a rest ih =>
    rw [List.forall_mem_cons] at h
    simp only [cutAtLast?, ih h.2, h.1, Bool.false_eq_true, if_false]

/-- The last element with a property is found, whatever is before it. -/
theorem cutAtLast?_append {α : Type} {p : α → Bool} {before after : List α} {a : α}
    (ha : p a = true) (h : ∀ b ∈ after, p b = false) :
    cutAtLast? p (before ++ a :: after) = some (before, a, after) := by
  induction before with
  | nil => simp only [List.nil_append, cutAtLast?, cutAtLast?_of_forall h, ha, if_true]
  | cons b before ih => simp only [List.cons_append, cutAtLast?, ih]

theorem cutAt?_of_forall {α : Type} {p : α → Bool} {s : List α} (h : ∀ b ∈ s, p b = false) :
    cutAt? p s = none := by
  induction s with
  | nil => rfl
  | cons a rest ih =>
    rw [List.forall_mem_cons] at h
    simp only [cutAt?, ih h.2, h.1, Bool.false_eq_true, if_false, Option.map_none]

/-- The first element with a property is found, whatever is behind it. -/
theorem cutAt?_append {α : Type} {p : α → Bool} {before after : List α} {a : α}
    (ha : p a = true) (h : ∀ b ∈ before, p b = false) :
    cutAt? p (before ++ a :: after) = some (before, a, after) := by
  induction before with
  | nil => simp only [List.nil_append, cutAt?, ha, if_true]
  | cons b before ih =>
    rw [List.forall_mem_cons] at h
    simp only [List.cons_append, cutAt?, ih h.2, h.1, Bool.false_eq_true, if_false,
      Option.map_some]

/-- Joining is what the library calls to intercalate. -/
theorem intercalate_eq_joined {α : Type} (separator : α) (parts : List (List α)) :
    [separator].intercalate parts = joined separator parts := by
  induction parts with
  | nil => rfl
  | cons part more ih =>
    cases more with
    | nil => simp [joined]
    | cons next more =>
      rw [List.intercalate_cons_cons, ih, joined_cons (List.cons_ne_nil _ _), List.append_assoc]
      rfl

/-- A run ends at the first element that does not belong to it. -/
theorem takeWhile_dropWhile_append {α : Type} {p : α → Bool} {s rest : List α} {a : α}
    (h : ∀ b ∈ s, p b = true) (ha : p a = false) :
    (s ++ a :: rest).takeWhile p = s ∧ (s ++ a :: rest).dropWhile p = a :: rest := by
  rw [List.takeWhile_append_of_pos h, List.dropWhile_append_of_pos h,
    List.takeWhile_cons_of_neg (Bool.eq_false_iff.mp ha),
    List.dropWhile_cons_of_neg (Bool.eq_false_iff.mp ha), List.append_nil]
  exact ⟨rfl, rfl⟩

/-- A run that nothing ends is the whole text. -/
theorem takeWhile_dropWhile_of_forall {α : Type} {p : α → Bool} {s : List α}
    (h : ∀ b ∈ s, p b = true) : s.takeWhile p = s ∧ s.dropWhile p = [] := by
  induction s with
  | nil => exact ⟨rfl, rfl⟩
  | cons a s ih =>
    rw [List.forall_mem_cons] at h
    obtain ⟨htake, hdrop⟩ := ih h.2
    rw [List.takeWhile_cons_of_pos h.1, List.dropWhile_cons_of_pos h.1, htake]
    exact ⟨rfl, hdrop⟩

section Around

variable {α : Type} [BEq α] [LawfulBEq α] {mark s before after : List α}

/-- A text begins with another one. -/
theorem isPrefixOf_iff : mark.isPrefixOf s = true ↔ ∃ back, s = mark ++ back := by
  rw [List.isPrefixOf_iff_prefix]
  exact ⟨fun ⟨back, h⟩ => ⟨back, h.symm⟩, fun ⟨back, h⟩ => ⟨back, h.symm⟩⟩

/-- Where a text is not cut, there is nothing to cut it around. -/
theorem of_cutAround?_eq_none (hmark : mark ≠ []) (h : cutAround? mark s = none)
    (front back : List α) : s ≠ front ++ mark ++ back := by
  induction s generalizing front with
  | nil =>
    intro hs
    have hnil := List.append_eq_nil_iff.mp (List.append_eq_nil_iff.mp hs.symm).1
    exact hmark hnil.2
  | cons a rest ih =>
    unfold cutAround? at h
    split at h
    · cases h
    · rename_i hno
      intro hs
      cases front with
      | nil => exact hno (isPrefixOf_iff.mpr ⟨back, hs⟩)
      | cons b more => exact ih (Option.map_eq_none_iff.mp h) more (List.cons.inj hs).2

/-- Where a text is cut, there is the first occurrence. -/
theorem of_cutAround?_eq_some (hmark : mark ≠ [])
    (h : cutAround? mark s = some (before, after)) :
    s = before ++ mark ++ after ∧
      ∀ front back, s = front ++ mark ++ back → before.length ≤ front.length := by
  induction s generalizing before with
  | nil =>
    rw [cutAround?, if_neg (by rwa [List.isEmpty_iff])] at h
    cases h
  | cons a rest ih =>
    unfold cutAround? at h
    split at h
    · rename_i hyes
      cases h
      obtain ⟨back, hs⟩ := isPrefixOf_iff.mp hyes
      refine ⟨?_, fun _ _ _ => Nat.zero_le _⟩
      rw [hs, List.nil_append, List.drop_left]
    · rename_i hno
      obtain ⟨⟨front, _⟩, hrest, hcut⟩ := Option.map_eq_some_iff.mp h
      cases hcut
      obtain ⟨hs, hfirst⟩ := ih hrest
      refine ⟨congrArg (a :: ·) hs, fun other back hother => ?_⟩
      cases other with
      | nil => exact absurd (isPrefixOf_iff.mpr ⟨back, hother⟩) hno
      | cons b more => exact Nat.succ_le_succ (hfirst more back (List.cons.inj hother).2)

/-- **A text is cut at the first occurrence** of what it is cut around. -/
theorem cutAround?_eq_some_iff (hmark : mark ≠ []) : cutAround? mark s = some (before, after) ↔
    s = before ++ mark ++ after ∧
      ∀ front back, s = front ++ mark ++ back → before.length ≤ front.length := by
  refine ⟨of_cutAround?_eq_some hmark, fun ⟨hs, hfirst⟩ => ?_⟩
  rcases hcut : cutAround? mark s with _ | ⟨front, back⟩
  · exact absurd hs (of_cutAround?_eq_none hmark hcut before after)
  · -- both are the first occurrence
    obtain ⟨hs', hfirst'⟩ := of_cutAround?_eq_some hmark hcut
    have hlength := Nat.le_antisymm (hfirst front back hs') (hfirst' before after hs)
    obtain ⟨hboth, rfl⟩ := List.append_inj' (hs.symm.trans hs') (by
      have := congrArg List.length (hs.symm.trans hs')
      simp only [List.length_append] at this
      omega)
    rw [(List.append_inj_left' hboth rfl : before = front)]

/-- A text is not cut exactly if what it is cut around does not occur. -/
theorem cutAround?_eq_none_iff (hmark : mark ≠ []) : cutAround? mark s = none ↔
    ∀ front back, s ≠ front ++ mark ++ back := by
  refine ⟨of_cutAround?_eq_none hmark, fun hno => ?_⟩
  rcases hcut : cutAround? mark s with _ | ⟨front, back⟩
  · rfl
  · exact absurd (of_cutAround?_eq_some hmark hcut).1 (hno front back)

end Around

end RangeSync.Text
