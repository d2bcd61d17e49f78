/-!
# Blank characters and trimming

A character is *blank* when it has the Unicode property `White_Space`. User input (byte sizes,
durations, header values) is read without the blanks around it; the set is larger than the six
blanks of ASCII, and trimming has to know all of it.

Trimming is stated over any test on characters, because the header reader strips a smaller set
(line ends and spaces) with the same operation.
-/

namespace RangeSync.Text

/-- The characters with the Unicode property `White_Space`. -/
def isBlank (c : Char) : Bool :=
  let n := c.toNat
  (9 ≤ n && n ≤ 13) || n == 0x20 || n == 0x85 || n == 0xA0 || n == 0x1680 ||
    (0x2000 ≤ n && n ≤ 0x200A) || n == 0x2028 || n == 0x2029 || n == 0x202F ||
    n == 0x205F || n == 0x3000

/-- Drop the longest run of elements at the end that satisfy `p`. -/
def dropEndWhile {α : Type} (p : α → Bool) : List α → List α
  | [] => []
  | a :: rest =>
    match dropEndWhile p rest with
    | [] => if p a then [] else [a]
    | kept => a :: kept

/-- Drop the blanks before the text. -/
def trimStart (s : List Char) : List Char :=
  s.dropWhile isBlank

/-- Drop the blanks on both sides of the text. -/
def trim (s : List Char) : List Char :=
  dropEndWhile isBlank (trimStart s)

/-- Text without the blanks around it. -/
def trimmed (s : String) : String :=
  String.ofList (trim s.toList)

/-- The longest runs of characters that are not blank, in order. -/
def words (s : List Char) : List (List Char) :=
  match _split : s.dropWhile isBlank with
  | [] => []
  | c :: rest =>
    (c :: rest.takeWhile (!isBlank ·)) :: words (rest.dropWhile (!isBlank ·))
termination_by s.length
decreasing_by
  have h1 : (s.dropWhile isBlank).length ≤ s.length := (List.dropWhile_suffix _).length_le
  have h2 : (rest.dropWhile (!isBlank ·)).length ≤ rest.length :=
    (List.dropWhile_suffix _).length_le
  rw [_split, List.length_cons] at h1
  omega

/-- The letters `A` to `Z` in lower case, every other character as it is. -/
def lowered (s : List Char) : List Char :=
  s.map Char.toLower

@[simp] theorem dropEndWhile_nil {α : Type} (p : α → Bool) : dropEndWhile p [] = [] := rfl

/-- What is left is a beginning of the text. -/
theorem eq_dropEndWhile_append {α : Type} (p : α → Bool) (s : List α) :
    ∃ dropped, s = dropEndWhile p s ++ dropped ∧ ∀ a ∈ dropped, p a = true := by
  induction s with
  | nil => exact ⟨[], rfl, by simp⟩
  | cons a rest ih =>
    obtain ⟨dropped, hsplit, hall⟩ := ih
    cases hkept : dropEndWhile p rest with
    | nil =>
      rw [hkept, List.nil_append] at hsplit
      by_cases ha : p a = true
      · refine ⟨a :: dropped, ?_, ?_⟩
        · simp [dropEndWhile, hkept, ha, ← hsplit]
        · intro b hb
          cases List.mem_cons.mp hb with
          | inl h => exact h ▸ ha
          | inr h => exact hall b h
      · exact ⟨dropped, by simp [dropEndWhile, hkept, ha, ← hsplit], hall⟩
    | cons b kept =>
      refine ⟨dropped, ?_, hall⟩
      have h : dropEndWhile p (a :: rest) = a :: dropEndWhile p rest := by
        simp only [dropEndWhile, hkept]
      rw [h, List.cons_append, ← hsplit]

/-- What is left does not end in an element that satisfies `p`. -/
theorem getLast?_dropEndWhile {α : Type} (p : α → Bool) (s : List α) :
    ∀ a, (dropEndWhile p s).getLast? = some a → p a = false := by
  induction s with
  | nil => intro a h; simp at h
  | cons b rest ih =>
    intro a h
    cases hkept : dropEndWhile p rest with
    | nil =>
      by_cases hb : p b = true
      · simp [dropEndWhile, hkept, hb] at h
      · simp [dropEndWhile, hkept, hb] at h
        simp [← h, hb]
    | cons c kept =>
      refine ih a ?_
      simp only [dropEndWhile, hkept, List.getLast?_cons_cons] at h
      rw [hkept]
      exact h

/-- **What is left when the end is dropped**: the text up to the last element that does not satisfy
`p`. -/
theorem dropEndWhile_eq_iff {α : Type} {p : α → Bool} {s kept : List α} :
    dropEndWhile p s = kept ↔
      ∃ dropped, s = kept ++ dropped ∧ (∀ a ∈ dropped, p a = true) ∧
        ∀ a, kept.getLast? = some a → p a = false := by
  constructor
  · rintro rfl
    obtain ⟨dropped, hs, hall⟩ := eq_dropEndWhile_append p s
    exact ⟨dropped, hs, hall, getLast?_dropEndWhile p s⟩
  · rintro ⟨dropped, rfl, hall, hlast⟩
    have hnil : dropEndWhile p dropped = [] := by
      induction dropped with
      | nil => rfl
      | cons a rest ih =>
        rw [dropEndWhile, ih fun b hb => hall b (.tail _ hb)]
        exact if_pos (hall a (.head _))
    induction kept with
    | nil => exact hnil
    | cons a rest ih =>
      rw [List.cons_append, dropEndWhile]
      cases rest with
      | nil =>
        rw [List.nil_append, hnil]
        exact if_neg (by rw [hlast a rfl]; exact Bool.false_ne_true)
      | cons b more =>
        rw [ih fun c hc => hlast c (by rw [List.getLast?_cons_cons]; exact hc)]

/-- What is left of a text when the blanks around it are dropped. -/
theorem trim_eq {middle before after : List Char} (hbefore : ∀ c ∈ before, isBlank c = true)
    (hafter : ∀ c ∈ after, isBlank c = true)
    (hfirst : ∀ c, middle.head? = some c → isBlank c = false)
    (hlast : ∀ c, middle.getLast? = some c → isBlank c = false) (hne : middle ≠ []) :
    trim (before ++ middle ++ after) = middle := by
  obtain ⟨first, rest, rfl⟩ := List.exists_cons_of_ne_nil hne
  have hstart : trimStart (before ++ (first :: rest) ++ after) = first :: rest ++ after := by
    rw [trimStart, List.append_assoc, List.dropWhile_append_of_pos hbefore, List.cons_append,
      List.dropWhile_cons_of_neg (by rw [hfirst first rfl]; exact Bool.false_ne_true)]
  rw [trim, hstart]
  exact dropEndWhile_eq_iff.mpr ⟨after, rfl, hafter, hlast⟩

/-- A text that neither begins nor ends with a blank is left as it is. -/
theorem trim_eq_self {s : List Char} (hfirst : ∀ c, s.head? = some c → isBlank c = false)
    (hlast : ∀ c, s.getLast? = some c → isBlank c = false) : trim s = s := by
  by_cases hnil : s = []
  · rw [hnil]
    rfl
  · have heq : trim ([] ++ s ++ []) = s := trim_eq nofun nofun hfirst hlast hnil
    rwa [List.nil_append, List.append_nil] at heq

/-- Trimming once is enough. -/
theorem trim_trim (s : List Char) : trim (trim s) = trim s := by
  refine trim_eq_self (fun c hc => ?_) (getLast?_dropEndWhile isBlank (trimStart s))
  obtain ⟨dropped, hstart, _⟩ := eq_dropEndWhile_append isBlank (trimStart s)
  have hfirst := List.head?_dropWhile_not isBlank s
  rw [show s.dropWhile isBlank = trim s ++ dropped from hstart, List.head?_append, hc] at hfirst
  exact hfirst

/-- Trimming drops blanks only. -/
theorem mem_trim_or_isBlank {s : List Char} {c : Char} (h : c ∈ s) :
    c ∈ trim s ∨ isBlank c = true := by
  obtain ⟨dropped, hstart, hdropped⟩ := eq_dropEndWhile_append isBlank (trimStart s)
  rw [← List.takeWhile_append_dropWhile (p := isBlank) (l := s), List.mem_append] at h
  rcases h with h | h
  · exact Or.inr (List.all_eq_true.mp List.all_takeWhile c h)
  · rw [show s.dropWhile isBlank = trim s ++ dropped from hstart, List.mem_append] at h
    exact h.imp id (hdropped c)

theorem mem_of_mem_trim {s : List Char} {c : Char} (h : c ∈ trim s) : c ∈ s := by
  obtain ⟨dropped, hstart, _⟩ := eq_dropEndWhile_append isBlank (trimStart s)
  refine (List.dropWhile_suffix isBlank).mem ?_
  rw [show s.dropWhile isBlank = trim s ++ dropped from hstart]
  exact List.mem_append_left _ h

/-! ### Lower case -/

/-- Only the letters `A` to `Z` change. -/
theorem toLower_cases (c : Char) : c.toLower = c ∨
    (65 ≤ c.toNat ∧ c.toNat ≤ 90) ∧ c.toLower.toNat = c.toNat + 32 := by
  unfold Char.toLower
  split
  · rename_i h
    refine Or.inr ⟨h, ?_⟩
    have hval : c.val.toNat ≤ 90 := h.2
    show (c.val + 32).toNat = c.val.toNat + 32
    rw [UInt32.toNat_add]
    exact Nat.mod_eq_of_lt (show c.val.toNat + 32 < 4294967296 by omega)
  · exact Or.inl rfl

theorem isBlank_toLower (c : Char) : isBlank c.toLower = isBlank c := by
  rcases toLower_cases c with h | ⟨⟨hlow, hhigh⟩, h⟩
  · rw [h]
  · simp only [isBlank, h]
    grind

theorem lowered_eq_self {s : List Char} (h : ∀ c ∈ s, c.toLower = c) : lowered s = s :=
  (List.map_congr_left h).trans (List.map_id' s)

/-- A text that was trimmed does not end in a blank, in lower case neither. -/
theorem getLast?_lowered_trim (s : List Char) :
    ∀ c, (lowered (trim s)).getLast? = some c → isBlank c = false := by
  intro c h
  rw [lowered, List.getLast?_map, Option.map_eq_some_iff] at h
  obtain ⟨b, hb, rfl⟩ := h
  rw [isBlank_toLower]
  exact getLast?_dropEndWhile isBlank (trimStart s) b hb

end RangeSync.Text
