import RangeSync.Proofs.Grammar

/-!
# What a descriptor holds

A descriptor keeps its headers twice. There is one value for each key, and a later one takes the
place of an earlier one; and there is the list of all URLs, where nothing is ever replaced. Which
lines a value comes from cannot be seen from the descriptor any more, and that the two agree on the
last URL is nowhere checked.

What carries it is an invariant of the reading, `RangeSync.Descriptor.Holds`: it relates the
descriptor to the row of keys and values that have been read so far, it holds of no headers, and it
is kept when one more is added (`RangeSync.Descriptor.Holds.insert`).

The result is that **a descriptor holds what its header lines say**
(`RangeSync.Descriptor.holds_header_lines`): the last value of each key, taken for a count where it
has to be one and for the text that it is otherwise, and all URLs, of which the last is the one that
is used. The headers are in the order of the bytes of their keys, which is the order of the keys as
texts (`RangeSync.Text.encode_lt_encode`).
-/

namespace RangeSync.Descriptor

open Text

variable {d d' : Descriptor} {bytes : List UInt8} {key key' value : String} {v : HeaderValue}
  {fields front : List (String × String)} {headers : List (String × HeaderValue)}

/-! ### Values -/

/-- **What a value stands for**, given its key: a count, which it spells, or the text itself. -/
inductive Stands (key value : String) : HeaderValue → Prop
  | count {n : Nat} : (key = "Length" ∨ key = "Blocksize") → SpellsCount value.toList n →
      n < UInt64.size → Stands key value (.integer (UInt64.ofNat n))
  | text : ¬ (key = "Length" ∨ key = "Blocksize") → Stands key value (.text value)

/-- A header is added with what its value stands for, and a URL is added to the others. -/
theorem insert_eq_ok (h : d.insert key value = .ok d') : ∃ v, Stands key value v ∧
    d' = { headers := insertHeader key v d.headers
           urls := d.urls ++ if key = "URL" then [value] else [] } := by
  unfold insert at h
  split at h
  · rename_i hcounted
    have hkey := isCounted_iff.mp hcounted
    split at h
    · rename_i n hcount
      cases h
      obtain ⟨hspells, hbound⟩ := count?_trim_eq_some_iff.mp hcount
      refine ⟨_, .count hkey hspells hbound, ?_⟩
      rw [if_neg (by rcases hkey with rfl | rfl <;> decide), List.append_nil]
    · cases h
  · rename_i hcounted
    cases h
    refine ⟨_, .text (mt isCounted_iff.mpr hcounted), ?_⟩
    simp only [beq_iff_eq]
    split
    · rfl
    · rw [List.append_nil]

/-! ### Rows of keys and values -/

/-- All values of a key, in order. -/
def valuesOf (fields : List (String × String)) (key : String) : List String :=
  (fields.filter (·.1 == key)).map Prod.snd

theorem valuesOf_concat (fields : List (String × String)) (key key' value : String) :
    valuesOf (fields ++ [(key, value)]) key' =
      valuesOf fields key' ++ if key = key' then [value] else [] := by
  rw [valuesOf, List.filter_append, List.map_append, List.filter_cons, List.filter_nil]
  simp only [beq_iff_eq]
  split <;> rfl

theorem lastValue?_concat (fields : List (String × String)) (key key' value : String) :
    lastValue? (fields ++ [(key, value)]) key' =
      if key' = key then some value else lastValue? fields key' := by
  rw [lastValue?, List.reverse_append, List.reverse_singleton, List.singleton_append,
    lookup_cons_eq_ite, lastValue?]

/-- The value that was given last is the last of all values. -/
theorem lastValue?_eq_getLast? (fields : List (String × String)) (key : String) :
    lastValue? fields key = (valuesOf fields key).getLast? := by
  have hlookup (rows : List (String × String)) :
      rows.lookup key = ((rows.filter (·.1 == key)).map Prod.snd).head? := by
    induction rows with
    | nil => rfl
    | cons row rows ih =>
      obtain ⟨k, value⟩ := row
      rw [lookup_cons_eq_ite, List.filter_cons, ih]
      simp only [beq_iff_eq, eq_comm (a := key)]
      split <;> rfl
  rw [lastValue?, hlookup, List.filter_reverse, List.map_reverse, List.head?_reverse, valuesOf]

/-- A key without values is not there. -/
theorem lastValue?_eq_none_iff :
    lastValue? fields key = none ↔ key ∉ fields.map Prod.fst := by
  rw [lastValue?_eq_getLast?, List.getLast?_eq_none_iff, valuesOf, List.map_eq_nil_iff,
    List.filter_eq_nil_iff]
  simp only [beq_iff_eq, List.mem_map, not_exists, not_and]

/-- A value is the last one if its key does not come again. -/
theorem lastValue?_of_not_mem {before after : List (String × String)}
    (h : key ∉ after.map Prod.fst) :
    lastValue? (before ++ (key, value) :: after) key = some value := by
  rw [lastValue?, List.reverse_append, List.reverse_cons, List.lookup_append, List.lookup_append,
    ← lastValue?, lastValue?_eq_none_iff.mpr h, Option.none_or, lookup_cons_eq_ite, if_pos rfl]
  rfl

/-! ### The order of the headers -/

/-- The keys are in order, and there is none twice. -/
def IsOrdered (headers : List (String × HeaderValue)) : Prop :=
  headers.Pairwise fun a b => a.1 < b.1

theorem mem_insertHeader {field : String × HeaderValue} (h : field ∈ insertHeader key v headers) :
    field = (key, v) ∨ field ∈ headers := by
  induction headers with
  | nil => exact Or.inl (List.mem_singleton.mp h)
  | cons header rest ih =>
    unfold insertHeader at h
    split at h
    · exact List.mem_cons.mp h
    · split at h
      · exact (List.mem_cons.mp h).imp_right (List.mem_cons_of_mem _)
      · rcases List.mem_cons.mp h with rfl | h
        · exact Or.inr List.mem_cons_self
        · exact (ih h).imp_right (List.mem_cons_of_mem _)

/-- **The order is kept** when a header is added. -/
theorem IsOrdered.insertHeader (h : IsOrdered headers) (key : String) (v : HeaderValue) :
    IsOrdered (insertHeader key v headers) := by
  induction headers with
  | nil => exact List.pairwise_singleton _ _
  | cons header rest ih =>
    obtain ⟨k, u⟩ := header
    obtain ⟨hfirst, hrest⟩ := List.pairwise_cons.mp h
    unfold Descriptor.insertHeader
    split
    · rename_i hlt
      refine List.pairwise_cons.mpr ⟨List.forall_mem_cons.mpr ⟨hlt, fun field hfield => ?_⟩, h⟩
      exact String.lt_trans hlt (hfirst field hfield)
    · rename_i hnot
      split
      · rename_i heq
        exact List.pairwise_cons.mpr ⟨heq ▸ hfirst, hrest⟩
      · rename_i hne
        refine List.pairwise_cons.mpr ⟨fun field hfield => ?_, ih hrest⟩
        rcases mem_insertHeader hfield with rfl | hfield
        · exact Std.lt_of_le_of_ne (String.not_lt.mp hnot) (Ne.symm hne)
        · exact hfirst field hfield

/-- In an ordered list a header is what is found for its key. -/
theorem IsOrdered.mem_iff (h : IsOrdered headers) :
    (key, v) ∈ headers ↔ headers.lookup key = some v := by
  induction headers with
  | nil => exact ⟨nofun, nofun⟩
  | cons header rest ih =>
    obtain ⟨k, u⟩ := header
    obtain ⟨hfirst, hrest⟩ := List.pairwise_cons.mp h
    rw [lookup_cons_eq_ite, List.mem_cons, Prod.mk.injEq, ih hrest]
    by_cases hkey : key = k
    · rw [if_pos hkey]
      refine ⟨?_, fun hv => Or.inl ⟨hkey, (Option.some.inj hv).symm⟩⟩
      rintro (⟨_, rfl⟩ | hlater)
      · rfl
      · -- a later key is not the same
        have hlt := hfirst (key, v) ((ih hrest).mpr hlater)
        exact absurd (hkey ▸ hlt) (String.lt_irrefl k)
    · rw [if_neg hkey]
      exact ⟨fun hv => hv.resolve_left fun heq => hkey heq.1, Or.inr⟩

/-! ### The invariant -/

/-- **The descriptor holds a row of keys and values**: of each key what its last value stands for,
in the order of the keys, and of `URL` all values. -/
structure Holds (d : Descriptor) (fields : List (String × String)) : Prop where
  found : ∀ key, Option.Rel (Stands key) (lastValue? fields key) (d.get? key)
  urls : d.urls = valuesOf fields "URL"
  ordered : IsOrdered d.headers

theorem holds_empty : Holds empty [] where
  found _ := .none
  urls := rfl
  ordered := .nil

/-- **One more header** is held when it has been added. -/
theorem Holds.insert (h : Holds d fields) (hinsert : d.insert key value = .ok d') :
    Holds d' (fields ++ [(key, value)]) := by
  obtain ⟨v, hstands, rfl⟩ := insert_eq_ok hinsert
  constructor
  · intro key'
    rw [lastValue?_concat, get?, lookup_insertHeader]
    split
    · rename_i heq
      exact .some (heq ▸ hstands)
    · exact h.found key'
  · rw [valuesOf_concat, h.urls]
  · exact h.ordered.insertHeader key v

/-- More headers, one after the other, are held behind the others. -/
theorem Holds.insertAll (h : Holds d front) (hall : d.insertAll fields = .ok d') :
    Holds d' (front ++ fields) := by
  induction fields generalizing d front with
  | nil =>
    cases hall
    rwa [List.append_nil]
  | cons field fields ih =>
    obtain ⟨key, value⟩ := field
    unfold Descriptor.insertAll at hall
    split at hall
    · cases hall
    · rename_i d₁ hinsert
      rw [List.append_cons]
      exact ih (h.insert hinsert) hall

/-! ### What is found -/

namespace Holds

variable (h : Holds d fields)
include h

/-- The value of a key that does not come again. -/
theorem get?_of_not_mem {before after : List (String × String)}
    (hfields : fields = before ++ (key, value) :: after) (hlast : key ∉ after.map Prod.fst) :
    ∃ v, d.get? key = some v ∧ Stands key value v := by
  have hfound := h.found key
  rw [hfields, lastValue?_of_not_mem hlast] at hfound
  generalize hget : d.get? key = found at hfound ⊢
  cases hfound with
  | some hstands => exact ⟨_, rfl, hstands⟩

/-- Nothing is found for a key that is not there. -/
theorem get?_eq_none_iff : d.get? key = none ↔ key ∉ fields.map Prod.fst := by
  have hfound := h.found key
  rw [← lastValue?_eq_none_iff]
  generalize lastValue? fields key = last at hfound ⊢
  generalize d.get? key = found at hfound ⊢
  cases hfound with
  | none => exact ⟨fun _ => rfl, fun _ => rfl⟩
  | some _ => exact ⟨nofun, nofun⟩

/-- **The URL is the last of all.** -/
theorem url_eq : d.url =
    match d.urls.getLast? with
    | some url => .ok url
    | none => .error (.missingField "URL") := by
  have hfound := h.found "URL"
  rw [h.urls, ← lastValue?_eq_getLast?, url, text?]
  generalize lastValue? fields "URL" = last at hfound ⊢
  generalize d.get? "URL" = found at hfound ⊢
  cases hfound with
  | none => rfl
  | some hstands =>
    cases hstands with
    | count hcounted => exact absurd hcounted (by decide)
    | text => rfl

/-- **There is a length** if and only if a line gives it. -/
theorem length_eq_error_iff {error : DescriptorError} :
    d.length = .error error ↔
      error = .missingField "Length" ∧ "Length" ∉ fields.map Prod.fst := by
  have hfound := h.found "Length"
  rw [← lastValue?_eq_none_iff, length, integer?]
  generalize lastValue? fields "Length" = last at hfound ⊢
  generalize d.get? "Length" = found at hfound ⊢
  cases hfound with
  | none => exact ⟨fun herror => ⟨(Except.error.inj herror).symm, rfl⟩, fun herror => by
      rw [herror.1]; rfl⟩
  | some hstands =>
    cases hstands with
    | count => exact ⟨nofun, nofun⟩
    | text hcounted => exact absurd (Or.inl rfl) hcounted

/-- The headers are in the order of the bytes of their keys. -/
theorem pairwise_encode : d.headers.Pairwise fun a b => encode a.1 < encode b.1 :=
  h.ordered.imp encode_lt_encode

end Holds

/-! ### The main result -/

/-- **A descriptor holds what its header lines say.**

It is read from a section of header lines. Of every key it has the value of the last line with that
key, and nothing if there is none. The value is a count for the two keys that count, and the text
that it is for all others. All values of `URL` are there in order, and the last of them is the URL;
without one there is no URL, and without a line for it there is no length. The headers list each key
once, in the order of their bytes. -/
theorem holds_header_lines {rest : List UInt8} (h : read bytes = .ok (d, rest)) :
    (∃ good fields blank, HasSection bytes good fields blank rest) ∧
    ∀ good fields blank, HasSection bytes good fields blank rest →
      (∀ before key value after, fields = before ++ (key, value) :: after →
        key ∉ after.map Prod.fst → ∃ v, d.get? key = some v ∧ Stands key value v) ∧
      (∀ key, d.get? key = none ↔ key ∉ fields.map Prod.fst) ∧
      d.urls = valuesOf fields "URL" ∧
      d.url = (match d.urls.getLast? with
        | some url => .ok url
        | none => .error (.missingField "URL")) ∧
      (∀ error, d.length = .error error ↔
        error = .missingField "Length" ∧ "Length" ∉ fields.map Prod.fst) ∧
      (∀ key v, (key, v) ∈ d.headers ↔ d.get? key = some v) ∧
      d.headers.Pairwise fun a b => encode a.1 < encode b.1 := by
  constructor
  · cases read_eq_iff.mp h with
    | whole hsection _ _ => exact ⟨_, _, _, hsection⟩
  · intro good fields blank hsection
    have hholds : Holds d fields := by
      obtain ⟨d', hall, hread⟩ := hsection.read
      rw [h] at hread
      split at hread
      · cases hread
      · cases hread
        exact holds_empty.insertAll hall
    exact ⟨fun _ _ _ _ => hholds.get?_of_not_mem, fun _ => hholds.get?_eq_none_iff, hholds.urls,
      hholds.url_eq, fun _ => hholds.length_eq_error_iff, fun _ _ => hholds.ordered.mem_iff,
      hholds.pairwise_encode⟩

/-- A descriptor with two lengths and two URLs, of which the second has a separator in it, and with
binary data behind it: the last of each counts, and both URLs are kept. -/
theorem holds_header_lines_repeated :
    ∃ d, read (writtenAll [("URL", "a"), ("Length", "5"), ("URL", "b: c"), ("Length", "+7")] [0xFF]) =
        .ok (d, [0xFF]) ∧
      (∃ v, d.get? "Length" = some v ∧ Stands "Length" "+7" v) ∧ d.get? "zsync" = none ∧
      d.urls = ["a", "b: c"] ∧ d.url = .ok "b: c" ∧
      d.headers.Pairwise fun a b => encode a.1 < encode b.1 := by
  have hplain : ∀ field ∈ [("URL", "a"), ("Length", "5"), ("URL", "b: c"), ("Length", "+7")],
      IsPlain field.1 field.2 := by
    simp only [List.forall_mem_cons]
    exact ⟨isPlain_ofList (by decide), isPlain_ofList (by decide), isPlain_ofList (by decide),
      isPlain_ofList (by decide), List.forall_mem_nil _⟩
  have hall : empty.insertAll [("URL", "a"), ("Length", "5"), ("URL", "b: c"), ("Length", "+7")] =
      .ok ⟨[("Length", .integer 7), ("URL", .text "b: c")], ["a", "b: c"]⟩ := rfl
  have hread := read_writtenAll hplain hall (by decide) [0xFF]
  obtain ⟨hget, hnone, _, hurl, _, _, hordered⟩ :=
    (holds_header_lines hread).2 _ _ _ (hasSection_writtenAll hplain hall [0xFF])
  exact ⟨_, hread, hget [("URL", "a"), ("Length", "5"), ("URL", "b: c")] "Length" "+7" [] rfl
    List.not_mem_nil, (hnone "zsync").mpr (by decide), rfl, hurl, hordered⟩

end RangeSync.Descriptor
