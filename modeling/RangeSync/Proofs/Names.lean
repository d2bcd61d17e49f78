import RangeSync.Idna.Name
import RangeSync.Proofs.Punycode
import RangeSync.Proofs.Results

/-!
# Names in ASCII stay as they are

The host of a URL is printed in the ASCII form of its name, and whoever reads the URL again brings
that form into ASCII once more. The whole point is that nothing changes the second time
(`RangeSync.Idna.toAscii?_self`): the characters of the form are settled, since those of the labels
are and the digits of Punycode are; ASCII is composed as it stands; and each label is read as the
same label, shown in the same way, so the rule for directions decides alike.
-/

namespace RangeSync.Idna

open Text Punycode

variable {c : Char} {s label : List Char} {l : Label} {name out : String}

/-! ### Characters -/

theorem mapped_of_isBasic (h : isBasic c = true) : mapped c = some [c.toLower] := by
  rw [isBasic, decide_eq_true_iff] at h
  exact if_pos h

theorem composed_of_isBasic (h : ∀ c ∈ s, isBasic c = true) : composed s = s :=
  if_pos (List.all_eq_true.mpr h)

/-- The character may stand in the ASCII form of a name, apart from what no name can hold. -/
structure IsPlain (c : Char) : Prop where
  isBasic : isBasic c = true
  isSettled : isSettled c = true

theorem isPlain_iff : IsPlain c ↔ c.toNat < 128 ∧ c.toLower = c := by
  constructor
  · rintro ⟨hbasic, hsettled⟩
    refine ⟨of_decide_eq_true hbasic, ?_⟩
    rw [isSettled, mapped_of_isBasic hbasic] at hsettled
    simpa using hsettled
  · rintro ⟨hlt, hlower⟩
    have hbasic : Punycode.isBasic c = true := decide_eq_true hlt
    refine ⟨hbasic, ?_⟩
    rw [isSettled, mapped_of_isBasic hbasic, hlower]
    exact beq_self_eq_true _

instance : Decidable (IsPlain c) :=
  decidable_of_iff _ isPlain_iff.symm

theorem Punycode.IsDigit.isPlain (h : IsDigit c) : IsPlain c ∧ c ≠ '.' := by
  obtain ⟨v, hv, rfl⟩ := h
  have hall : ∀ v < 36, IsPlain (digit v) ∧ digit v ≠ '.' := by decide
  exact hall v hv

theorem isPlain_acePrefix (h : c ∈ acePrefix) : IsPlain c ∧ c ≠ '.' := by
  simp only [acePrefix, List.mem_cons, List.not_mem_nil, or_false] at h
  rcases h with rfl | rfl | rfl | rfl <;> decide

/-! ### Labels -/

/-- Labels in ASCII that the mapping leaves as they are are not composed either. -/
theorem isStable_of_isPlain (h : ∀ c ∈ s, IsPlain c) : isStable s = true := by
  rw [isStable, composed_of_isBasic fun c hc => (h c hc).isBasic, beq_self_eq_true, Bool.and_true]
  exact List.all_eq_true.mpr fun c hc => (h c hc).isSettled

theorem isStable_iff : isStable s = true ↔ (∀ c ∈ s, isSettled c = true) ∧ composed s = s := by
  rw [isStable, Bool.and_eq_true, List.all_eq_true, beq_iff_eq]

/-- The form of a label beyond ASCII consists of plain characters. -/
theorem isPlain_of_encode? {ascii : List Char} (hencode : encode? s = some ascii)
    (hstable : isStable s = true) (hdot : '.' ∉ s) :
    ∀ c ∈ acePrefix ++ ascii, IsPlain c ∧ c ≠ '.' := by
  intro c hc
  rcases List.mem_append.mp hc with hc | hc
  · exact isPlain_acePrefix hc
  · rcases (decode?_of_encode? hencode).2 c hc with ⟨hmem, hbasic⟩ | rfl | hdigit
    · refine ⟨⟨hbasic, (isStable_iff.mp hstable).1 c hmem⟩, ?_⟩
      rintro rfl
      exact hdot hmem
    · exact ⟨by decide, by decide⟩
    · exact hdigit.isPlain

/-- The form of a label beyond ASCII is a label that stands for it. -/
theorem label?_acePrefix_append {ascii : List Char} (hencode : encode? s = some ascii)
    (hplain : ∀ c ∈ acePrefix ++ ascii, IsPlain c) (hstable : isStable s = true)
    (hbasic : s.all isBasic = false) (hsound : isSound s = true) :
    label? (acePrefix ++ ascii) = some ⟨acePrefix ++ ascii, s⟩ := by
  have hall : (acePrefix ++ ascii).all isBasic = true :=
    List.all_eq_true.mpr fun c hc => (hplain c hc).isBasic
  have hprefix : acePrefix.isPrefixOf (acePrefix ++ ascii) = true :=
    List.isPrefixOf_iff_prefix.mpr (List.prefix_append _ _)
  rw [label?, isStable_of_isPlain hplain, hprefix, hall, List.drop_left,
    (decode?_of_encode? hencode).1]
  simp only [hbasic, hstable, hsound, Bool.not_true, Bool.not_false, Bool.and_self, if_true,
    Bool.false_eq_true, if_false]

/-- A label in ASCII is its own form, and any other label is encoded. -/
theorem label?_cases (h : label? s = some l) : isStable s = true ∧
    (s.all isBasic = true ∧ l.ascii = s ∨
      s.all isBasic = false ∧ isSound s = true ∧
        ∃ ascii, encode? s = some ascii ∧ l = ⟨acePrefix ++ ascii, s⟩) := by
  unfold label? at h
  split at h
  · cases h
  · rename_i hstable
    refine ⟨by simpa using hstable, ?_⟩
    split at h
    · -- The label stands for another one, which has to be what its digits spell.
      split at h
      · rename_i hbasic
        split at h
        · split at h
          · cases h
            exact .inl ⟨hbasic, rfl⟩
          · cases h
        · cases h
      · cases h
    · split at h
      · rename_i hbasic
        cases h
        exact .inl ⟨hbasic, rfl⟩
      · rename_i hbasic
        split at h
        · rename_i hsound
          obtain ⟨ascii, hencode, rfl⟩ := Option.map_eq_some_iff.mp h
          exact .inr ⟨Bool.not_eq_true _ ▸ hbasic, hsound, ascii, hencode, rfl⟩
        · cases h

/-- **The ASCII form of a label is a label in the same two forms.** -/
theorem label?_ascii (h : label? s = some l) (hdot : '.' ∉ s) :
    label? l.ascii = some l ∧ ∀ c ∈ l.ascii, IsPlain c ∧ c ≠ '.' := by
  obtain ⟨hstable, ⟨hbasic, hascii⟩ | ⟨hbasic, hsound, ascii, hencode, rfl⟩⟩ := label?_cases h
  · rw [hascii]
    refine ⟨h, fun c hc => ⟨⟨List.all_eq_true.mp hbasic c hc, ?_⟩, ?_⟩⟩
    · exact (isStable_iff.mp hstable).1 c hc
    · rintro rfl
      exact hdot hc
  · have hform := isPlain_of_encode? hencode hstable hdot
    have hplain : ∀ c ∈ acePrefix ++ ascii, IsPlain c := fun c hc => (hform c hc).1
    exact ⟨label?_acePrefix_append hencode hplain hstable hbasic hsound, hform⟩

/-! ### Names -/

/-- A text of plain characters is mapped and composed to itself. -/
theorem mapM_mapped_of_isPlain (h : ∀ c ∈ s, IsPlain c) :
    s.mapM mapped = some (s.map ([·])) ∧ composed (s.map ([·])).flatten = s := by
  constructor
  · rw [mapM_eq_some_iff, List.map_map]
    exact List.map_congr_left fun c hc => eq_of_beq (h c hc).isSettled
  · rw [← List.flatMap_def, List.flatMap_singleton']
    exact composed_of_isBasic fun c hc => (h c hc).isBasic

/-- **The ASCII form of a name is a name whose ASCII form it is.** It has no capitals, and nothing
that a name cannot hold. -/
theorem toAscii?_self (h : toAscii? name = some out) :
    toAscii? out = some out ∧ ∀ c ∈ out.toList, IsPlain c ∧ isForbidden c = false := by
  obtain ⟨chars, -, h⟩ := Option.bind_eq_some_iff.mp h
  obtain ⟨labels, hlabels, h⟩ := Option.bind_eq_some_iff.mp h
  rw [mapM_eq_some_iff] at hlabels
  simp only at h
  have hforms : ∀ l ∈ labels,
      label? l.ascii = some l ∧ ∀ c ∈ l.ascii, IsPlain c ∧ c ≠ '.' := by
    intro l hl
    have hmem := hlabels ▸ List.mem_map_of_mem hl
    obtain ⟨part, hpart, hlabel⟩ := List.mem_map.mp hmem
    exact label?_ascii hlabel (not_mem_of_mem_fields hpart)
  have hne : labels.map (·.ascii) ≠ [] := by
    intro hnil
    rw [List.map_eq_nil_iff.mp hnil, List.map_nil, List.map_eq_nil_iff] at hlabels
    exact fields_ne_nil _ _ hlabels
  have hfields := fields_joined hne fun part hpart hdot => by
    obtain ⟨l, hl, rfl⟩ := List.mem_map.mp hpart
    exact ((hforms l hl).2 '.' hdot).2 rfl
  have hplain : ∀ c ∈ joined '.' (labels.map (·.ascii)), IsPlain c := by
    intro c hc
    rcases mem_joined hc with rfl | ⟨part, hpart, hc⟩
    · decide
    · obtain ⟨l, hl, rfl⟩ := List.mem_map.mp hpart
      exact ((hforms l hl).2 c hc).1
  -- Everything is the same the second time, up to the two checks on all labels.
  have hagain : (labels.map (·.ascii)).mapM label? = some labels := by
    rw [mapM_eq_some_iff, List.map_map]
    exact List.map_congr_left fun l hl => (hforms l hl).1
  obtain ⟨hmapped, hcomposed⟩ := mapM_mapped_of_isPlain hplain
  split at h
  · cases h
  · rename_i hdirections
    split at h
    · cases h
    · rename_i hforbidden
      obtain rfl := Option.some.inj h
      constructor
      · rw [toAscii?, String.toList_ofList, hmapped]
        simp only [Option.bind_eq_bind, Option.bind_some, hcomposed, hfields, hagain,
          if_neg hdirections, if_neg hforbidden]
      · rw [String.toList_ofList]
        intro c hc
        refine ⟨hplain c hc, eq_false_of_ne_true fun hc' => hforbidden ?_⟩
        exact List.any_eq_true.mpr ⟨c, hc, hc'⟩

end RangeSync.Idna
