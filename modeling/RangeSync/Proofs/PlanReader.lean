import RangeSync.Proofs.HeaderLines
import RangeSync.Proofs.SkippedValues

/-!
# How a plan is read

A plan is read in one pass, and what is left behind it has to be blank. The blanks around a plan are
not always the same: a text that is read as it is may have those of JSON around it, while what a
program prints is trimmed first, with all the blanks that there are.

That **trimming changes nothing** (`RangeSync.readWhole_trim`) is not a matter of what the reader
skips. The end of the text is another one afterwards, so the plan has to be closed by a mark, and
the mark must not be blank itself. `RangeSync.readPlan_closed` says both, for the list of values and
for the object; for the object the fields are read one by one, each of them local, and the value of a
field that a plan does not have is anything.
-/

namespace RangeSync

open Text Json

variable {s t rest : List Char} {p : Plan} {f f' : PlanFields} {key : String}

/-! ### The parts of a plan -/

theorem readReuse_eq_ok_iff {r : ReuseRange} :
    readReuse s = .ok (r, rest) ↔ readTuple 3 s = .ok (r.counts, rest) := by
  unfold readReuse
  rw [bind_eq_ok_iff]
  constructor
  · rintro ⟨⟨counts, t⟩, htuple, h⟩
    dsimp only at h
    split at h
    · cases h
      exact htuple
    · cases h
  · intro h
    exact ⟨_, h, rfl⟩

theorem readDownload_eq_ok_iff {d : DownloadRange} :
    readDownload s = .ok (d, rest) ↔ readTuple 2 s = .ok (d.counts, rest) := by
  unfold readDownload
  rw [bind_eq_ok_iff]
  constructor
  · rintro ⟨⟨counts, t⟩, htuple, h⟩
    dsimp only at h
    split at h
    · cases h
      exact htuple
    · cases h
  · intro h
    exact ⟨_, h, rfl⟩

theorem readReuse_closed (r : ReuseRange) : Closed ']' readReuse (r, ·) := by
  intro s rest h
  obtain ⟨used, hs, hused⟩ := readTuple_closed 3 r.counts s rest (readReuse_eq_ok_iff.mp h)
  exact ⟨used, hs, fun rest' => readReuse_eq_ok_iff.mpr (hused rest')⟩

theorem readDownload_closed (d : DownloadRange) : Closed ']' readDownload (d, ·) := by
  intro s rest h
  obtain ⟨used, hs, hused⟩ := readTuple_closed 2 d.counts s rest (readDownload_eq_ok_iff.mp h)
  exact ⟨used, hs, fun rest' => readDownload_eq_ok_iff.mpr (hused rest')⟩

theorem readColon_eq_ok_iff : readColon s = .ok rest ↔ skipGap s = ':' :: rest := by
  unfold readColon failAfter
  split
  · simp_all
  · rename_i t hskip
    rw [hskip, Except.ok.injEq, List.cons.injEq]
    exact (and_iff_right rfl).symm
  · rename_i h
    exact iff_of_false nofun (h rest)

theorem failDuplicate_ne_ok {α : Type} {name : String} {a : α} :
    (failDuplicate name s : Except Fault α) ≠ .ok a := by
  unfold failDuplicate
  split <;> exact nofun

/-- **The value of a field**, or of any other key, behind its colon. -/
inductive PlanFields.Takes (f : PlanFields) (t rest : List Char) : String → PlanFields → Prop
  | length {n : Option UInt64} : f.length = none → readOptionalCount t = .ok (n, rest) →
      f.Takes t rest "length" { f with length := some n }
  | reuse {ranges : List ReuseRange} : f.reuse = none → readList readReuse t = .ok (ranges, rest) →
      f.Takes t rest "reuse" { f with reuse := some ranges }
  | download {ranges : List DownloadRange} : f.download = none →
      readList readDownload t = .ok (ranges, rest) →
      f.Takes t rest "download" { f with download := some ranges }
  | other {key : String} : key ≠ "length" → key ≠ "reuse" → key ≠ "download" →
      skipValue t = .ok rest → f.Takes t rest key f

/-- A field is read exactly if it takes the value behind the colon. -/
theorem PlanFields.readField_eq_ok_iff : f.readField key s = .ok (f', rest) ↔
    ∃ t, skipGap s = ':' :: t ∧ f.Takes t rest key f' := by
  unfold readField
  constructor
  · intro h
    split at h
    · split at h
      · exact absurd h failDuplicate_ne_ok
      · rename_i hnone
        obtain ⟨t, hcolon, h⟩ := bind_eq_ok_iff.mp h
        obtain ⟨⟨n, t'⟩, hn, h⟩ := bind_eq_ok_iff.mp h
        cases h
        refine ⟨t, readColon_eq_ok_iff.mp hcolon, .length ?_ hn⟩
        exact Option.not_isSome_iff_eq_none.mp hnone
    · split at h
      · exact absurd h failDuplicate_ne_ok
      · rename_i hnone
        obtain ⟨t, hcolon, h⟩ := bind_eq_ok_iff.mp h
        obtain ⟨⟨n, t'⟩, hn, h⟩ := bind_eq_ok_iff.mp h
        cases h
        refine ⟨t, readColon_eq_ok_iff.mp hcolon, .reuse ?_ hn⟩
        exact Option.not_isSome_iff_eq_none.mp hnone
    · split at h
      · exact absurd h failDuplicate_ne_ok
      · rename_i hnone
        obtain ⟨t, hcolon, h⟩ := bind_eq_ok_iff.mp h
        obtain ⟨⟨n, t'⟩, hn, h⟩ := bind_eq_ok_iff.mp h
        cases h
        refine ⟨t, readColon_eq_ok_iff.mp hcolon, .download ?_ hn⟩
        exact Option.not_isSome_iff_eq_none.mp hnone
    · rename_i hlength hreuse hdownload
      obtain ⟨t, hcolon, h⟩ := bind_eq_ok_iff.mp h
      obtain ⟨t', ht', h⟩ := bind_eq_ok_iff.mp h
      cases h
      exact ⟨t, readColon_eq_ok_iff.mp hcolon, .other hlength hreuse hdownload ht'⟩
  · rintro ⟨t, hcolon, htakes⟩
    have hcolon := readColon_eq_ok_iff.mpr hcolon
    cases htakes with
    | length hnone hn =>
      dsimp only
      rw [if_neg (by simp [hnone])]
      exact bind_eq_ok_iff.mpr ⟨t, hcolon, bind_eq_ok_iff.mpr ⟨_, hn, rfl⟩⟩
    | reuse hnone hn =>
      refine (if_neg (by simp [hnone])).trans ?_
      exact bind_eq_ok_iff.mpr ⟨t, hcolon, bind_eq_ok_iff.mpr ⟨_, hn, rfl⟩⟩
    | download hnone hn =>
      refine (if_neg (by simp [hnone])).trans ?_
      exact bind_eq_ok_iff.mpr ⟨t, hcolon, bind_eq_ok_iff.mpr ⟨_, hn, rfl⟩⟩
    | other hlength hreuse hdownload hn =>
      split
      · exact absurd rfl hlength
      · exact absurd rfl hreuse
      · exact absurd rfl hdownload
      · exact bind_eq_ok_iff.mpr ⟨t, hcolon, bind_eq_ok_iff.mpr ⟨_, hn, rfl⟩⟩

theorem PlanFields.Takes.local (h : f.Takes t rest key f') : ∃ used, t = used ++ rest ∧
    ∀ rest', Alike rest rest' → f.Takes (used ++ rest') rest' key f' := by
  cases h with
  | length hnone hn =>
    obtain ⟨used, ht, hused⟩ := readOptionalCount_local _ t rest hn
    exact ⟨used, ht, fun rest' halike => .length hnone (hused rest' halike)⟩
  | reuse hnone hn =>
    obtain ⟨used, ht, hused⟩ := (readList_closed readReuse_closed _).free t rest hn
    exact ⟨used, ht, fun rest' _ => .reuse hnone (hused rest')⟩
  | download hnone hn =>
    obtain ⟨used, ht, hused⟩ := (readList_closed readDownload_closed _).free t rest hn
    exact ⟨used, ht, fun rest' _ => .download hnone (hused rest')⟩
  | other hlength hreuse hdownload hn =>
    obtain ⟨used, ht, hused⟩ := skipValue_local t rest hn
    exact ⟨used, ht, fun rest' halike => .other hlength hreuse hdownload (hused rest' halike)⟩

theorem PlanFields.readField_local (f' : PlanFields) : Local (f.readField key) (f', ·) := by
  intro s rest h
  obtain ⟨t, hcolon, htakes⟩ := readField_eq_ok_iff.mp h
  obtain ⟨gap, rfl, -, hgap⟩ := exists_gap hcolon
  obtain ⟨used, rfl, hused⟩ := htakes.local
  refine ⟨gap ++ ':' :: used, by simp, fun rest' halike => ?_⟩
  refine readField_eq_ok_iff.mpr ⟨used ++ rest', ?_, hused rest' halike⟩
  rw [List.append_assoc]
  exact hgap _ (alike_cons _ _ _)

/-- The next key begins. Only the first one has no comma. -/
def BeginsKey (isFirst : Bool) (s rest : List Char) : Prop :=
  (isFirst = true ∧ skipGap s = '"' :: rest) ∨
    (isFirst = false ∧ ∃ t, skipGap s = ',' :: t ∧ skipGap t = '"' :: rest)

theorem nextKey_eq_ok_iff {isFirst : Bool} {key : Option (List Char)} :
    nextKey isFirst s = .ok (key, rest) ↔
      (key = none ∧ skipGap s = '\x7d' :: rest) ∨ (key = some rest ∧ BeginsKey isFirst s rest) := by
  unfold nextKey failAfter
  constructor
  · intro h
    split at h
    · cases h
    · rename_i hskip
      cases h
      exact .inl ⟨rfl, hskip⟩
    · rename_i c t hend hskip
      split at h
      · rename_i hfirst
        split at h
        · rename_i hquote
          cases h
          exact .inr ⟨rfl, .inl ⟨hfirst, hquote ▸ hskip⟩⟩
        · cases h
      · rename_i hfirst
        split at h
        · rename_i hcomma
          split at h
          · cases h
          · rename_i hquote
            cases h
            exact .inr ⟨rfl, .inr ⟨Bool.eq_false_iff.mpr hfirst, t, hcomma ▸ hskip, hquote⟩⟩
          · cases h
          · cases h
        · cases h
  · rintro (⟨rfl, hskip⟩ | ⟨rfl, ⟨rfl, hskip⟩ | ⟨rfl, t, hcomma, hskip⟩⟩)
    · rw [hskip]
      rfl
    · rw [hskip]
      rfl
    · rw [hcomma]
      split
      · rename_i heq
        cases heq
      · rename_i heq
        cases heq
      · rename_i heq
        cases heq
        rw [if_neg Bool.false_ne_true, if_pos rfl, hskip]
        rfl

/-- The fields of an object: none more, or one with those of the rest. -/
theorem PlanFields.readAll_eq_ok_iff {fuel : Nat} {isFirst : Bool} :
    readAll (fuel + 1) isFirst f s = .ok (f', rest) ↔
      (f' = f ∧ skipGap s = '\x7d' :: rest) ∨
        ∃ t, BeginsKey isFirst s t ∧ ∃ key t', readString t = .ok (key, t') ∧
          ∃ f₁ t'', f.readField key t' = .ok (f₁, t'') ∧
            readAll fuel false f₁ t'' = .ok (f', rest) := by
  rw [readAll, bind_eq_ok_iff]
  constructor
  · rintro ⟨⟨key, t⟩, hkey, h⟩
    obtain ⟨rfl, hend⟩ | ⟨rfl, hbegins⟩ := nextKey_eq_ok_iff.mp hkey
    · cases h
      exact .inl ⟨rfl, hend⟩
    · obtain ⟨⟨key, t'⟩, hstring, h⟩ := bind_eq_ok_iff.mp h
      obtain ⟨⟨f₁, t''⟩, hfield, h⟩ := bind_eq_ok_iff.mp h
      exact .inr ⟨_, hbegins, key, t', hstring, f₁, t'', hfield, h⟩
  · rintro (⟨rfl, hend⟩ | ⟨t, hbegins, key, t', hstring, f₁, t'', hfield, h⟩)
    · exact ⟨_, nextKey_eq_ok_iff.mpr (.inl ⟨rfl, hend⟩), rfl⟩
    · exact ⟨_, nextKey_eq_ok_iff.mpr (.inr ⟨rfl, hbegins⟩),
        bind_eq_ok_iff.mpr ⟨_, hstring, bind_eq_ok_iff.mpr ⟨_, hfield, h⟩⟩⟩

theorem BeginsKey.exists_mark {isFirst : Bool} (h : BeginsKey isFirst s rest) :
    ∃ used, s = used ++ '"' :: rest ∧ ∀ rest', BeginsKey isFirst (used ++ '"' :: rest') rest' := by
  obtain ⟨hfirst, hskip⟩ | ⟨hfirst, t, hcomma, hskip⟩ := h
  · obtain ⟨gap, rfl, -, hgap⟩ := exists_gap hskip
    exact ⟨gap, rfl, fun rest' => .inl ⟨hfirst, hgap _ (alike_cons _ _ _)⟩⟩
  · obtain ⟨gap, rfl, -, hgap⟩ := exists_gap hcomma
    obtain ⟨gap', rfl, -, hgap'⟩ := exists_gap hskip
    refine ⟨gap ++ ',' :: gap', by simp, fun rest' => .inr ⟨hfirst, gap' ++ '"' :: rest', ?_, ?_⟩⟩
    · rw [List.append_assoc]
      exact hgap _ (alike_cons _ _ _)
    · exact hgap' _ (alike_cons _ _ _)

theorem PlanFields.readAll_closed {fuel : Nat} {isFirst : Bool}
    (h : readAll fuel isFirst f s = .ok (f', rest)) : ∃ used, s = used ++ '\x7d' :: rest ∧
      ∀ rest' fuel', used.length < fuel' →
        readAll fuel' isFirst f (used ++ '\x7d' :: rest') = .ok (f', rest') := by
  induction fuel generalizing isFirst f s with
  | zero => cases h
  | succ fuel ih =>
    obtain ⟨rfl, hend⟩ | ⟨t, hbegins, key, t', hstring, f₁, t'', hfield, hmore⟩ :=
      readAll_eq_ok_iff.mp h
    · obtain ⟨gap, rfl, -, hgap⟩ := exists_gap hend
      refine ⟨gap, rfl, fun rest' fuel' hlt => ?_⟩
      obtain ⟨n, rfl⟩ := Nat.exists_eq_add_one.mpr (Nat.zero_lt_of_lt hlt)
      exact readAll_eq_ok_iff.mpr (.inl ⟨rfl, hgap _ (alike_cons _ _ _)⟩)
    · obtain ⟨used₁, rfl, hused₁⟩ := hbegins.exists_mark
      obtain ⟨used₂, rfl, hused₂⟩ := readString_closed key t t' hstring
      obtain ⟨used₃, rfl, hused₃⟩ := readField_local f₁ t' t'' hfield
      obtain ⟨used₄, rfl, hused₄⟩ := ih hmore
      refine ⟨used₁ ++ '"' :: (used₂ ++ '"' :: (used₃ ++ used₄)), by simp,
        fun rest' fuel' hlt => ?_⟩
      obtain ⟨n, rfl⟩ := Nat.exists_eq_add_one.mpr (Nat.zero_lt_of_lt hlt)
      simp only [List.append_assoc, List.cons_append]
      refine readAll_eq_ok_iff.mpr (.inr ⟨_, hused₁ _, key, _, hused₂ _, f₁, _,
        hused₃ _ ((alike_cons _ _ _).append used₄), hused₄ rest' n ?_⟩)
      simp only [List.length_append, List.length_cons] at hlt
      omega

/-! ### Plans -/

theorem closeList_with_closed (p q : Plan) :
    Closed ']' (fun s => closeList s >>= fun s => .ok (p, s)) (q, ·) := by
  intro s rest h
  obtain ⟨t, hclose, h⟩ := bind_eq_ok_iff.mp h
  cases h
  obtain ⟨used, hs, hused⟩ := closeList_closed s rest hclose
  exact ⟨used, hs, fun rest' => bind_eq_ok_iff.mpr ⟨_, hused rest', rfl⟩⟩

/-- A list of values is closed: every value is local, and the bracket comes last. -/
theorem readPlanList_closed (p : Plan) : Closed ']' readPlanList (p, ·) := by
  have hpick {α : Type} {r : Reader α} (s : List Char) (b : α × List Char) (_ : r s = .ok b) :
      ∃ a rest, b = (a, rest) := ⟨b.1, b.2, rfl⟩
  refine Closed.bind hpick (nextElement_local true) fun more => ?_
  cases more with
  | false => exact closeList_with_closed _ p
  | true =>
    refine Closed.bind hpick readOptionalCount_local fun length => ?_
    refine Closed.bind hpick (nextElement_local false) fun more => ?_
    cases more with
    | false => exact closeList_with_closed _ p
    | true =>
      refine Closed.bind hpick (fun ranges => (readList_closed readReuse_closed ranges).free.local)
        fun reuse => ?_
      refine Closed.bind hpick (nextElement_local false) fun more => ?_
      cases more with
      | false => exact closeList_with_closed _ p
      | true =>
        exact Closed.bind hpick
          (fun ranges => (readList_closed readDownload_closed ranges).free.local)
          fun download => closeList_with_closed _ p

/-- A plan is a list of values or an object. -/
theorem readPlan_eq_ok_iff : readPlan s = .ok (p, rest) ↔
    (∃ t, skipGap s = '[' :: t ∧ readPlanList t = .ok (p, rest)) ∨
      ∃ t, skipGap s = '\x7b' :: t ∧ ∃ f,
        PlanFields.readAll (t.length + 1) true .blank t = .ok (f, rest) ∧ f.plan = p := by
  unfold readPlan
  split
  · rename_i hskip
    simp [failAfter, hskip]
  · rename_i t hskip
    simp [hskip]
  · rename_i t hskip
    rw [hskip, bind_eq_ok_iff, Prod.exists]
    constructor
    · rintro ⟨f, t', hf, h⟩
      cases h
      exact .inr ⟨t, rfl, f, hf, rfl⟩
    · rintro (⟨_, heq, _⟩ | ⟨_, heq, f, hf, rfl⟩)
      · cases heq
      · cases heq
        exact ⟨f, rest, hf, rfl⟩
  · rename_i hlist hobject
    refine iff_of_false failExpected_ne_ok ?_
    rintro (⟨t, ht, -⟩ | ⟨t, ht, -⟩)
    · exact hlist t ht
    · exact hobject t ht

/-- **A plan is closed**, by a bracket or by a brace, and it begins behind the blanks. -/
theorem readPlan_closed (h : readPlan s = .ok (p, rest)) : ∃ gap first used last,
    s = gap ++ first :: (used ++ last :: rest) ∧ (∀ c ∈ gap, isGap c = true) ∧
      isBlank first = false ∧ isBlank last = false ∧
      ∀ rest', readPlan (first :: (used ++ last :: rest')) = .ok (p, rest') := by
  obtain ⟨t, hskip, ht⟩ | ⟨t, hskip, f, ht, rfl⟩ := readPlan_eq_ok_iff.mp h
  · obtain ⟨gap, rfl, hgap, -⟩ := exists_gap hskip
    obtain ⟨used, rfl, hused⟩ := readPlanList_closed p t rest ht
    refine ⟨gap, '[', used, ']', rfl, hgap, by decide, by decide, fun rest' => ?_⟩
    exact readPlan_eq_ok_iff.mpr (.inl ⟨_, skipGap_cons (by decide), hused rest'⟩)
  · obtain ⟨gap, rfl, hgap, -⟩ := exists_gap hskip
    obtain ⟨used, rfl, hused⟩ := PlanFields.readAll_closed ht
    refine ⟨gap, '\x7b', used, '\x7d', rfl, hgap, by decide, by decide, fun rest' => ?_⟩
    refine readPlan_eq_ok_iff.mpr (.inr ⟨_, skipGap_cons (by decide), f, hused rest' _ ?_, rfl⟩)
    rw [List.length_append]
    omega

theorem readWhole_eq_ok_iff : readWhole s = .ok p ↔
    ∃ rest, readPlan s = .ok (p, rest) ∧ ∀ c ∈ rest, isGap c = true := by
  unfold readWhole
  rw [bind_eq_ok_iff, Prod.exists, exists_comm]
  refine exists_congr fun rest => ?_
  rw [← skipGap_eq_nil_iff]
  constructor
  · rintro ⟨q, hq, h⟩
    dsimp only at h
    split at h
    · rename_i hnil
      cases h
      exact ⟨hq, hnil⟩
    · cases h
  · rintro ⟨hp, hnil⟩
    refine ⟨p, hp, ?_⟩
    dsimp only
    rw [hnil]

theorem isBlank_of_isGap {c : Char} (h : isGap c = true) : isBlank c = true := by
  unfold isGap at h
  simp only [Bool.or_eq_true, beq_iff_eq] at h
  obtain ((rfl | rfl) | rfl) | rfl := h <;> decide

/-- **The blanks around a plan do not matter**, and those of JSON are blanks. -/
theorem readWhole_trim (h : readWhole s = .ok p) : readWhole (trim s) = .ok p := by
  obtain ⟨rest, hplan, hrest⟩ := readWhole_eq_ok_iff.mp h
  obtain ⟨gap, first, used, last, rfl, hgap, hfirst, hlast, hused⟩ := readPlan_closed hplan
  have htrim : trim (gap ++ first :: (used ++ last :: rest)) = first :: (used ++ [last]) := by
    have heq : gap ++ first :: (used ++ last :: rest) =
        gap ++ (first :: (used ++ [last])) ++ rest := by simp
    rw [heq]
    refine trim_eq (fun c hc => isBlank_of_isGap (hgap c hc))
      (fun c hc => isBlank_of_isGap (hrest c hc)) (fun c hc => Option.some.inj hc ▸ hfirst)
      (fun c hc => ?_) (List.cons_ne_nil _ _)
    rw [← List.cons_append, List.getLast?_concat] at hc
    exact Option.some.inj hc ▸ hlast
  rw [htrim]
  exact readWhole_eq_ok_iff.mpr ⟨[], hused [], nofun⟩

theorem Plan.ofJson_eq_ok_iff {text : String} : Plan.ofJson text = .ok p ↔
    readWhole text.toList = .ok p := by
  unfold ofJson
  split
  · rename_i h
    rw [h, Except.ok.injEq, Except.ok.injEq]
  · rename_i h
    rw [h]
    exact iff_of_false nofun nofun

end RangeSync
