import RangeSync.Proofs.JsonReaders

/-!
# Values that are passed over

A value of a key that a plan does not know can be anything, and is passed over without being read:
its numbers may be of any size, and its lists and objects of any depth. Passing over it is local all
the same (`RangeSync.Json.skipValue_local`), and this is what the stack of open frames makes hard to
see: every round of the loop begins a value, closes frames, and passes over a key, and any of the
three may be the last thing that happens.
-/

namespace RangeSync.Json

open Text

variable {s t rest : List Char} {c : Char}

/-! ### Numbers -/

/-- Passing over a run is local: the run ends where the next character is no part of it. -/
theorem dropWhile_local (p : Char → Bool) : Local (fun s => .ok (s.dropWhile p)) id := by
  intro s rest h
  obtain rfl : s.dropWhile p = rest := Except.ok.inj h
  refine ⟨s.takeWhile p, List.takeWhile_append_dropWhile.symm, fun rest' halike => ?_⟩
  obtain ⟨c, more, more', heq, rfl⟩ := halike
  have hc := List.head?_dropWhile_not p s
  rw [heq] at hc
  have hall : ∀ d ∈ s.takeWhile p, p d = true := fun d hd =>
    List.all_eq_true.mp List.all_takeWhile d hd
  dsimp only [id]
  rw [List.dropWhile_append_of_pos hall, List.dropWhile_cons_of_neg (by simpa using hc)]

/-- A power of ten has a sign or none, and a digit at least. -/
theorem skipPower_eq_ok_iff (hc : c = 'e' ∨ c = 'E') : skipNumber.skipPower (c :: s) = .ok rest ↔
    ∃ sign d more, s = sign ++ d :: more ∧ (sign = [] ∨ sign = ['+'] ∨ sign = ['-']) ∧
      isDigit d = true ∧ more.dropWhile isDigit = rest := by
  unfold skipNumber.skipPower failAfter
  dsimp only
  rw [if_pos hc]
  constructor
  · intro h
    split at h
    · cases h
    · rename_i d more heq
      split at h
      · rename_i hd
        have hrest := Except.ok.inj h
        split at heq
        · exact ⟨['+'], d, more, congrArg _ heq, .inr (.inl rfl), hd, hrest⟩
        · exact ⟨['-'], d, more, congrArg _ heq, .inr (.inr rfl), hd, hrest⟩
        · exact ⟨[], d, more, heq, .inl rfl, hd, hrest⟩
      · cases h
  · rintro ⟨sign, d, more, rfl, rfl | rfl | rfl, hd, rfl⟩
    · rw [List.nil_append]
      split
      · rename_i heq
        split at heq
        · rename_i heq'
          cases heq'
          exact absurd hd (by decide)
        · rename_i heq'
          cases heq'
          exact absurd hd (by decide)
        · cases heq
      · rename_i heq
        split at heq
        · rename_i heq'
          cases heq'
          exact absurd hd (by decide)
        · rename_i heq'
          cases heq'
          exact absurd hd (by decide)
        · cases heq
          exact if_pos hd
    · exact if_pos hd
    · exact if_pos hd

theorem skipPower_local : Local skipNumber.skipPower id := by
  intro s rest h
  cases s with
  | nil =>
    cases Except.ok.inj h
    exact ⟨[], rfl, fun rest' ⟨_, _, _, heq, _⟩ => nomatch heq⟩
  | cons c s =>
    by_cases hc : c = 'e' ∨ c = 'E'
    · obtain ⟨sign, d, more, rfl, hsign, hd, rfl⟩ := (skipPower_eq_ok_iff hc).mp h
      obtain ⟨used, hmore, hused⟩ := dropWhile_local isDigit more _ rfl
      refine ⟨c :: (sign ++ d :: used), ?_, fun rest' halike => ?_⟩
      · rw [List.cons_append, List.append_assoc, List.cons_append]
        exact congrArg (fun more => c :: (sign ++ d :: more)) hmore
      · refine (skipPower_eq_ok_iff hc).mpr ⟨sign, d, used ++ rest', by simp, hsign, hd, ?_⟩
        exact Except.ok.inj (hused rest' halike)
    · have hrest (s : List Char) : skipNumber.skipPower (c :: s) = .ok (c :: s) := by
        unfold skipNumber.skipPower
        exact if_neg hc
      obtain rfl := Except.ok.inj ((hrest s).symm.trans h)
      refine ⟨[], rfl, ?_⟩
      rintro _ ⟨_, _, s', heq, rfl⟩
      cases heq
      exact hrest s'

/-- Digits that may be followed by a power of ten. -/
theorem skipPower_digits_local :
    Local (fun s => skipNumber.skipPower (s.dropWhile isDigit)) id :=
  Local.bind (fun _ b _ => ⟨(), b, rfl⟩) (fun _ => dropWhile_local isDigit)
    fun _ => skipPower_local

theorem skipPlaces_eq_ok_iff : skipNumber.skipPlaces s = .ok rest ↔
    (∃ d more, s = '.' :: d :: more ∧ isDigit d = true ∧
      skipNumber.skipPower (more.dropWhile isDigit) = .ok rest) ∨
    ((∀ t, s ≠ '.' :: t) ∧ skipNumber.skipPower s = .ok rest) := by
  unfold skipNumber.skipPlaces
  split
  · rename_i t
    constructor
    · intro h
      split at h
      · cases h
      · rename_i d more
        split at h
        · rename_i hd
          rw [List.dropWhile_cons_of_pos hd] at h
          exact .inl ⟨d, more, rfl, hd, h⟩
        · cases h
    · rintro (⟨d, more, heq, hd, h⟩ | ⟨h, -⟩)
      · cases heq
        dsimp only
        rw [if_pos hd, List.dropWhile_cons_of_pos hd]
        exact h
      · exact absurd rfl (h t)
  · rename_i hpoint
    constructor
    · exact fun h => .inr ⟨hpoint, h⟩
    · rintro (⟨d, more, heq, -⟩ | ⟨-, h⟩)
      · exact absurd heq (hpoint _)
      · exact h

theorem skipPlaces_local : Local skipNumber.skipPlaces id := by
  intro s rest h
  obtain ⟨d, more, rfl, hd, h⟩ | ⟨hpoint, h⟩ := skipPlaces_eq_ok_iff.mp h
  · obtain ⟨used, rfl, hused⟩ := skipPower_digits_local more rest h
    exact ⟨'.' :: d :: used, rfl, fun rest' halike =>
      skipPlaces_eq_ok_iff.mpr (.inl ⟨d, _, rfl, hd, hused rest' halike⟩)⟩
  · obtain ⟨used, rfl, hused⟩ := skipPower_local s rest h
    refine ⟨used, rfl, fun rest' halike => ?_⟩
    refine skipPlaces_eq_ok_iff.mpr (.inr ⟨fun t heq => ?_, hused rest' halike⟩)
    obtain ⟨c, more, more', heq', heq''⟩ := halike.append used
    rw [heq] at heq''
    cases heq''
    exact hpoint _ heq'

/-- A number begins with a digit, and no zero stands in front of another one. -/
theorem skipNumber_eq_ok_iff : skipNumber s = .ok rest ↔ ∃ c t, s = c :: t ∧ isDigit c = true ∧
    ((c = '0' ∧ (∀ d ∈ t.head?, isDigit d = false) ∧ skipNumber.skipPlaces t = .ok rest) ∨
      (c ≠ '0' ∧ skipNumber.skipPlaces (t.dropWhile isDigit) = .ok rest)) := by
  unfold skipNumber failAfter
  cases s with
  | nil => exact iff_of_false (fun h => by cases h) nofun
  | cons c t =>
    dsimp only
    constructor
    · intro h
      split at h
      · cases h
      · rename_i hc
        rw [Bool.not_eq_true', Bool.not_eq_false] at hc
        refine ⟨c, t, rfl, hc, ?_⟩
        split at h
        · rename_i hzero
          split at h
          · split at h
            · cases h
            · rename_i hd
              exact .inl ⟨hzero, fun e he => Option.some.inj he ▸ Bool.eq_false_iff.mpr hd, h⟩
          · exact .inl ⟨hzero, nofun, h⟩
        · rename_i hzero
          exact .inr ⟨hzero, h⟩
    · rintro ⟨_, _, heq, hc, ⟨rfl, hd, h⟩ | ⟨hzero, h⟩⟩
      · cases heq
        rw [hc, if_neg (by decide), if_pos rfl]
        split
        · rename_i d _
          rw [hd d rfl]
          exact h
        · exact h
      · cases heq
        rw [hc, if_neg (by decide), if_neg hzero]
        exact h

theorem skipNumber_local (h : skipNumber s = .ok rest) : ∃ used, used ≠ [] ∧ s = used ++ rest ∧
    ∀ rest', Alike rest rest' → skipNumber (used ++ rest') = .ok rest' := by
  obtain ⟨c, t, rfl, hc, ⟨hzero, hd, h⟩ | ⟨hzero, h⟩⟩ := skipNumber_eq_ok_iff.mp h
  · obtain ⟨used, rfl, hused⟩ := skipPlaces_local t rest h
    refine ⟨c :: used, nofun, rfl, fun rest' halike => ?_⟩
    refine skipNumber_eq_ok_iff.mpr ⟨c, _, rfl, hc, .inl ⟨hzero, ?_, hused rest' halike⟩⟩
    obtain ⟨d, more, more', heq, heq'⟩ := halike.append used
    rw [heq] at hd
    rw [show used.append rest' = d :: more' from heq']
    exact hd
  · have hlocal : Local (fun s => skipNumber.skipPlaces (s.dropWhile isDigit)) id :=
      Local.bind (fun _ b _ => ⟨(), b, rfl⟩) (fun _ => dropWhile_local isDigit)
        fun _ => skipPlaces_local
    obtain ⟨used, rfl, hused⟩ := hlocal t rest h
    exact ⟨c :: used, nofun, rfl, fun rest' halike =>
      skipNumber_eq_ok_iff.mpr ⟨c, _, rfl, hc, .inr ⟨hzero, hused rest' halike⟩⟩⟩

theorem skipStart_digit (hc : isDigit c = true) :
    skipStart (c :: s) = (skipNumber (c :: s)).map (none, ·) := by
  unfold skipStart
  rw [skipGap_cons (not_isGap_of_isDigit hc)]
  split <;> rename_i heq <;> cases heq
  all_goals first | exact absurd hc (by decide) | exact if_pos hc

/-- What begins a value takes up a character at least. -/
theorem skipStart_local {opened : Option Frame} (h : skipStart s = .ok (opened, rest)) :
    ∃ used, used ≠ [] ∧ s = used ++ rest ∧
      ∀ rest', Alike rest rest' → skipStart (used ++ rest') = .ok (opened, rest') := by
  have hskip (s : List Char) : skipStart s = skipStart (skipGap s) := by
    unfold skipStart
    rw [skipGap_skipGap]
  rcases hs : skipGap s with _ | ⟨c, t⟩
  · rw [hskip, hs] at h
    cases h
  suffices hbehind : ∃ used, t = used ++ rest ∧
      ∀ rest', Alike rest rest' → skipStart (c :: (used ++ rest')) = .ok (opened, rest') by
    obtain ⟨gap, rfl, -, hgap⟩ := exists_gap hs
    obtain ⟨used, rfl, hused⟩ := hbehind
    refine ⟨gap ++ c :: used, by simp, by simp, fun rest' halike => ?_⟩
    rw [hskip, List.append_assoc, List.cons_append, hgap _ (alike_cons c _ _)]
    exact hused rest' halike
  have hname {name rest : List Char} (h : (readName name t).map ((none : Option Frame), ·) =
      .ok (opened, rest)) : opened = none ∧ t = name ++ rest := by
    obtain ⟨t', ht', h⟩ := map_eq_ok_iff.mp h
    cases h
    exact ⟨rfl, readName_eq_ok_iff.mp ht'⟩
  have hprint (name rest' : List Char) : (readName name (name ++ rest')).map
      ((none : Option Frame), ·) = .ok (none, rest') :=
    map_eq_ok_iff.mpr ⟨rest', readName_eq_ok_iff.mpr rfl, rfl⟩
  unfold skipStart at h
  rw [hs] at h
  split at h
  · cases h
  · rename_i heq
    cases heq
    obtain ⟨rfl, ht⟩ := hname h
    exact ⟨_, ht, fun rest' _ => hprint ['u', 'l', 'l'] rest'⟩
  · rename_i heq
    cases heq
    obtain ⟨rfl, ht⟩ := hname h
    exact ⟨_, ht, fun rest' _ => hprint ['r', 'u', 'e'] rest'⟩
  · rename_i heq
    cases heq
    obtain ⟨rfl, ht⟩ := hname h
    exact ⟨_, ht, fun rest' _ => hprint ['a', 'l', 's', 'e'] rest'⟩
  · rename_i heq
    cases heq
    obtain ⟨t', ht', h⟩ := map_eq_ok_iff.mp h
    cases h
    obtain ⟨used, -, ht, hused⟩ := skipNumber_local ht'
    exact ⟨used, ht, fun rest' halike => map_eq_ok_iff.mpr ⟨_, hused rest' halike, rfl⟩⟩
  · rename_i heq
    cases heq
    obtain ⟨t', ht', h⟩ := map_eq_ok_iff.mp h
    cases h
    obtain ⟨used, ht, hused⟩ := skipString_closed.free _ _ ht'
    exact ⟨used, ht, fun rest' _ => map_eq_ok_iff.mpr ⟨_, hused rest', rfl⟩⟩
  · rename_i heq
    cases heq
    cases h
    exact ⟨[], rfl, fun rest' _ => rfl⟩
  · rename_i heq
    cases heq
    cases h
    exact ⟨[], rfl, fun rest' _ => rfl⟩
  · rename_i heq
    cases heq
    split at h
    · rename_i hc
      obtain ⟨t', ht', h⟩ := map_eq_ok_iff.mp h
      cases h
      obtain ⟨used, hne, ht, hused⟩ := skipNumber_local ht'
      obtain ⟨d, used, rfl⟩ := List.exists_cons_of_ne_nil hne
      obtain ⟨rfl, rfl⟩ := List.cons.inj ht
      refine ⟨used, rfl, fun rest' halike => ?_⟩
      rw [skipStart_digit hc]
      exact map_eq_ok_iff.mpr ⟨_, hused rest' halike, rfl⟩
    · cases h

/-- The bracket closes the frame. -/
def Frame.ClosedBy (frame : Frame) (c : Char) : Prop :=
  (c = ']' ∧ frame = .list) ∨ (c = '\x7d' ∧ frame = .object)

section Frames

variable {afterValue : Bool} {frame : Frame} {outer frames : List Frame}
  {opened : Option (Frame × List Frame)} {fuel : Nat}

/-- Behind a value there is a comma or a bracket; where a frame has just begun, there is a bracket
or something else. A bracket closes the frame, and the frame around it goes on behind a value. -/
theorem skipClosing_eq_ok_iff : skipClosing afterValue frame outer s = .ok (opened, rest) ↔
    ∃ c t, skipGap s = c :: t ∧
      ((c = ',' ∧ afterValue = true ∧ opened = some (frame, outer) ∧ rest = t) ∨
        (frame.ClosedBy c ∧ outer = [] ∧ opened = none ∧ rest = t) ∨
        (frame.ClosedBy c ∧ ∃ next more, outer = next :: more ∧
          skipClosing true next more t = .ok (opened, rest)) ∨
        (¬ frame.ClosedBy c ∧ afterValue = false ∧ opened = some (frame, outer) ∧
          rest = c :: t)) := by
  have hcomma : ¬ frame.ClosedBy ',' := by
    rintro (⟨h, -⟩ | ⟨h, -⟩) <;> exact absurd h (by decide)
  constructor
  · intro h
    rw [skipClosing.eq_def] at h
    split at h
    · cases h
    · rename_i c t hskip
      refine ⟨c, t, hskip, ?_⟩
      split at h
      · rename_i hc
        cases h
        exact .inl ⟨hc.1, hc.2, rfl, rfl⟩
      · split at h
        · rename_i hclosed
          split at h
          · cases h
            exact .inr (.inl ⟨hclosed, rfl, rfl, rfl⟩)
          · exact .inr (.inr (.inl ⟨hclosed, _, _, rfl, h⟩))
        · rename_i hopen
          split at h
          · cases h
          · rename_i hvalue
            cases h
            exact .inr (.inr (.inr ⟨hopen, Bool.eq_false_iff.mpr hvalue, rfl, rfl⟩))
  · rintro ⟨c, t, hskip, hcases⟩
    rw [skipClosing.eq_def, hskip]
    dsimp only
    by_cases hc : c = ',' ∧ afterValue = true
    · rw [if_pos hc]
      obtain ⟨-, -, rfl, rfl⟩ | ⟨hclosed, -⟩ | ⟨hclosed, -⟩ | ⟨-, hvalue, -⟩ := hcases
      · rfl
      · exact absurd (hc.1 ▸ hclosed) hcomma
      · exact absurd (hc.1 ▸ hclosed) hcomma
      · exact absurd (hc.2.symm.trans hvalue) (by decide)
    · rw [if_neg hc]
      obtain ⟨hc', hvalue, -⟩ | ⟨hclosed, rfl, rfl, rfl⟩ | ⟨hclosed, next, more, rfl, h⟩ |
        ⟨hopen, rfl, rfl, rfl⟩ := hcases
      · exact absurd ⟨hc', hvalue⟩ hc
      · exact if_pos hclosed
      · exact (if_pos hclosed).trans h
      · exact if_neg hopen

theorem skipClosing_local (opened : Option (Frame × List Frame)) :
    Local (skipClosing afterValue frame outer) (opened, ·) := by
  -- the frame around this one is the only one that may be reached
  have hstep {afterValue : Bool} {frame : Frame} {outer : List Frame}
      (hinner : ∀ next more, outer = next :: more →
        Local (skipClosing true next more) (opened, ·)) :
      Local (skipClosing afterValue frame outer) (opened, ·) := by
    intro s rest h
    obtain ⟨c, t, hskip, hcases⟩ := skipClosing_eq_ok_iff.mp h
    obtain ⟨gap, rfl, -, hgap⟩ := exists_gap hskip
    have hmark (t' : List Char) : skipGap (gap ++ c :: t') = c :: t' := hgap _ (alike_cons c t t')
    obtain ⟨hc, hvalue, hopened, rfl⟩ | ⟨hclosed, hnone, hopened, rfl⟩ |
      ⟨hclosed, next, more, hmore, h⟩ | ⟨hopen, hvalue, hopened, rfl⟩ := hcases
    · exact ⟨gap ++ [c], by simp, fun rest' _ => skipClosing_eq_ok_iff.mpr
        ⟨c, rest', by simpa using hmark rest', .inl ⟨hc, hvalue, hopened, rfl⟩⟩⟩
    · exact ⟨gap ++ [c], by simp, fun rest' _ => skipClosing_eq_ok_iff.mpr
        ⟨c, rest', by simpa using hmark rest', .inr (.inl ⟨hclosed, hnone, hopened, rfl⟩)⟩⟩
    · obtain ⟨used, rfl, hused⟩ := hinner next more hmore t rest h
      exact ⟨gap ++ c :: used, by simp, fun rest' halike => skipClosing_eq_ok_iff.mpr
        ⟨c, used ++ rest', by simpa using hmark (used ++ rest'),
          .inr (.inr (.inl ⟨hclosed, next, more, hmore, hused rest' halike⟩))⟩⟩
    · refine ⟨gap, rfl, ?_⟩
      rintro _ ⟨_, _, t', heq, rfl⟩
      cases heq
      exact skipClosing_eq_ok_iff.mpr
        ⟨c, t', hmark t', .inr (.inr (.inr ⟨hopen, hvalue, hopened, rfl⟩))⟩
  induction outer generalizing afterValue frame with
  | nil => exact hstep nofun
  | cons next outer ih =>
    refine hstep fun next' more heq => ?_
    cases heq
    exact ih

/-- A key is a string with a colon behind it. -/
theorem skipKey_eq_ok_iff : skipKey s = .ok rest ↔ ∃ t, skipGap s = '"' :: t ∧
    ∃ t', skipString t = .ok t' ∧ skipGap t' = ':' :: rest := by
  unfold skipKey failAfter
  split
  · simp_all
  · rename_i t hskip
    rw [hskip]
    constructor
    · intro h
      obtain ⟨t', ht', h⟩ := bind_eq_ok_iff.mp h
      split at h
      · cases h
      · rename_i heq
        cases h
        exact ⟨t, rfl, t', ht', heq⟩
      · cases h
    · rintro ⟨t, heq, t', ht', hcolon⟩
      cases heq
      refine bind_eq_ok_iff.mpr ⟨t', ht', ?_⟩
      rw [hcolon]
      rfl
  · rename_i h
    exact iff_of_false nofun fun ⟨t, ht, _⟩ => h t ht

theorem skipKey_closed : Closed ':' skipKey id := by
  intro s rest h
  obtain ⟨t, hskip, t', ht', hcolon⟩ := skipKey_eq_ok_iff.mp h
  obtain ⟨gap, rfl, -, hgap⟩ := exists_gap hskip
  obtain ⟨used, rfl, hused⟩ := skipString_closed t t' ht'
  obtain ⟨gap', rfl, -, hgap'⟩ := exists_gap hcolon
  refine ⟨gap ++ '"' :: (used ++ '"' :: gap'), by simp, fun rest' => ?_⟩
  refine skipKey_eq_ok_iff.mpr ⟨used ++ '"' :: (gap' ++ ':' :: rest'), ?_, gap' ++ ':' :: rest',
    hused _, hgap' _ (alike_cons _ _ _)⟩
  have hmark := hgap _ (alike_cons '"' _ (used ++ '"' :: (gap' ++ ':' :: rest')))
  simpa using hmark

/-- A value is passed over with everything up to the end of the outermost frame. -/
theorem skipNested_eq_ok_iff : skipNested (fuel + 1) frames s = .ok rest ↔
    ∃ begun t, skipStart s = .ok (begun, t) ∧
      ((begun.toList ++ frames = [] ∧ t = rest) ∨
        ∃ frame outer opened t', begun.toList ++ frames = frame :: outer ∧
          skipClosing begun.isNone frame outer t = .ok (opened, t') ∧
          ((opened = none ∧ t' = rest) ∨
            (∃ more, opened = some (.list, more) ∧
              skipNested fuel (.list :: more) t' = .ok rest) ∨
            ∃ more t'', opened = some (.object, more) ∧ skipKey t' = .ok t'' ∧
              skipNested fuel (.object :: more) t'' = .ok rest)) := by
  rw [skipNested, bind_eq_ok_iff, Prod.exists]
  refine exists_congr fun begun => exists_congr fun t => and_congr_right fun _ => ?_
  dsimp only
  rcases hstack : begun.toList ++ frames with _ | ⟨frame, outer⟩
  · obtain ⟨hbegun, rfl⟩ := List.append_eq_nil_iff.mp hstack
    obtain rfl := Option.toList_eq_nil_iff.mp hbegun
    simp
  · split
    · rename_i heq
      have hnil : [] = frame :: outer := by cases begun <;> exact heq.symm.trans hstack
      cases hnil
    · rename_i frame' outer' heq
      obtain ⟨rfl, rfl⟩ : frame = frame' ∧ outer = outer' := by
        cases begun <;> exact List.cons.inj (hstack.symm.trans heq)
      rw [bind_eq_ok_iff, Prod.exists]
      constructor
      · rintro ⟨opened, t', hclosing, h⟩
        refine .inr ⟨frame, outer, opened, t', rfl, hclosing, ?_⟩
        obtain _ | ⟨_ | _, more⟩ := opened
        · exact .inl ⟨rfl, Except.ok.inj h⟩
        · exact .inr (.inl ⟨more, rfl, h⟩)
        · obtain ⟨t'', hkey, h⟩ := bind_eq_ok_iff.mp h
          exact .inr (.inr ⟨more, t'', rfl, hkey, h⟩)
      · rintro (⟨hnil, -⟩ | ⟨_, _, opened, t', heq, hclosing, h⟩)
        · cases hnil
        · cases heq
          refine ⟨opened, t', hclosing, ?_⟩
          obtain ⟨rfl, rfl⟩ | ⟨more, rfl, h⟩ | ⟨more, t'', rfl, hkey, h⟩ := h
          · rfl
          · exact h
          · exact bind_eq_ok_iff.mpr ⟨t'', hkey, h⟩

/-- Every round takes up a character, so the fuel only has to last for what is taken up. -/
theorem skipNested_local (h : skipNested fuel frames s = .ok rest) :
    ∃ used, used ≠ [] ∧ s = used ++ rest ∧ ∀ rest' fuel', Alike rest rest' →
      used.length ≤ fuel' → skipNested fuel' frames (used ++ rest') = .ok rest' := by
  have hfuel {n : Nat} {used tail : List Char} (hne : used ≠ [])
      (hle : (used ++ tail).length ≤ n) : ∃ m, n = m + 1 ∧ tail.length ≤ m := by
    have hpos := List.length_pos_iff.mpr hne
    rw [List.length_append] at hle
    exact ⟨n - 1, by omega, by omega⟩
  induction fuel generalizing frames s with
  | zero => cases h
  | succ fuel ih =>
    obtain ⟨begun, t, hstart, hcases⟩ := skipNested_eq_ok_iff.mp h
    obtain ⟨used, hne, rfl, hused⟩ := skipStart_local hstart
    obtain ⟨hnil, rfl⟩ | ⟨frame, outer, opened, t', hstack, hclosing, hcases⟩ := hcases
    · refine ⟨used, hne, rfl, fun rest' fuel' halike hle => ?_⟩
      have hpos := List.length_pos_iff.mpr hne
      obtain ⟨n, rfl⟩ := Nat.exists_eq_add_one.mpr (Nat.lt_of_lt_of_le hpos hle)
      exact skipNested_eq_ok_iff.mpr ⟨begun, rest', hused rest' halike, .inl ⟨hnil, rfl⟩⟩
    obtain ⟨used', rfl, hused'⟩ := skipClosing_local opened t t' hclosing
    obtain ⟨rfl, rfl⟩ | ⟨more, rfl, hmore⟩ | ⟨more, t'', rfl, hkey, hmore⟩ := hcases
    · refine ⟨used ++ used', by simp [hne], by simp, fun rest' fuel' halike hle => ?_⟩
      obtain ⟨n, rfl, -⟩ := hfuel hne hle
      rw [List.append_assoc]
      exact skipNested_eq_ok_iff.mpr ⟨begun, _, hused _ (halike.append used'),
        .inr ⟨frame, outer, none, rest', hstack, hused' rest' halike, .inl ⟨rfl, rfl⟩⟩⟩
    · obtain ⟨used'', hne'', rfl, hused''⟩ := ih hmore
      refine ⟨used ++ (used' ++ used''), by simp [hne], by simp, fun rest' fuel' halike hle => ?_⟩
      obtain ⟨n, rfl, hn⟩ := hfuel hne hle
      rw [List.append_assoc, List.append_assoc]
      rw [List.length_append] at hn
      have halike' := halike.append used''
      exact skipNested_eq_ok_iff.mpr ⟨begun, _, hused _ (halike'.append used'),
        .inr ⟨frame, outer, _, _, hstack, hused' _ halike',
          .inr (.inl ⟨more, rfl, hused'' rest' n halike (by omega)⟩)⟩⟩
    · obtain ⟨used₂, rfl, hused₂⟩ := skipKey_closed.free _ _ hkey
      obtain ⟨used₃, hne₃, rfl, hused₃⟩ := ih hmore
      refine ⟨used ++ (used' ++ (used₂ ++ used₃)), by simp [hne], by simp,
        fun rest' fuel' halike hle => ?_⟩
      obtain ⟨n, rfl, hn⟩ := hfuel hne hle
      rw [List.append_assoc, List.append_assoc, List.append_assoc]
      rw [List.length_append, List.length_append] at hn
      have halike' := (halike.append used₃).append used₂
      exact skipNested_eq_ok_iff.mpr ⟨begun, _, hused _ (halike'.append used'),
        .inr ⟨frame, outer, _, _, hstack, hused' _ halike',
          .inr (.inr ⟨more, _, rfl, hused₂ _, hused₃ rest' n halike (by omega)⟩)⟩⟩

theorem skipValue_local : Local skipValue id := by
  intro s rest h
  obtain ⟨used, -, hs, hused⟩ := skipNested_local h
  exact ⟨used, hs, fun rest' halike =>
    hused rest' _ halike (by rw [List.length_append]; omega)⟩

end Frames
end RangeSync.Json
