import RangeSync.Proofs.PlanReader
import RangeSync.Proofs.Printed

/-!
# A plan and its text

A plan is printed in one way and read in many: its fields may come in any order, some may be missing,
others may be there that no plan has, and all of it may be a list. So a text is not determined by
its plan, and yet **a plan survives its text** (`RangeSync.Plan.survives_its_text`): what is printed
for it is read as the same plan, and so is any text of it that a program prints.

For the first, the reader is run on a text that is known but for its numbers and the lengths of its
lists. Every part of it is read back in front of any rest that may follow it in the text: a numeral
in front of a comma or a bracket, a tuple in front of anything, a list of tuples too, and a field in
front of the next one.
-/

namespace RangeSync

open Text Json

variable {s t rest : List Char} {f f' : PlanFields} {key : String}

/-! ### Printed plans -/

section Printing

variable {α : Type}

/-- Texts with commas between them, from the second one on. -/
theorem intercalate_cons (x : List Char) (xs : List (List Char)) :
    [','].intercalate (x :: xs) = x ++ xs.flatMap (',' :: ·) := by
  induction xs generalizing x with
  | nil => simp
  | cons y xs ih => rw [List.intercalate_cons_cons, ih, List.flatMap_cons]; simp

theorem toList_bracketed (parts : List String) : (bracketed parts).toList =
    '[' :: ([','].intercalate (parts.map String.toList) ++ [']']) := by
  rw [bracketed, String.toList_append, String.toList_append, String.toList_intercalate]
  rfl

theorem nextElement_first {c : Char} (hgap : isGap c = false) (hc : c ≠ ']') :
    nextElement true (c :: s) = .ok (true, c :: s) :=
  nextElement_eq_ok_iff.mpr (.inr ⟨rfl, ⟨c, s, rfl, hc⟩, .inl ⟨rfl, skipGap_cons hgap⟩⟩)

theorem nextElement_comma {c : Char} (hgap : isGap c = false) (hc : c ≠ ']') :
    nextElement false (',' :: c :: s) = .ok (true, c :: s) :=
  nextElement_eq_ok_iff.mpr (.inr ⟨rfl, ⟨c, s, rfl, hc⟩,
    .inr ⟨rfl, c :: s, skipGap_cons (by decide), skipGap_cons hgap⟩⟩)

theorem nextElement_end {isFirst : Bool} : nextElement isFirst (']' :: s) = .ok (false, ']' :: s) :=
  nextElement_eq_ok_iff.mpr (.inl ⟨rfl, skipGap_cons (by decide), s, rfl⟩)

theorem closeList_end : closeList (']' :: s) = .ok s :=
  closeList_eq_ok_iff.mpr (skipGap_cons (by decide))

/-- **A printed list is read back**, if its elements are, and they do not look like the end. -/
theorem readList_bracketed {element : Reader α} {text : α → String} {as : List α} {mark : Char}
    (hclosed : ∀ a, Closed mark element (a, ·))
    (htext : ∀ a ∈ as, (∃ t, (text a).toList = '[' :: t) ∧
      ∀ rest, element ((text a).toList ++ rest) = .ok (a, rest)) :
    readList element ((bracketed (as.map text)).toList ++ rest) = .ok (as, rest) := by
  have hmore (bs : List α) (hbs : ∀ b ∈ bs, b ∈ as) : readElements element (bs.length + 1) false
      ((bs.map fun b => (text b).toList).flatMap (',' :: ·) ++ ']' :: rest) = .ok (bs, rest) := by
    induction bs with
    | nil =>
      exact readElements_eq_ok_iff.mpr
        ⟨false, _, nextElement_end, .inl ⟨rfl, rfl, closeList_end⟩⟩
    | cons b bs ih =>
      rw [List.forall_mem_cons] at hbs
      obtain ⟨⟨t, ht⟩, hread⟩ := htext b hbs.1
      refine readElements_eq_ok_iff.mpr ⟨true, _, ?_, .inr ⟨rfl, b, _, bs, hread _, ih hbs.2, rfl⟩⟩
      rw [List.map_cons, List.flatMap_cons, List.append_assoc, List.cons_append, ht]
      exact nextElement_comma (by decide) (by decide)
  have hall : ∃ fuel, readElements element fuel true
      ([','].intercalate (as.map fun a => (text a).toList) ++ ']' :: rest) = .ok (as, rest) := by
    cases as with
    | nil =>
      exact ⟨1, readElements_eq_ok_iff.mpr
        ⟨false, _, nextElement_end, .inl ⟨rfl, rfl, closeList_end⟩⟩⟩
    | cons a as =>
      obtain ⟨⟨t, ht⟩, hread⟩ := htext a List.mem_cons_self
      refine ⟨as.length + 2, readElements_eq_ok_iff.mpr ⟨true, _, ?_,
        .inr ⟨rfl, a, _, as, hread _, hmore as fun b => List.mem_cons_of_mem a, rfl⟩⟩⟩
      rw [List.map_cons, intercalate_cons, List.append_assoc, ht]
      exact nextElement_first (by decide) (by decide)
  obtain ⟨fuel, hfuel⟩ := hall
  obtain ⟨used, hused, hread⟩ := readElements_closed hclosed hfuel
  refine readList_eq_ok_iff.mpr ⟨used ++ ']' :: rest, ?_, hread rest _ ?_⟩
  · rw [← hused, toList_bracketed, List.map_map]
    simp [skipGap_cons, show isGap '[' = false from rfl, Function.comp_def]
  · rw [List.length_append]
    omega

/-- A printed count begins with a digit. -/
theorem decimal_cons (n : Nat) : ∃ c digits, (decimal n).toList = c :: digits ∧
    isGap c = false ∧ c ≠ ']' := by
  have hdecimal : (decimal n).toList = Nat.toDigits 10 n := Nat.toList_repr
  obtain ⟨c, digits, hcons⟩ := List.exists_cons_of_ne_nil (@Nat.toDigits_ne_nil n 10)
  have hc : isDigit c = true := isDigit_of_mem_toDigits (hcons ▸ List.mem_cons_self)
  refine ⟨c, digits, hdecimal.trans hcons, not_isGap_of_isDigit hc, ?_⟩
  rintro rfl
  exact absurd hc (by decide)

/-- A printed count in front of a comma or a bracket. -/
theorem readCount_decimal (w : UInt64) (hstops : Stops rest) :
    readCount ((decimal w.toNat).toList ++ rest) = .ok (w, rest) := by
  obtain ⟨c, digits, hcons, hgap, -⟩ := decimal_cons w.toNat
  refine readCount_eq_ok_iff.mpr ⟨?_, hstops⟩
  rw [hcons]
  exact skipGap_cons hgap

/-- **A printed tuple is read back.** -/
theorem readTuple_tupleText (counts : List UInt64) :
    readTuple counts.length ((tupleText counts).toList ++ rest) = .ok (counts, rest) := by
  have hstops (ws : List UInt64) (rest : List Char) :
      Stops ((ws.map fun w => (decimal w.toNat).toList).flatMap (',' :: ·) ++ ']' :: rest) := by
    cases ws <;> (intro c hc; cases hc; rfl)
  have hmore (size : Nat) (expected : String) (ws : List UInt64) :
      readCounts size expected ws.length false
        ((ws.map fun w => (decimal w.toNat).toList).flatMap (',' :: ·) ++ ']' :: rest) =
          .ok (ws, rest) := by
    induction ws with
    | nil => exact readCounts_zero_eq_ok_iff.mpr ⟨rfl, closeList_end⟩
    | cons w ws ih =>
      obtain ⟨c, digits, hcons, hgap, hc⟩ := decimal_cons w.toNat
      refine readCounts_succ_eq_ok_iff.mpr
        ⟨_, w, _, ws, ?_, readCount_decimal w (hstops ws rest), ih, rfl⟩
      rw [List.map_cons, List.flatMap_cons, List.append_assoc, List.cons_append, hcons]
      exact nextElement_comma hgap hc
  refine readTuple_eq_ok_iff.mpr
    ⟨[','].intercalate (counts.map fun w => (decimal w.toNat).toList) ++ ']' :: rest, ?_, ?_⟩
  · rw [tupleText, toList_bracketed, List.map_map]
    simp [skipGap_cons, show isGap '[' = false from rfl, Function.comp_def]
  · cases counts with
    | nil => exact readCounts_zero_eq_ok_iff.mpr ⟨rfl, closeList_end⟩
    | cons w ws =>
      obtain ⟨c, digits, hcons, hgap, hc⟩ := decimal_cons w.toNat
      refine readCounts_succ_eq_ok_iff.mpr
        ⟨_, w, _, ws, ?_, readCount_decimal w (hstops ws rest), hmore _ _ ws, rfl⟩
      rw [List.map_cons, intercalate_cons, List.append_assoc, hcons]
      exact nextElement_first hgap hc

/-- A printed tuple begins with its bracket. -/
theorem tupleText_cons (counts : List UInt64) : ∃ t, (tupleText counts).toList = '[' :: t := by
  rw [tupleText, toList_bracketed]
  exact ⟨_, rfl⟩

theorem readList_reuse (ranges : List ReuseRange) :
    readList readReuse ((bracketed (ranges.map fun r => tupleText r.counts)).toList ++ rest) =
      .ok (ranges, rest) :=
  readList_bracketed readReuse_closed fun r _ =>
    ⟨tupleText_cons r.counts, fun _ => readReuse_eq_ok_iff.mpr (readTuple_tupleText r.counts)⟩

theorem readList_download (ranges : List DownloadRange) :
    readList readDownload ((bracketed (ranges.map fun d => tupleText d.counts)).toList ++ rest) =
      .ok (ranges, rest) :=
  readList_bracketed readDownload_closed fun d _ =>
    ⟨tupleText_cons d.counts, fun _ => readDownload_eq_ok_iff.mpr (readTuple_tupleText d.counts)⟩

/-- The character stands for itself in a string. -/
def isPlain (c : Char) : Bool :=
  c != '"' && c != '\\' && !decide (c.toNat < 0x20)

/-- A key of such characters is read as it is. -/
theorem readString_plain (h : key.toList.all isPlain = true) :
    readString (key.toList ++ '"' :: rest) = .ok (key, rest) := by
  have hchars (cs : List Char) (h : cs.all isPlain = true) (fuel : Nat) (hfuel : cs.length < fuel) :
      readChars fuel (cs ++ '"' :: rest) = .ok (cs, rest) := by
    induction cs generalizing fuel with
    | nil =>
      obtain ⟨n, rfl⟩ := Nat.exists_eq_add_one.mpr hfuel
      rfl
    | cons c cs ih =>
      obtain ⟨n, rfl⟩ := Nat.exists_eq_add_one.mpr (Nat.zero_lt_of_lt hfuel)
      rw [List.all_cons, Bool.and_eq_true] at h
      obtain ⟨hplain, hcs⟩ := h
      simp only [isPlain, Bool.and_eq_true, bne_iff_ne, Bool.not_eq_true', decide_eq_false_iff_not]
        at hplain
      rw [List.cons_append, readChars_cons hplain.1.1 hplain.1.2 hplain.2]
      exact bind_eq_ok_iff.mpr ⟨_, ih hcs n (Nat.lt_of_succ_lt_succ hfuel), rfl⟩
  refine map_eq_ok_iff.mpr ⟨_, hchars key.toList h _ ?_, ?_⟩
  · rw [List.length_append]
    omega
  · dsimp only
    rw [String.ofList_toList]

/-- The text of a field behind what comes before its key. -/
def fieldText (key : String) (t : List Char) : List Char :=
  '"' :: (key.toList ++ '"' :: ':' :: t)

/-- One more field of an object. -/
theorem PlanFields.readAll_field {fuel : Nat} {rest' : List Char} {f₁ : PlanFields} (isFirst : Bool)
    (hplain : key.toList.all isPlain = true)
    (htakes : f.Takes t rest key f₁) (hmore : readAll fuel false f₁ rest = .ok (f', rest')) :
    readAll (fuel + 1) isFirst f
      ((if isFirst then [] else [',']) ++ fieldText key t) = .ok (f', rest') := by
  refine readAll_eq_ok_iff.mpr (.inr ⟨key.toList ++ '"' :: ':' :: t, ?_, key, ':' :: t,
    readString_plain hplain, f₁, rest, ?_, hmore⟩)
  · cases isFirst with
    | true => exact .inl ⟨rfl, skipGap_cons (by decide)⟩
    | false =>
      exact .inr ⟨rfl, fieldText key t, skipGap_cons (by decide), skipGap_cons (by decide)⟩
  · exact readField_eq_ok_iff.mpr ⟨t, skipGap_cons (by decide), htakes⟩

namespace Plan

/-- The fields of the ranges, with the end of the plan. -/
def rangesText (p : Plan) : List Char :=
  fieldText "reuse" ((bracketed (p.reuse.map fun r => tupleText r.counts)).toList ++
    ',' :: fieldText "download"
      ((bracketed (p.download.map fun d => tupleText d.counts)).toList ++ ['\x7d']))

/-- A printed plan as the text of its fields. -/
theorem toList_toJson (p : Plan) : p.toJson.toList = '\x7b' ::
    match p.length with
    | some n => fieldText "length" ((decimal n.toNat).toList ++ ',' :: p.rangesText)
    | none => p.rangesText := by
  have hlength : "\"length\":".toList = '"' :: ("length".toList ++ ['"', ':']) := by decide
  have hreuse : "\"reuse\":".toList = '"' :: ("reuse".toList ++ ['"', ':']) := by decide
  have hdownload : "\"download\":".toList = '"' :: ("download".toList ++ ['"', ':']) := by decide
  unfold toJson rangesText fieldText
  cases p.length <;>
  · dsimp only
    simp only [String.toList_append, hlength, hreuse, hdownload, List.append_assoc,
      List.cons_append]
    rfl

theorem readAll_rangesText (p : Plan) (isFirst : Bool) (length : Option (Option UInt64)) :
    PlanFields.readAll 3 isFirst ⟨length, none, none⟩
      ((if isFirst then [] else [',']) ++ p.rangesText) =
        .ok (⟨length, some p.reuse, some p.download⟩, []) := by
  refine PlanFields.readAll_field isFirst (by decide) (.reuse rfl (readList_reuse p.reuse)) ?_
  refine PlanFields.readAll_field false (by decide)
    (.download rfl (readList_download p.download)) ?_
  exact PlanFields.readAll_eq_ok_iff.mpr (.inl ⟨rfl, skipGap_cons (by decide)⟩)

/-- **A printed plan is read back.** -/
theorem readWhole_toJson (p : Plan) : readWhole p.toJson.toList = .ok p := by
  have hfields (t : List Char) (fuel : Nat) (f : PlanFields) (hplan : f.plan = p)
      (hf : PlanFields.readAll fuel true .blank t = .ok (f, [])) :
      readWhole ('\x7b' :: t) = .ok p := by
    obtain ⟨used, rfl, hused⟩ := PlanFields.readAll_closed hf
    refine readWhole_eq_ok_iff.mpr ⟨[], readPlan_eq_ok_iff.mpr (.inr ?_), nofun⟩
    refine ⟨_, skipGap_cons (by decide), f, hused [] _ ?_, hplan⟩
    rw [List.length_append]
    omega
  rw [toList_toJson]
  split
  · rename_i n hn
    have hcount : readOptionalCount ((decimal n.toNat).toList ++ ',' :: p.rangesText) =
        .ok (some n, ',' :: p.rangesText) :=
      readOptionalCount_eq_ok_iff.mpr (.inr ⟨n, rfl, readCount_decimal n fun c hc => by
        cases hc
        rfl⟩)
    exact hfields _ 4 _ (by simp [PlanFields.plan, ← hn]) (PlanFields.readAll_field true (by decide)
      (.length rfl hcount) (p.readAll_rangesText false (some (some n))))
  · rename_i hnone
    exact hfields _ 3 _ (by simp [PlanFields.plan, ← hnone]) (p.readAll_rangesText true none)

/-- **The length is in the printed plan exactly if there is one.** -/
theorem length_mem_toJson (p : Plan) :
    "length".toList <:+: p.toJson.toList ↔ p.length ≠ none := by
  rw [toList_toJson]
  split
  · rename_i n hn
    refine iff_of_true ?_ (by simp [hn])
    exact ⟨['\x7b', '"'], '"' :: ':' :: ((decimal n.toNat).toList ++ ',' :: p.rangesText), by
      simp [fieldText]⟩
  · rename_i hnone
    refine iff_of_false (fun hinfix => ?_) (by simp [hnone])
    -- there is no other `g`
    have hbracketed {parts : List String} (h : ∀ part ∈ parts, 'g' ∉ part.toList) :
        'g' ∉ (bracketed parts).toList := by
      rw [toList_bracketed]
      cases parts with
      | nil => decide
      | cons part parts =>
        rw [List.forall_mem_cons] at h
        simpa [intercalate_cons, h.1] using h.2
    have htuple (counts : List UInt64) : 'g' ∉ (tupleText counts).toList := by
      refine hbracketed fun part hpart hg => ?_
      obtain ⟨w, -, rfl⟩ := List.mem_map.mp hpart
      rw [show (decimal w.toNat).toList = Nat.toDigits 10 w.toNat from Nat.toList_repr] at hg
      exact absurd (isDigit_of_mem_toDigits hg) (by decide)
    have hg : 'g' ∈ '\x7b' :: p.rangesText := hinfix.subset (by decide)
    have hreuse : 'g' ∉ (bracketed (p.reuse.map fun r => tupleText r.counts)).toList :=
      hbracketed (by simp [htuple])
    have hdownload : 'g' ∉ (bracketed (p.download.map fun d => tupleText d.counts)).toList :=
      hbracketed (by simp [htuple])
    simp [rangesText, fieldText, hreuse, hdownload] at hg

end Plan

end Printing

/-! ### A plan and its text -/

/-- **A plan survives its text.** What is printed for it is read back as the same plan, the length
is printed exactly if there is one, and a program that prints any text of the plan is a planner with
this plan, if its totals fit. -/
theorem Plan.survives_its_text (p : Plan) :
    Plan.ofJson p.toJson = .ok p ∧
    ("length".toList <:+: p.toJson.toList ↔ p.length ≠ none) ∧
    ∀ (text : String) (name : String) (arguments : List String) (descriptor seed : String)
      (w : World) (finished : Finished),
      Plan.ofJson text = .ok p → w.Runs ⟨name, arguments ++ [descriptor, seed]⟩ finished →
      finished.exit = .status 0 → finished.stdout = encode text → p.HasTotals →
      ((Planner.program name arguments).plan descriptor seed).Ends w (fun p' _ => p' = p)
        fun _ _ => False := by
  refine ⟨ofJson_eq_ok_iff.mpr p.readWhole_toJson, p.length_mem_toJson, ?_⟩
  intro text name arguments descriptor seed w finished htext hruns hexit hstdout htotals
  have hprints : finished.Prints p := by
    refine ⟨hexit, ofJson_eq_ok_iff.mpr ?_⟩
    rw [hstdout, decodeLossy_encode, trimmed, String.toList_ofList]
    exact readWhole_trim (ofJson_eq_ok_iff.mp htext)
  exact (Planner.ends_plan_of_prints hruns hprints).mono (fun _ _ h => h.1)
    fun _ _ h => h.2.2 htotals

/-- A text with blanks around it, without a length, with its fields in another order and with a key
that no plan has. -/
def unusualText : String :=
  "\n\x7b \"download\": [[5, 9]], \"by\": [\x7b\"a\": -2.5e3\x7d, \"\\u0041\"], " ++
    "\"length\": null,\"reuse\" :[ [0,0, 5] ] \x7d\t"

theorem Plan.survives_its_text_unusual :
    let p : Plan := ⟨none, [⟨0, 0, 5⟩], [⟨5, 9⟩]⟩
    let w : World := { World.printing with
      programs := ⟨fun _ _ => .ok ⟨.status 0, encode unusualText, []⟩, []⟩ }
    Plan.ofJson unusualText = .ok p ∧ w.Runs ⟨"plan", [] ++ ["/d", "/s"]⟩
      ⟨.status 0, encode unusualText, []⟩ ∧ p.HasTotals ∧
      ((Planner.program "plan" []).plan "/d" "/s").Ends w (fun p' _ => p' = p)
        fun _ _ => False := by
  intro p w
  have hread : Plan.ofJson unusualText = .ok p := by
    have hsome : (Plan.ofJson unusualText).toOption = some p := by decide +kernel
    generalize Plan.ofJson unusualText = read at hsome
    cases read with
    | error reason => cases hsome
    | ok plan => exact congrArg _ (Option.some.inj hsome)
  have hruns : w.Runs ⟨"plan", [] ++ ["/d", "/s"]⟩ ⟨.status 0, encode unusualText, []⟩ :=
    ⟨by decide, rfl⟩
  have htotals : p.HasTotals := ⟨by decide, by decide, by decide⟩
  exact ⟨hread, hruns, htotals, (survives_its_text p).2.2 unusualText "plan" [] "/d" "/s" w
    ⟨.status 0, encode unusualText, []⟩ hread hruns rfl rfl htotals⟩

end RangeSync
