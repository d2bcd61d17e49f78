import Mathlib.Data.List.Destutter
import RangeSync.Progress.Tracker
import RangeSync.Proofs.Percentages

/-!
# The line on a console

A console shows the progress of a download on one line, which is printed again when its thousandths
have changed and is ended when the last byte is there. Both are decided at the same update, but not
by the same numbers: whether the line is printed, by rounded thousandths, and whether it is ended,
by the counts themselves. The line is ended **exactly once, unless an earlier count was rounded to
the same double as the total**: then all thousandths were shown before, the last update prints
nothing, and the line stays open.

Of a list of updates, a console shows what is left when neighbours of the same thousandths are made
one (`RangeSync.ConsoleProgress.shownOf`). Thousandths never decrease, so those that are shown
increase, and there are at most 1001 of them. Whether the last update is shown is a matter of the
one before it, and, since nothing is above 1000, of all before it
(`RangeSync.ConsoleProgress.changes_getLast?_iff`).
-/

namespace RangeSync

open Numeric Magnitude Text

/-! ### What a tracker tells -/

namespace Tracker

variable {t : Tracker} {item : String} {total start count : UInt64} {counts : List UInt64}

/-- Count on to a number of bytes. -/
def reach (t : Tracker) (count : UInt64) : Except Tracker Tracker :=
  t.advance (count - t.completed)

/-- The updates of a tracker that counts on from one number of bytes to the next. -/
def updatesTo (item : String) (total : UInt64) : UInt64 → List UInt64 → List ProgressUpdate
  | _, [] => []
  | start, count :: counts =>
    ⟨item, total, count, count - start⟩ :: updatesTo item total count counts

theorem reach_of_le (hstart : t.completed ≤ count) (htotal : count ≤ t.total) :
    t.reach count = .ok { t with
      completed := count
      sink := t.sink.receive ⟨t.item, t.total, count, count - t.completed⟩ } := by
  have hsum : t.completed.toNat + (count - t.completed).toNat = count.toNat := by
    rw [UInt64.toNat_sub_of_le _ _ hstart]
    exact Nat.add_sub_cancel' hstart
  have hcount : t.completed + (count - t.completed) = count :=
    UInt64.toNat_inj.mp (by
      rw [UInt64.toNat_add, hsum, Nat.mod_eq_of_lt count.toNat_lt])
  have hroom : t.completed.toNat + (count - t.completed).toNat ≤ t.total.toNat := hsum ▸ htotal
  rw [reach, advance, if_pos hroom, hcount]

/-- **A tracker that counts on within its total** fails at no update, and its sink receives them
all. -/
theorem exists_foldlM_reach (hincreasing : (t.completed :: counts).Pairwise (· ≤ ·))
    (htotal : ∀ count ∈ counts, count ≤ t.total) :
    ∃ t', counts.foldlM reach t = .ok t' ∧ t'.sink =
      (updatesTo t.item t.total t.completed counts).foldl ProgressSink.receive t.sink := by
  induction counts generalizing t with
  | nil => exact ⟨t, rfl, rfl⟩
  | cons count counts ih =>
    obtain ⟨hfirst, hrest⟩ := List.pairwise_cons.mp hincreasing
    obtain ⟨hcount, hcounts⟩ := List.forall_mem_cons.mp htotal
    rw [List.foldlM_cons, reach_of_le (hfirst _ List.mem_cons_self) hcount]
    exact ih hrest hcounts

theorem updatesTo_concat (item : String) (total start count : UInt64) (counts : List UInt64) :
    ∃ increment, updatesTo item total start (counts ++ [count]) =
      updatesTo item total start counts ++ [⟨item, total, count, increment⟩] := by
  induction counts generalizing start with
  | nil => exact ⟨count - start, rfl⟩
  | cons first counts ih =>
    obtain ⟨increment, h⟩ := ih first
    exact ⟨increment, congrArg _ h⟩

theorem of_mem_updatesTo {u : ProgressUpdate} (h : u ∈ updatesTo item total start counts) :
    u.item = item ∧ u.total = total := by
  induction counts generalizing start with
  | nil => exact absurd h List.not_mem_nil
  | cons count counts ih =>
    rcases List.mem_cons.mp h with rfl | hrest
    · exact ⟨rfl, rfl⟩
    · exact ih hrest

theorem map_completed_updatesTo (item : String) (total start : UInt64) (counts : List UInt64) :
    (updatesTo item total start counts).map (·.completed) = counts := by
  induction counts generalizing start with
  | nil => rfl
  | cons count counts ih => exact congrArg _ (ih count)

end Tracker

namespace ConsoleProgress

variable {u v : ProgressUpdate} {updates : List ProgressUpdate}

/-! ### The updates that are shown -/

/-- The thousandths of the updates differ. -/
def Changes (u v : ProgressUpdate) : Prop :=
  u.permille ≠ v.permille

instance : DecidableRel Changes :=
  fun _ _ => inferInstanceAs (Decidable (_ ≠ _))

/-- **The updates that a console shows**: the first one, and then always the next one whose
thousandths have changed. -/
def shownOf (updates : List ProgressUpdate) : List ProgressUpdate :=
  updates.destutter Changes

theorem foldl_receive_printed (u : ProgressUpdate) (updates : List ProgressUpdate)
    (text : String) :
    (updates.foldl receive ⟨some u.permille, text ++ line u⟩).printed =
      (updates.destutter' Changes u).foldl (fun text v => text ++ line v) text := by
  induction updates generalizing u text with
  | nil => rfl
  | cons v rest ih =>
    rw [List.foldl_cons]
    by_cases h : Changes u v
    · rw [List.destutter'_cons_pos _ h, List.foldl_cons, ← ih, receive,
        if_neg fun heq => h (Option.some.inj heq)]
    · rw [List.destutter'_cons_neg _ h, ← ih, receive,
        if_pos (congrArg some (not_not.mp h))]

/-- **A console has printed the lines of the updates that it shows.** -/
theorem foldl_receive_fresh (updates : List ProgressUpdate) :
    (updates.foldl receive fresh).printed = String.join ((shownOf updates).map line) := by
  rw [String.join, List.foldl_map]
  cases updates with
  | nil => rfl
  | cons u rest => exact foldl_receive_printed u rest ""

theorem head?_destutter' (u : ProgressUpdate) (updates : List ProgressUpdate) :
    (updates.destutter' Changes u).head? = some u := by
  induction updates with
  | nil => rfl
  | cons v rest ih =>
    by_cases h : Changes u v
    · rw [List.destutter'_cons_pos _ h, List.head?_cons]
    · rw [List.destutter'_cons_neg _ h, ih]

/-- The first update is shown. -/
theorem head?_shownOf (updates : List ProgressUpdate) :
    (shownOf updates).head? = updates.head? := by
  cases updates with
  | nil => rfl
  | cons u rest => exact head?_destutter' u rest

/-- Neighbours that never decrease and always change increase. -/
theorem pairwise_lt_of_changes (hle : updates.Pairwise fun u v => u.permille ≤ v.permille)
    (hne : updates.IsChain Changes) : updates.Pairwise fun u v => u.permille < v.permille := by
  induction updates with
  | nil => exact .nil
  | cons u rest ih =>
    obtain ⟨hfirst, hrest⟩ := List.pairwise_cons.mp hle
    have hlater := ih hrest hne.tail
    refine List.pairwise_cons.mpr ⟨?_, hlater⟩
    cases rest with
    | nil => exact fun _ h => absurd h List.not_mem_nil
    | cons v later =>
      have hlt : u.permille < v.permille :=
        Nat.lt_of_le_of_ne (hfirst v List.mem_cons_self) (List.isChain_cons_cons.mp hne).1
      refine List.forall_mem_cons.mpr ⟨hlt, fun w hw => hlt.trans ?_⟩
      exact (List.pairwise_cons.mp hlater).1 w hw

/-- **Thousandths that never decrease are shown increasing.** -/
theorem pairwise_shownOf (h : updates.Pairwise fun u v => u.permille ≤ v.permille) :
    (shownOf updates).Pairwise fun u v => u.permille < v.permille :=
  pairwise_lt_of_changes (h.sublist (List.destutter_sublist Changes updates))
    (List.isChain_destutter Changes updates)

theorem destutter'_concat (u v : ProgressUpdate) (updates : List ProgressUpdate) :
    (updates ++ [v]).destutter' Changes u = updates.destutter' Changes u ++
      if Changes (updates.getLast?.getD u) v then [v] else [] := by
  induction updates generalizing u with
  | nil =>
    rw [List.nil_append, List.destutter'_singleton, List.destutter'_nil, List.getLast?_nil,
      Option.getD_none]
    split <;> rfl
  | cons w rest ih =>
    rw [List.getLast?_cons, Option.getD_some]
    by_cases h : Changes u w
    · rw [List.cons_append, List.destutter'_cons_pos _ h, List.destutter'_cons_pos _ h, ih,
        List.cons_append]
    · -- what is not shown has the thousandths of what was shown before it
      have hsame : Changes (rest.getLast?.getD u) v ↔ Changes (rest.getLast?.getD w) v := by
        cases rest.getLast? with
        | none => exact not_congr (by rw [Option.getD_none, Option.getD_none, not_not.mp h])
        | some _ => rfl
      rw [List.cons_append, List.destutter'_cons_neg _ h, List.destutter'_cons_neg _ h, ih,
        if_congr hsame rfl rfl]

/-- **Another update is shown** if its thousandths are not those of the last one. -/
theorem shownOf_concat (updates : List ProgressUpdate) (v : ProgressUpdate) :
    shownOf (updates ++ [v]) = shownOf updates ++
      if ∀ u ∈ updates.getLast?, Changes u v then [v] else [] := by
  cases updates with
  | nil => rfl
  | cons u rest =>
    change (rest ++ [v]).destutter' Changes u = rest.destutter' Changes u ++ _
    rw [destutter'_concat, List.getLast?_cons]
    simp only [Option.mem_some_iff, forall_eq']

/-! ### Ends of lines -/

/-- The number of line ends in a text. -/
def lineEnds (text : String) : Nat :=
  text.toList.count '\n'

@[simp] theorem lineEnds_append (s t : String) : lineEnds (s ++ t) = lineEnds s + lineEnds t := by
  rw [lineEnds, String.toList_append, List.count_append]
  rfl

@[simp] theorem lineEnds_decimal (n : Nat) : lineEnds (decimal n) = 0 :=
  List.count_eq_zero.mpr fun h => absurd ((decimal_isDigit n).2 _ h) (by decide)

@[simp] theorem lineEnds_tenthsText (n : Nat) : lineEnds (tenthsText n) = 0 := by
  rw [tenthsText, lineEnds_append, lineEnds_append, lineEnds_decimal, lineEnds_decimal]
  rfl

@[simp] theorem lineEnds_aligned (s : String) : lineEnds (aligned s) = lineEnds s := by
  rw [lineEnds, aligned, String.toList_ofList, List.count_append,
    List.count_eq_zero.mpr fun h => absurd (List.eq_of_mem_replicate h) (by decide), Nat.zero_add]
  rfl

/-- **A line is ended at the update that is complete**; another end of a line can only be one of the
item. -/
theorem lineEnds_line (u : ProgressUpdate) :
    lineEnds (line u) = lineEnds u.item + if u.isComplete then 1 else 0 := by
  have hparts : lineEnds "\r" = 0 ∧ lineEnds ": " = 0 ∧ lineEnds "% (" = 0 ∧ lineEnds "/" = 0 ∧
      lineEnds " bytes)" = 0 := ⟨rfl, rfl, rfl, rfl, rfl⟩
  obtain ⟨hreturn, hcolon, hpercent, hslash, hbytes⟩ := hparts
  rw [line]
  simp only [lineEnds_append, lineEnds_aligned, lineEnds_tenthsText, lineEnds_decimal, hreturn,
    hcolon, hpercent, hslash, hbytes]
  cases u.isComplete <;> simp <;> rfl

theorem lineEnds_foldl (text : String) (updates : List ProgressUpdate) {item : String}
    (h : ∀ u ∈ updates, u.item = item) :
    lineEnds (updates.foldl (fun text u => text ++ line u) text) = lineEnds text +
      (updates.length * lineEnds item + updates.countP (·.isComplete)) := by
  induction updates generalizing text with
  | nil => simp
  | cons u rest ih =>
    obtain ⟨hitem, hrest⟩ := List.forall_mem_cons.mp h
    rw [List.foldl_cons, ih _ hrest, lineEnds_append, lineEnds_line, hitem, List.countP_cons,
      List.length_cons, Nat.succ_mul]
    omega

/-- The line ends in what is printed for some updates. -/
theorem lineEnds_join (updates : List ProgressUpdate) {item : String}
    (h : ∀ u ∈ updates, u.item = item) :
    lineEnds (String.join (updates.map line)) =
      updates.length * lineEnds item + updates.countP (·.isComplete) := by
  rw [String.join, List.foldl_map, lineEnds_foldl "" updates h]
  exact Nat.zero_add _

/-- **What is printed ends with the line** of an update that is complete and comes last. -/
theorem exists_join_concat (updates : List ProgressUpdate) (h : v.isComplete = true) :
    ∃ text, String.join ((updates ++ [v]).map line) = text ++ "\n" := by
  obtain ⟨start, hline⟩ : ∃ start, line v = start ++ "\n" := by
    rw [line, if_pos h]
    exact ⟨_, rfl⟩
  rw [String.join, List.map_append, List.foldl_append, List.map_singleton, List.foldl_cons,
    List.foldl_nil, hline, ← String.append_assoc]
  exact ⟨_, rfl⟩

/-! ### The last update -/

/-- Updates that never decrease end with all thousandths if any of them has these. -/
theorem changes_getLast?_iff (h : updates.Pairwise fun u v => u.permille ≤ v.permille)
    (hle : ∀ u ∈ updates, u.permille ≤ v.permille) :
    (∀ u ∈ updates.getLast?, Changes u v) ↔ ∀ u ∈ updates, Changes u v := by
  refine ⟨fun hlast u hu heq => ?_, fun hall u hu => hall u (List.mem_of_getLast? hu)⟩
  obtain rfl | ⟨before, last, rfl⟩ := updates.eq_nil_or_concat'
  · exact absurd hu List.not_mem_nil
  · have hmem : last ∈ before ++ [last] := List.mem_concat_self
    refine hlast last (by simp) (Nat.le_antisymm (hle last hmem) ?_)
    rcases List.mem_append.mp hu with hbefore | hself
    · exact heq.ge.trans ((List.pairwise_append.mp h).2.2 u hbefore last List.mem_cons_self)
    · rw [List.mem_singleton.mp hself] at heq
      exact heq.ge

/-- **No number of bytes before the last is rounded to the same double.** -/
def IsSetApart (total : UInt64) (counts : List UInt64) : Prop :=
  ∀ count ∈ counts, nearest count.toNat ≠ nearest total.toNat

variable {item : String} {total : UInt64} {counts : List UInt64}

/-- Numbers of at most 53 bits are not rounded at all. -/
theorem isSetApart_of_small (hsmall : total.toNat ≤ 2 ^ 53)
    (hlt : ∀ count ∈ counts, count < total) : IsSetApart total counts := by
  intro count hcount heq
  have hlt : count.toNat < total.toNat := hlt count hcount
  have htotal : IsShort total.toNat := by
    rcases hsmall.lt_or_eq with hsmall | hequal
    · exact isShort_of_lt hsmall
    · exact ⟨1, 53, by decide, hequal⟩
  rw [nearest_natCast (isShort_of_lt (Nat.lt_of_lt_of_le hlt hsmall)),
    nearest_natCast htotal] at heq
  exact Nat.ne_of_lt hlt (Nat.cast_injective heq)

theorem foldl_console (c : ConsoleProgress) (updates : List ProgressUpdate) :
    updates.foldl ProgressSink.receive (.console c) = .console (updates.foldl receive c) := by
  induction updates generalizing c with
  | nil => rfl
  | cons u rest ih => exact ih (c.receive u)

/-- At most as many numbers up to a bound increase as there are. -/
theorem length_le_of_pairwise {bound : Nat}
    (h : updates.Pairwise fun u v => u.permille < v.permille)
    (hle : ∀ u ∈ updates, u.permille ≤ bound) : updates.length ≤ bound + 1 := by
  have hnodup : (updates.map (·.permille)).Nodup :=
    List.pairwise_map.mpr (h.imp Nat.ne_of_lt)
  have hsubset : updates.map (·.permille) ⊆ List.range (bound + 1) := fun n hn => by
    obtain ⟨u, hu, rfl⟩ := List.mem_map.mp hn
    exact List.mem_range.mpr (Nat.lt_succ_of_le (hle u hu))
  have hlength := (List.subperm_of_subset hnodup hsubset).length_le
  rwa [List.length_map, List.length_range] at hlength

/-- **The updates of a download up to its last byte**, of which there is at least one. -/
structure IsDownload (item : String) (total : UInt64) (updates : List ProgressUpdate)
    (last : ProgressUpdate) : Prop where
  pos : 0 < total
  item_eq : ∀ u ∈ updates ++ [last], u.item = item
  total_eq : ∀ u ∈ updates ++ [last], u.total = total
  completed_eq : last.completed = total
  increasing : (updates ++ [last]).Pairwise fun u v => u.completed < v.completed

namespace IsDownload

variable {last : ProgressUpdate}

theorem lt (h : IsDownload item total updates last) (hu : u ∈ updates) : u.completed < total :=
  h.completed_eq ▸ (List.pairwise_append.mp h.increasing).2.2 u hu last List.mem_cons_self

theorem isPart (h : IsDownload item total updates last) (hu : u ∈ updates ++ [last]) :
    u.IsPart := by
  refine ⟨h.total_eq u hu ▸ h.pos, h.total_eq u hu ▸ ?_⟩
  rcases List.mem_append.mp hu with hbefore | hself
  · exact Nat.le_of_lt (h.lt hbefore)
  · rw [List.mem_singleton.mp hself, h.completed_eq]

theorem isComplete_iff (h : IsDownload item total updates last) (hu : u ∈ updates ++ [last]) :
    u.isComplete = true ↔ total ≤ u.completed := by
  rw [ProgressUpdate.isComplete, h.total_eq u hu, decide_eq_true_iff]

/-- The thousandths do not decrease. -/
theorem pairwise_permille (h : IsDownload item total updates last) :
    (updates ++ [last]).Pairwise fun u v => u.permille ≤ v.permille := by
  refine h.increasing.imp_of_mem fun {u v} hu hv hlt => ?_
  have htotal : u.total = v.total := (h.total_eq u hu).trans (h.total_eq v hv).symm
  rw [ProgressUpdate.permille_eq_parts, ProgressUpdate.permille_eq_parts]
  exact ProgressUpdate.parts_mono (h.isPart hu) (h.isPart hv) htotal (UInt64.le_of_lt hlt)
    (isShort_of_lt (by decide))

theorem permille_le (h : IsDownload item total updates last) (hu : u ∈ updates ++ [last]) :
    u.permille ≤ 1000 := by
  rw [ProgressUpdate.permille_eq_parts]
  exact ProgressUpdate.parts_le (h.isPart hu) (isShort_of_lt (by decide))

theorem isComplete_last (h : IsDownload item total updates last) : last.isComplete = true :=
  (h.isComplete_iff List.mem_concat_self).mpr (UInt64.le_of_eq h.completed_eq.symm)

theorem permille_last (h : IsDownload item total updates last) : last.permille = 1000 := by
  refine (h.isPart List.mem_concat_self).permille_eq_iff.mpr ?_
  rw [h.completed_eq, h.total_eq last List.mem_concat_self]

/-- **The last update changes the thousandths** exactly if no earlier number of bytes is rounded to
the total. -/
theorem changes_iff (h : IsDownload item total updates last) :
    (∀ u ∈ updates, Changes u last) ↔ IsSetApart total (updates.map (·.completed)) := by
  rw [IsSetApart, List.forall_mem_map]
  refine forall₂_congr fun u hu => not_congr ?_
  have hu : u ∈ updates ++ [last] := List.mem_append_left _ hu
  rw [h.permille_last, (h.isPart hu).permille_eq_iff, h.total_eq u hu]

/-- **The last update is shown if it is set apart**, and otherwise the line stays as it was. -/
theorem shownOf_eq (h : IsDownload item total updates last) :
    (IsSetApart total (updates.map (·.completed)) →
      shownOf (updates ++ [last]) = shownOf updates ++ [last]) ∧
    (¬ IsSetApart total (updates.map (·.completed)) →
      shownOf (updates ++ [last]) = shownOf updates) := by
  have hiff := (changes_getLast?_iff (List.pairwise_append.mp h.pairwise_permille).1
    fun u hu => (h.permille_le (List.mem_append_left _ hu)).trans h.permille_last.ge).trans
    h.changes_iff
  rw [shownOf_concat]
  refine ⟨fun hapart => ?_, fun hapart => ?_⟩
  · rw [if_pos (hiff.mpr hapart)]
  · rw [if_neg (mt hiff.mp hapart), List.append_nil]

theorem pairwise_shownOf (h : IsDownload item total updates last) :
    (shownOf (updates ++ [last])).Pairwise fun u v => u.permille < v.permille :=
  ConsoleProgress.pairwise_shownOf h.pairwise_permille

/-- There is a line for each number of thousandths at most. -/
theorem length_shownOf_le (h : IsDownload item total updates last) :
    (shownOf (updates ++ [last])).length ≤ 1001 :=
  length_le_of_pairwise h.pairwise_shownOf fun _ hu =>
    h.permille_le ((List.destutter_sublist Changes _).subset hu)

theorem lt_of_mem_shownOf (h : IsDownload item total updates last) (hu : u ∈ shownOf updates) :
    u.completed < total :=
  h.lt ((List.destutter_sublist Changes updates).subset hu)

/-- Before the last update, no line is ended. -/
theorem countP_shownOf (h : IsDownload item total updates last) :
    (shownOf updates).countP (·.isComplete) = 0 := by
  refine List.countP_eq_zero.mpr fun u hu => ?_
  have hmem := (List.destutter_sublist Changes updates).subset hu
  rw [h.isComplete_iff (List.mem_append_left _ hmem)]
  exact UInt64.not_le.mpr (h.lt_of_mem_shownOf hu)

/-- The line ends in what is printed. -/
theorem lineEnds_eq (h : IsDownload item total updates last) :
    lineEnds (String.join ((shownOf (updates ++ [last])).map line)) =
      (shownOf (updates ++ [last])).length * lineEnds item +
        (shownOf (updates ++ [last])).countP (·.isComplete) :=
  lineEnds_join _ fun u hu => h.item_eq u ((List.destutter_sublist Changes _).subset hu)

theorem lineEnds_of_isSetApart (h : IsDownload item total updates last)
    (hapart : IsSetApart total (updates.map (·.completed))) :
    lineEnds (String.join ((shownOf (updates ++ [last])).map line)) =
      (shownOf (updates ++ [last])).length * lineEnds item + 1 := by
  have hcount : (shownOf (updates ++ [last])).countP (·.isComplete) = 1 := by
    rw [h.shownOf_eq.1 hapart, List.countP_append, h.countP_shownOf, List.countP_singleton,
      if_pos h.isComplete_last]
  rw [h.lineEnds_eq, hcount]

theorem lineEnds_of_not_isSetApart (h : IsDownload item total updates last)
    (hapart : ¬ IsSetApart total (updates.map (·.completed))) :
    lineEnds (String.join ((shownOf (updates ++ [last])).map line)) =
      (shownOf (updates ++ [last])).length * lineEnds item := by
  have hcount : (shownOf (updates ++ [last])).countP (·.isComplete) = 0 := by
    rw [h.shownOf_eq.2 hapart, h.countP_shownOf]
  rw [h.lineEnds_eq, hcount, Nat.add_zero]

end IsDownload

/-- A tracker that counts on to its total tells of a download. -/
theorem exists_isDownload (item : String) (hpos : 0 < total)
    (hincreasing : (counts ++ [total]).Pairwise (· < ·)) :
    ∃ last, Tracker.updatesTo item total 0 (counts ++ [total]) =
        Tracker.updatesTo item total 0 counts ++ [last] ∧
      IsDownload item total (Tracker.updatesTo item total 0 counts) last := by
  obtain ⟨increment, hupdates⟩ := Tracker.updatesTo_concat item total 0 total counts
  have hmem {u : ProgressUpdate} (hu : u ∈ Tracker.updatesTo item total 0 counts ++
      [⟨item, total, total, increment⟩]) := Tracker.of_mem_updatesTo (hupdates ▸ hu)
  refine ⟨_, hupdates, hpos, fun u hu => (hmem hu).1, fun u hu => (hmem hu).2, rfl, ?_⟩
  rw [← hupdates]
  rwa [← Tracker.map_completed_updatesTo item total 0 (counts ++ [total]), List.pairwise_map]
    at hincreasing

/-- The sink of such a tracker has printed what a console shows. -/
theorem feeds (item : String) (hincreasing : (counts ++ [total]).Pairwise (· < ·)) :
    ∃ t console, (counts ++ [total]).foldlM Tracker.reach
        ((Tracker.fresh item (.console fresh)).announce total) = .ok t ∧
      t.sink = .console console ∧ console.printed = String.join ((shownOf
        (Tracker.updatesTo item total 0 (counts ++ [total]))).map line) := by
  have hle : ∀ count ∈ counts ++ [total], count ≤ total := by
    intro count hcount
    rcases List.mem_append.mp hcount with hbefore | hself
    · exact UInt64.le_of_lt
        ((List.pairwise_append.mp hincreasing).2.2 count hbefore total List.mem_cons_self)
    · exact UInt64.le_of_eq (List.mem_singleton.mp hself)
  obtain ⟨t, hrun, hsink⟩ := Tracker.exists_foldlM_reach
    (t := (Tracker.fresh item (.console fresh)).announce total)
    (List.pairwise_cons.mpr ⟨fun _ _ => UInt64.zero_le, hincreasing.imp UInt64.le_of_lt⟩) hle
  exact ⟨t, _, hrun, hsink.trans (foldl_console fresh _), foldl_receive_fresh _⟩

/-- **The line on a console when a download goes on to its last byte**: the first update is printed,
and no thousandths are printed twice. The last update is printed exactly if no earlier number of
bytes is rounded to the same double as the total; up to `2 ^ 53` bytes none is. Then the end of its
line is the last thing that is printed, and otherwise no line is ended. -/
theorem ends_its_line (hpos : 0 < total) (hincreasing : (counts ++ [total]).Pairwise (· < ·)) :
    let updates := Tracker.updatesTo item total 0 (counts ++ [total])
    let shown := shownOf updates
    (∃ t console, (counts ++ [total]).foldlM Tracker.reach
        ((Tracker.fresh item (.console fresh)).announce total) = .ok t ∧
      t.sink = .console console ∧ console.printed = String.join (shown.map line)) ∧
    shown.head? = updates.head? ∧
    (shown.Pairwise fun u v => u.permille < v.permille) ∧ shown.length ≤ 1001 ∧
    (IsSetApart total counts →
      (∃ before last, shown = before ++ [last] ∧ last.item = item ∧ last.total = total ∧
        last.completed = total ∧ ∀ u ∈ before, u.completed < total) ∧
      (∃ text, String.join (shown.map line) = text ++ "\n") ∧
      lineEnds (String.join (shown.map line)) = shown.length * lineEnds item + 1) ∧
    (¬ IsSetApart total counts →
      (∀ u ∈ shown, u.completed < total) ∧
      lineEnds (String.join (shown.map line)) = shown.length * lineEnds item) ∧
    (total.toNat ≤ 2 ^ 53 → IsSetApart total counts) := by
  obtain ⟨last, hupdates, hdownload⟩ := exists_isDownload item hpos hincreasing
  have hfeeds := feeds item hincreasing
  have happears := hdownload.shownOf_eq
  have hended := hdownload.lineEnds_of_isSetApart
  have hopen := hdownload.lineEnds_of_not_isSetApart
  rw [Tracker.map_completed_updatesTo] at happears hended hopen
  dsimp only
  rw [hupdates] at hfeeds ⊢
  refine ⟨hfeeds, head?_shownOf _, hdownload.pairwise_shownOf, hdownload.length_shownOf_le,
    fun hapart => ⟨⟨_, last, happears.1 hapart, ?_⟩, ?_, hended hapart⟩,
    fun hapart => ⟨fun u hu => hdownload.lt_of_mem_shownOf (happears.2 hapart ▸ hu), hopen hapart⟩,
    fun hsmall => isSetApart_of_small hsmall fun count hcount =>
      (List.pairwise_append.mp hincreasing).2.2 count hcount total List.mem_cons_self⟩
  · exact ⟨hdownload.item_eq last List.mem_concat_self,
      hdownload.total_eq last List.mem_concat_self, hdownload.completed_eq,
      fun u hu => hdownload.lt_of_mem_shownOf hu⟩
  · rw [happears.1 hapart]
    exact exists_join_concat _ hdownload.isComplete_last

/-- The fourth of four bytes is shown last, and the line ends behind it. -/
theorem ends_its_line_of_four :
    (0 : UInt64) < 4 ∧ ([1, 3] ++ [4] : List UInt64).Pairwise (· < ·) ∧ IsSetApart 4 [1, 3] ∧
    (∃ before last, shownOf (Tracker.updatesTo "f" 4 0 [1, 3, 4]) = before ++ [last] ∧
      last.item = "f" ∧ last.total = 4 ∧ last.completed = 4 ∧ ∀ u ∈ before, u.completed < 4) ∧
    ∃ text, String.join ((shownOf (Tracker.updatesTo "f" 4 0 [1, 3, 4])).map line) =
      text ++ "\n" := by
  have hincreasing : ([1, 3] ++ [4] : List UInt64).Pairwise (· < ·) := by decide
  obtain ⟨-, -, -, -, hended, -, hsmall⟩ :=
    @ends_its_line "f" 4 [1, 3] (by decide) hincreasing
  have hapart := hsmall (by decide)
  obtain ⟨hshown, htext, -⟩ := hended hapart
  exact ⟨by decide, hincreasing, hapart, hshown, htext⟩

/-- **The last of `2 ^ 53 + 1` bytes leaves the line as it was**, without an end: it said `100.0%`
before. -/
theorem last_byte_is_not_shown :
    ([9007199254740992] ++ [9007199254740993] : List UInt64).Pairwise (· < ·) ∧
    ([9007199254740992] ++ [9007199254740993] : List UInt64).foldlM Tracker.reach
        ((Tracker.fresh "f" (.console fresh)).announce 9007199254740993) =
      .ok ⟨"f", 9007199254740993, 9007199254740993, .console ⟨some 1000,
        line ⟨"f", 9007199254740993, 9007199254740992, 9007199254740992⟩⟩⟩ ∧
    lineEnds (line ⟨"f", 9007199254740993, 9007199254740992, 9007199254740992⟩) = 0 := by
  refine ⟨by decide, by rfl, lineEnds_line _⟩

end ConsoleProgress
end RangeSync
