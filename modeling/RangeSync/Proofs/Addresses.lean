import RangeSync.Numeric.Powers
import RangeSync.Proofs.Results
import RangeSync.Url.Host

/-!
# Addresses are read back from their text

An address in a URL may be written in many ways, in octal, with fewer parts or with its zeros
written out, but it is printed in one. What is printed is an address again and the same one: four
bytes in decimal (`RangeSync.Url.ipv4?_ipv4Text`), or eight groups of which the longest run of zeros
is left out (`RangeSync.Url.ipv6?_ipv6Text`).

Of the run that is left out it does not matter that it is the longest. What matters is that it is a
run of zeros, and that the number of groups is known; and that no two colons meet in what is printed
of the other groups, so that the gap is the one that was left (`RangeSync.Url.cutAround?_gap`).
-/

namespace RangeSync.Url

open Text Numeric

variable {c : Char} {s : List Char}

/-! ### Addresses of four bytes -/

/-- The numeral of a byte is read as that byte. -/
theorem ipv4Number?_decimal : ∀ n < 256, ipv4Number? (decimal n).toList = some n := by
  decide +kernel

/-- The parts of an address in their usual form. -/
def ipv4Fields (address : Nat) : List (List Char) :=
  [3, 2, 1, 0].map fun i => (decimal ((address >>> (8 * i)) % 256)).toList

theorem ipv4Fields_ne_nil (address : Nat) : ipv4Fields address ≠ [] :=
  List.cons_ne_nil _ _

theorem toList_ipv4Text (address : Nat) :
    (ipv4Text address).toList = joined '.' (ipv4Fields address) := by
  rw [ipv4Text, String.toList_intercalate, List.map_map, ← intercalate_eq_joined]
  rfl

theorem isDigit_of_mem_ipv4Fields {address : Nat} {part : List Char}
    (h : part ∈ ipv4Fields address) : part ≠ [] ∧ ∀ c ∈ part, isDigit c = true := by
  obtain ⟨i, -, rfl⟩ := List.mem_map.mp h
  exact decimal_isDigit _

/-- The four bytes are found again between the points. -/
theorem ipv4Parts_ipv4Text (address : Nat) :
    ipv4Parts (ipv4Text address).toList = ipv4Fields address := by
  have hfields : fields '.' (ipv4Text address).toList = ipv4Fields address := by
    rw [toList_ipv4Text]
    refine fields_joined (List.cons_ne_nil _ _) fun part hpart hdot => ?_
    exact absurd ((isDigit_of_mem_ipv4Fields hpart).2 '.' hdot) (by decide)
  have hlast : (ipv4Fields address).getLast? ≠ some [] := by
    intro hnil
    exact (isDigit_of_mem_ipv4Fields (List.mem_of_getLast? hnil)).1 rfl
  rw [ipv4Parts, hfields]
  exact if_neg hlast

theorem endsInNumber_ipv4Text (address : Nat) :
    endsInNumber (ipv4Text address).toList = true := by
  have hlast : (ipv4Fields address).getLast? =
      some (decimal ((address >>> (8 * 0)) % 256)).toList := rfl
  obtain ⟨hne, hall⟩ := decimal_isDigit ((address >>> (8 * 0)) % 256)
  rw [endsInNumber, ipv4Parts_ipv4Text, hlast]
  simp only [List.isEmpty_eq_false_iff.mpr hne, List.all_eq_true.mpr hall, Bool.not_false,
    Bool.and_self, Bool.true_or]

/-- **Four bytes in decimal are the address that they were taken from.** -/
theorem ipv4?_ipv4Text {address : Nat} (h : address < twoTo 32) :
    ipv4? (ipv4Text address).toList = some address := by
  have hnumbers : (ipv4Fields address).mapM ipv4Number? =
      some ([3, 2, 1, 0].map fun i => (address >>> (8 * i)) % 256) := by
    rw [mapM_eq_some_iff, ipv4Fields, List.map_map, List.map_map]
    exact List.map_congr_left fun i _ => ipv4Number?_decimal _ (Nat.mod_lt _ (by decide))
  rw [ipv4?, ipv4Parts_ipv4Text, hnumbers]
  have hbound : twoTo 32 = 4294967296 := rfl
  simp [bytesBound, Nat.shiftRight_eq_div_pow]
  omega

theorem bytesBound_eq (count : Nat) : bytesBound count = twoTo (8 * count) :=
  Nat.one_shiftLeft _

/-- So many bytes are less than their bound. -/
theorem foldl_bytes_lt {bytes : List Nat} {n : Nat} (h : ∀ b ∈ bytes, b ≤ 255) :
    bytes.foldl (fun n b => n * 256 + b) n < (n + 1) * twoTo (8 * bytes.length) := by
  induction bytes generalizing n with
  | nil => simp
  | cons b bytes ih =>
    rw [List.forall_mem_cons] at h
    have hbyte : twoTo 8 = 256 := rfl
    calc bytes.foldl (fun n b => n * 256 + b) (n * 256 + b)
        < (n * 256 + b + 1) * twoTo (8 * bytes.length) := ih h.2
      _ ≤ (n + 1) * 256 * twoTo (8 * bytes.length) := Nat.mul_le_mul_right _ (by omega)
      _ = (n + 1) * twoTo (8 * (b :: bytes).length) := by
        rw [List.length_cons, Nat.mul_add, Nat.mul_one, twoTo_add, hbyte, Nat.mul_assoc,
          Nat.mul_comm 256]

/-- An address that was read has four bytes. -/
theorem ipv4?_lt {address : Nat} (h : ipv4? s = some address) : address < twoTo 32 := by
  obtain ⟨numbers, -, h⟩ := Option.bind_eq_some_iff.mp h
  obtain ⟨last, -, h⟩ := Option.bind_eq_some_iff.mp h
  simp only at h
  generalize numbers.dropLast = first at h
  split at h
  · cases h
  · rename_i hfits
    simp only [Bool.or_eq_true, decide_eq_true_eq, List.any_eq_true, not_or, not_exists, not_and,
      Nat.not_lt, Nat.not_le] at hfits
    obtain ⟨⟨hlength, hbytes⟩, hlast⟩ := hfits
    obtain rfl := Option.some.inj h
    have hhigh : first.foldl (fun n b => n * 256 + b) 0 + 1 ≤ twoTo (8 * first.length) := by
      have hlt := @foldl_bytes_lt first 0 hbytes
      rwa [Nat.zero_add, Nat.one_mul] at hlt
    generalize first.foldl (fun n b => n * 256 + b) 0 = high at hhigh
    have hall : 8 * first.length + 8 * (4 - first.length) = 32 := by omega
    rw [bytesBound_eq] at hlast ⊢
    calc high * twoTo (8 * (4 - first.length)) + last
        < (high + 1) * twoTo (8 * (4 - first.length)) := by
          rw [Nat.add_mul, Nat.one_mul]
          exact Nat.add_lt_add_left hlast _
      _ ≤ twoTo (8 * first.length) * twoTo (8 * (4 - first.length)) :=
          Nat.mul_le_mul_right _ hhigh
      _ = twoTo 32 := by rw [← twoTo_add, hall]

/-! ### Groups -/

section Groups

variable {n : Nat} {part before after : List Char} {groups : List Nat}

/-- One more digit of a group. -/
def groupStep (n : Nat) (c : Char) : Option Nat :=
  (hexValue? c).map (n * 16 + ·)

/-- So many hexadecimal digits are less than their bound. -/
theorem foldlM_groupStep_lt {m : Nat} (h : s.foldlM groupStep m = some n) :
    n < (m + 1) * twoTo (4 * s.length) := by
  induction s generalizing m with
  | nil =>
    cases h
    simp
  | cons c s ih =>
    rw [List.foldlM_cons] at h
    obtain ⟨v, hv, h⟩ := Option.bind_eq_some_iff.mp h
    obtain ⟨d, hd, rfl⟩ := Option.map_eq_some_iff.mp hv
    have hlt := hexValue?_lt hd
    have hdigit : twoTo 4 = 16 := rfl
    calc n < (m * 16 + d + 1) * twoTo (4 * s.length) := ih h
      _ ≤ (m + 1) * 16 * twoTo (4 * s.length) := Nat.mul_le_mul_right _ (by omega)
      _ = (m + 1) * twoTo (4 * (c :: s).length) := by
        rw [List.length_cons, Nat.mul_add, Nat.mul_one, twoTo_add, hdigit, Nat.mul_assoc,
          Nat.mul_comm 16]

theorem group?_lt (h : group? s = some n) : n < twoTo 16 := by
  unfold group? at h
  split at h
  · cases h
  · rename_i hlength
    have hlt := foldlM_groupStep_lt h
    rw [Nat.zero_add, Nat.one_mul] at hlt
    exact Nat.lt_of_lt_of_le hlt (twoTo_le_twoTo (by omega))

theorem hexNat_of_lt (h : n < 16) : hexNat n = [hexDigit n] := by
  rw [hexNat, if_pos h]

theorem hexNat_of_le (h : 16 ≤ n) : hexNat n = hexNat (n / 16) ++ [hexDigit (n % 16)] := by
  rw [hexNat, if_neg (Nat.not_lt.mpr h)]

/-- A group consists of digits. -/
theorem mem_hexNat (h : c ∈ hexNat n) : ∃ v < 16, c = hexDigit v := by
  induction n using Nat.strongRecOn with
  | _ n ih =>
    rcases Nat.lt_or_ge n 16 with hn | hn
    · rw [hexNat_of_lt hn, List.mem_singleton] at h
      exact ⟨n, hn, h⟩
    · rw [hexNat_of_le hn, List.mem_append, List.mem_singleton] at h
      rcases h with h | rfl
      · exact ih _ (Nat.div_lt_self (by omega) (by decide)) h
      · exact ⟨_, Nat.mod_lt _ (by decide), rfl⟩

theorem foldlM_hexNat (n : Nat) : (hexNat n).foldlM groupStep 0 = some n := by
  induction n using Nat.strongRecOn with
  | _ n ih =>
    rcases Nat.lt_or_ge n 16 with hn | hn
    · simp [hexNat_of_lt hn, groupStep, hexValue?_hexDigit n hn]
    · have hdigit := hexValue?_hexDigit (n % 16) (Nat.mod_lt _ (by decide))
      have hlt : n / 16 < n := Nat.div_lt_self (by omega) (by decide)
      simp [hexNat_of_le hn, List.foldlM_append, ih _ hlt, groupStep, hdigit]
      omega

theorem length_hexNat {k : Nat} (h : n < twoTo (4 * k + 4)) :
    0 < (hexNat n).length ∧ (hexNat n).length ≤ k + 1 := by
  induction k generalizing n with
  | zero => simp [hexNat_of_lt h]
  | succ k ih =>
    rcases Nat.lt_or_ge n 16 with hn | hn
    · simp [hexNat_of_lt hn]
    · have hlt : n / 16 < twoTo (4 * k + 4) := by
        rw [twoTo_add] at h
        exact Nat.div_lt_of_lt_mul (Nat.mul_comm _ _ ▸ h)
      have hlength := ih hlt
      rw [hexNat_of_le hn, List.length_append, List.length_singleton]
      omega

/-- **A group is read from its digits.** -/
theorem group?_hexNat (h : n < twoTo 16) : group? (hexNat n) = some n := by
  have hlength := @length_hexNat n 3 h
  rw [group?, if_neg (by rw [List.isEmpty_iff_length_eq_zero]; omega)]
  exact foldlM_hexNat n

theorem hexDigit_ne : ∀ v < 16, hexDigit v ≠ ':' ∧ hexDigit v ≠ '.' := by
  decide

theorem not_mem_hexNat (n : Nat) : ':' ∉ hexNat n ∧ '.' ∉ hexNat n := by
  constructor <;> intro h <;> obtain ⟨v, hv, hc⟩ := mem_hexNat h
  · exact (hexDigit_ne v hv).1 hc.symm
  · exact (hexDigit_ne v hv).2 hc.symm

theorem toList_groupsText (groups : List Nat) :
    (groupsText groups).toList = joined ':' (groups.map hexNat) := by
  rw [groupsText, String.toList_intercalate, List.map_map, ← intercalate_eq_joined]
  simp [Function.comp_def]

/-- Groups are read one behind the other. -/
theorem groups?_map_hexNat (hne : groups ≠ []) (h : ∀ g ∈ groups, g < twoTo 16) :
    groups? (groups.map hexNat) = some groups := by
  induction groups with
  | nil => exact absurd rfl hne
  | cons g more ih =>
    rw [List.forall_mem_cons] at h
    cases more with
    | nil =>
      simp [groups?, (not_mem_hexNat g).2, group?_hexNat h.1]
    | cons next more =>
      have hmore := ih (List.cons_ne_nil _ _) h.2
      rw [List.map_cons] at hmore
      rw [List.map_cons, List.map_cons, groups?, group?_hexNat h.1, hmore]
      · rfl
      · exact List.cons_ne_nil _ _

theorem fields_groupsText (hne : groups ≠ []) :
    fields ':' (groupsText groups).toList = groups.map hexNat := by
  rw [toList_groupsText]
  refine fields_joined (mt List.map_eq_nil_iff.mp hne) fun part hpart => ?_
  obtain ⟨g, -, rfl⟩ := List.mem_map.mp hpart
  exact (not_mem_hexNat g).1

/-- Groups have a digit before and behind each colon. -/
theorem nil_not_mem_fields (hne : groups ≠ []) (h : ∀ g ∈ groups, g < twoTo 16) :
    [] ∉ fields ':' (groupsText groups).toList := by
  rw [fields_groupsText hne]
  intro hnil
  obtain ⟨g, hg, hg'⟩ := List.mem_map.mp hnil
  have hlength := (@length_hexNat g 3 (h g hg)).1
  rw [hg'] at hlength
  exact Nat.lt_irrefl 0 hlength

/-- **The groups on one side of the gap are read from their text**, also if there are none. -/
theorem side?_groupsText (h : ∀ g ∈ groups, g < twoTo 16) :
    side? (groupsText groups).toList = some groups := by
  by_cases hne : groups = []
  · rw [hne, toList_groupsText]
    rfl
  · have htext : (groupsText groups).toList ≠ [] := by
      intro hnil
      have hmem := nil_not_mem_fields hne h
      rw [hnil] at hmem
      exact hmem List.mem_cons_self
    rw [side?, if_neg (by rwa [List.isEmpty_iff]), fields_groupsText hne,
      groups?_map_hexNat hne h]

/-- Where two colons meet, there is nothing between them. -/
theorem nil_mem_fields (before after : List Char) :
    [] ∈ fields ':' (before ++ ':' :: ':' :: after) := by
  rw [fields_append, List.mem_append]
  refine .inr ?_
  rw [← List.nil_append (':' :: after), fields_append]
  exact List.mem_cons_self

/-- **The gap is found behind groups**: no two colons meet in front of it. -/
theorem cutAround?_gap (h : before = [] ∨ [] ∉ fields ':' before) :
    cutAround? [':', ':'] (before ++ [':', ':'] ++ after) = some (before, after) := by
  refine (cutAround?_eq_some_iff (List.cons_ne_nil _ _)).mpr ⟨rfl, fun front back heq => ?_⟩
  rcases h with rfl | hnil
  · exact Nat.zero_le _
  · rw [List.append_assoc, List.append_assoc, List.append_eq_append_iff] at heq
    rcases heq with ⟨m, hfront, -⟩ | ⟨m, hbefore, hm⟩
    · rw [hfront, List.length_append]
      exact Nat.le_add_right _ _
    · -- An earlier gap would begin inside of what is in front and end there or one colon further.
      match m with
      | [] => exact Nat.le_of_eq (by rw [hbefore, List.append_nil])
      | [a] =>
        obtain rfl : ':' = a := (List.cons.inj hm).1
        refine absurd ?_ hnil
        rw [hbefore, fields_append]
        exact List.mem_append_right _ List.mem_cons_self
      | a :: b :: m =>
        obtain rfl : ':' = a := (List.cons.inj hm).1
        obtain rfl : ':' = b := (List.cons.inj (List.cons.inj hm).2).1
        exact absurd (hbefore ▸ nil_mem_fields front m) hnil

/-! ### Addresses of eight groups -/

/-- The longest run is a run of zeros. -/
theorem longestZeroRun_le (groups : List Nat) :
    (longestZeroRun groups).2 ≤ zeroRun (groups.drop (longestZeroRun groups).1) := by
  have hfold (places : List Nat) (best : Nat × Nat) (h : best.2 ≤ zeroRun (groups.drop best.1)) :
      let run := places.foldl
        (fun best i =>
          let n := zeroRun (groups.drop i)
          if best.2 < n then (i, n) else best) best
      run.2 ≤ zeroRun (groups.drop run.1) := by
    induction places generalizing best with
    | nil => exact h
    | cons i places ih =>
      refine ih _ ?_
      dsimp only
      split
      · exact Nat.le_refl _
      · exact h
  exact hfold _ (0, 0) (Nat.zero_le _)

/-- What is left out are zeros. -/
theorem eq_take_append_drop {start length : Nat} (h : length ≤ zeroRun (groups.drop start)) :
    groups = groups.take start ++ List.replicate length 0 ++ groups.drop (start + length) := by
  have hzeros : (groups.drop start).take length = List.replicate length 0 := by
    rw [← @List.takeWhile_append_dropWhile _ (· == 0) (groups.drop start),
      List.take_append_of_le_length h, List.eq_replicate_iff]
    refine ⟨List.length_take_of_le h, fun g hg => ?_⟩
    exact eq_of_beq (List.all_eq_true.mp List.all_takeWhile g (List.mem_of_mem_take hg))
  rw [← hzeros, ← List.drop_drop, List.append_assoc, List.take_append_drop, List.take_append_drop]

theorem ipv4Byte?_le (h : ipv4Byte? s = some n) : n ≤ 255 := by
  unfold ipv4Byte? at h
  split at h
  · obtain ⟨-, hle⟩ := Option.filter_eq_some_iff.mp h
    exact of_decide_eq_true hle
  · cases h

theorem embedded?_lt (h : embedded? s = some groups) : ∀ g ∈ groups, g < twoTo 16 := by
  obtain ⟨bytes, hbytes, h⟩ := Option.bind_eq_some_iff.mp h
  have hle : ∀ b ∈ bytes, b ≤ 255 := by
    intro b hb
    obtain ⟨part, -, hpart⟩ := List.mem_map.mp (mapM_eq_some_iff.mp hbytes ▸ List.mem_map_of_mem hb)
    exact ipv4Byte?_le hpart
  split at h
  · cases h
    have hbound : twoTo 16 = 65536 := rfl
    simp only [List.forall_mem_cons] at hle ⊢
    refine ⟨?_, ?_, List.forall_mem_nil _⟩ <;> omega
  · cases h

theorem groups?_lt {parts : List (List Char)} (h : groups? parts = some groups) :
    ∀ g ∈ groups, g < twoTo 16 := by
  induction parts generalizing groups with
  | nil =>
    cases h
    exact List.forall_mem_nil _
  | cons part rest ih =>
    cases rest with
    | nil =>
      rw [groups?] at h
      split at h
      · exact embedded?_lt h
      · obtain ⟨g, hg, rfl⟩ := Option.map_eq_some_iff.mp h
        exact List.forall_mem_singleton.mpr (group?_lt hg)
    | cons next more =>
      rw [groups?] at h
      · obtain ⟨g, hg, h⟩ := Option.bind_eq_some_iff.mp h
        obtain ⟨gs, hgs, h⟩ := Option.bind_eq_some_iff.mp h
        cases h
        exact List.forall_mem_cons.mpr ⟨group?_lt hg, ih hgs⟩
      · exact List.cons_ne_nil _ _

theorem side?_lt (h : side? s = some groups) : ∀ g ∈ groups, g < twoTo 16 := by
  unfold side? at h
  split at h
  · cases h
    exact List.forall_mem_nil _
  · exact groups?_lt h

/-- An address that was read has eight groups of sixteen bits. -/
theorem ipv6?_bounds (h : ipv6? s = some groups) :
    groups.length = 8 ∧ ∀ g ∈ groups, g < twoTo 16 := by
  unfold ipv6? at h
  split at h
  · obtain ⟨hside, hlength⟩ := Option.filter_eq_some_iff.mp h
    exact ⟨eq_of_beq hlength, side?_lt hside⟩
  · split at h
    · cases h
    · obtain ⟨left, hleft, h⟩ := Option.bind_eq_some_iff.mp h
      obtain ⟨right, hright, h⟩ := Option.bind_eq_some_iff.mp h
      split at h
      · cases h
        refine ⟨?_, fun g hg => ?_⟩
        · simp only [List.length_append, List.length_replicate]
          omega
        · rcases List.mem_append.mp hg with hg | hg
          · rcases List.mem_append.mp hg with hg | hg
            · exact side?_lt hleft g hg
            · rw [List.eq_of_mem_replicate hg]
              decide
          · exact side?_lt hright g hg
      · cases h

/-- Groups have no points. -/
theorem not_mem_groupsText (groups : List Nat) : '.' ∉ (groupsText groups).toList := by
  rw [toList_groupsText]
  intro hmem
  rcases mem_joined hmem with hc | ⟨part, hpart, hc⟩
  · exact absurd hc (by decide)
  · obtain ⟨g, -, rfl⟩ := List.mem_map.mp hpart
    exact (not_mem_hexNat g).2 hc

/-- **The groups of an address are read from its text.** -/
theorem ipv6?_ipv6Text (hlength : groups.length = 8) (h : ∀ g ∈ groups, g < twoTo 16) :
    ipv6? (ipv6Text groups).toList = some groups := by
  have hrun := longestZeroRun_le groups
  rcases hlongest : longestZeroRun groups with ⟨start, length⟩
  rw [hlongest] at hrun
  by_cases hshort : length < 2
  · -- Nothing is left out, and no two colons meet.
    have hne : groups ≠ [] := by
      rintro rfl
      cases hlength
    have hcut : cutAround? [':', ':'] (groupsText groups).toList = none := by
      refine (cutAround?_eq_none_iff (List.cons_ne_nil _ _)).mpr fun front back heq => ?_
      refine nil_not_mem_fields hne h ?_
      rw [heq, List.append_assoc]
      exact nil_mem_fields front back
    have htext : ipv6Text groups = groupsText groups := by
      simp only [ipv6Text, hlongest, if_pos hshort]
    rw [ipv6?, htext, hcut]
    simp only [side?_groupsText h]
    simp [hlength]
  · -- The width of the gap is what is missing of eight groups.
    have hsplit := eq_take_append_drop hrun
    have htext : (ipv6Text groups).toList = (groupsText (groups.take start)).toList ++ [':', ':'] ++
        (groupsText (groups.drop (start + length))).toList := by
      simp only [ipv6Text, hlongest, if_neg hshort, String.toList_append]
      rfl
    have hleft : ∀ g ∈ groups.take start, g < twoTo 16 := fun g hg => h g (List.mem_of_mem_take hg)
    have hright : ∀ g ∈ groups.drop (start + length), g < twoTo 16 :=
      fun g hg => h g (List.mem_of_mem_drop hg)
    have hgap : (groupsText (groups.take start)).toList = [] ∨
        [] ∉ fields ':' (groupsText (groups.take start)).toList := by
      by_cases hne : groups.take start = []
      · left
        rw [hne, toList_groupsText]
        rfl
      · exact .inr (nil_not_mem_fields hne hleft)
    have hpoint : (groupsText (groups.take start)).toList.contains '.' = false := by
      simpa using not_mem_groupsText _
    have hcount := congrArg List.length hsplit
    simp only [List.length_append, List.length_replicate] at hcount
    rw [ipv6?, htext, cutAround?_gap hgap]
    simp only [hpoint, side?_groupsText hleft, side?_groupsText hright, Option.bind_eq_bind,
      Option.bind_some, Bool.false_eq_true, if_false]
    have hzeros : 8 - (groups.take start).length - (groups.drop (start + length)).length =
        length := by omega
    rw [if_pos (by omega), hzeros, ← hsplit]

end Groups

end RangeSync.Url
