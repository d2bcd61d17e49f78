import RangeSync.Proofs.Addresses
import RangeSync.Proofs.Names
import RangeSync.Proofs.Utf8

/-!
# Hosts are read back from their text

A host has one text, but the text that it was read from may have been another one: a name in other
letters, an address in octal or with fewer parts, eight groups with their zeros written out. So what
is read back is not a matter of the reader alone. **The text of a host that was read is read as that
host again** (`RangeSync.Url.specialHost_toText`), for three reasons: the ASCII form of a name stays
as it is, four bytes in decimal are the address that they were taken from, and eight groups can be
counted again when the longest run of zeros is left out.

The text holds nothing that could end the authority it stands in
(`RangeSync.Url.Host.IsShown`).
-/

namespace RangeSync.Url

open Text Numeric Idna

variable {c : Char} {s name : List Char} {host : Host}

/-! ### Names -/

theorem decodeBytes_of_not_mem {bytes : List UInt8} (h : 0x25 ∉ bytes) :
    decodeBytes bytes = bytes := by
  fun_induction decodeBytes bytes with
  | case1 => exact absurd List.mem_cons_self h
  | case2 => exact absurd List.mem_cons_self h
  | case3 a b c rest ha ih =>
    rw [ih fun hmem => h (List.mem_cons_of_mem _ hmem)]
  | case4 => rfl

/-- Without percent signs, a text stands for itself. -/
theorem decode?_percentDecoded (h : '%' ∉ s) :
    decode? (percentDecoded s) = some (String.ofList s) := by
  have hbytes : 0x25 ∉ encode (String.ofList s) := by
    intro hmem
    have hchar := mem_of_mem_encode hmem (by decide)
    rw [String.toList_ofList] at hchar
    exact h hchar
  rw [percentDecoded, decodeBytes_of_not_mem hbytes, decode?_encode]

/-- A name in its ASCII form is a domain, or it spells an address. -/
theorem specialHost_of_toAscii? {name : String} (h : toAscii? name = some name)
    (hchars : ∀ c ∈ name.toList, isForbidden c = false) (hne : name.toList ≠ []) :
    (endsInNumber name.toList = false → specialHost name.toList = .ok (.domain name)) ∧
      ∀ address, endsInNumber name.toList = true → ipv4? name.toList = some address →
        specialHost name.toList = .ok (.ipv4 address) := by
  have hpercent : '%' ∉ name.toList := fun hmem => absurd (hchars _ hmem) (by decide)
  have hbracket : name.toList.head? ≠ some '[' := by
    intro hhead
    exact absurd (hchars _ (List.mem_of_mem_head? hhead)) (by decide)
  have hempty : name.isEmpty = false := by simpa using hne
  rw [specialHost, if_neg hbracket, decode?_percentDecoded hpercent]
  simp only [String.ofList_toList, Option.bind_some, h, hempty]
  constructor
  · intro hnumber
    simp only [hnumber, Bool.false_eq_true, if_false]
  · intro address hnumber haddress
    simp only [hnumber, haddress, Bool.false_eq_true, if_false, if_true]

/-- What is known of a digit that stands in a name. -/
theorem of_isDigit (h : isDigit c = true) :
    IsPlain c ∧ isForbidden c = false ∧ c ≠ 'x' ∧ direction c = .europeanNumber :=
  forall_isDigit (P := fun c => IsPlain c ∧ isForbidden c = false ∧ c ≠ 'x' ∧
    direction c = .europeanNumber) (by decide) h

/-- A label of digits is its own ASCII form. -/
theorem label?_of_isDigit (h : ∀ c ∈ s, isDigit c = true) : label? s = some ⟨s, s⟩ := by
  have hplain : ∀ c ∈ s, IsPlain c := fun c hc => (of_isDigit (h c hc)).1
  have hprefix : acePrefix.isPrefixOf s = false := by
    cases s with
    | nil => rfl
    | cons c rest =>
      have hne := (of_isDigit (h c List.mem_cons_self)).2.2.1
      rw [acePrefix, List.isPrefixOf, beq_eq_false_iff_ne.mpr hne.symm, Bool.false_and]
  have hbasic : s.all Punycode.isBasic = true :=
    List.all_eq_true.mpr fun c hc => (hplain c hc).isBasic
  rw [label?, isStable_of_isPlain hplain, hprefix, hbasic]
  rfl

/-- Digits with points between them are their own ASCII form. -/
theorem toAscii?_joined {parts : List (List Char)} (hne : parts ≠ [])
    (h : ∀ part ∈ parts, ∀ c ∈ part, isDigit c = true) :
    toAscii? (String.ofList (joined '.' parts)) = some (String.ofList (joined '.' parts)) := by
  have hchars : ∀ c ∈ joined '.' parts, IsPlain c ∧ isForbidden c = false := by
    intro c hc
    rcases mem_joined hc with rfl | ⟨part, hpart, hc⟩
    · decide
    · exact ⟨(of_isDigit (h part hpart c hc)).1, (of_isDigit (h part hpart c hc)).2.1⟩
  have hfields : fields '.' (joined '.' parts) = parts := fields_joined hne fun part hpart hdot =>
    absurd (h part hpart '.' hdot) (by decide)
  have hlabels : parts.mapM label? = some (parts.map fun part => ⟨part, part⟩) := by
    rw [mapM_eq_some_iff, List.map_map]
    exact List.map_congr_left fun part hpart => label?_of_isDigit (h part hpart)
  have hrightward : (parts.map fun part => Label.mk part part).any (isRightward ·.shown) =
      false := by
    rw [List.any_map, List.any_eq_false]
    intro part hpart
    rw [Function.comp_apply, isRightward, Bool.not_eq_true, List.any_eq_false]
    intro c hc
    rw [(of_isDigit (h part hpart c hc)).2.2.2]
    decide
  have hascii : (parts.map fun part => Label.mk part part).map (·.ascii) = parts := by
    rw [List.map_map]
    exact List.map_id _
  have hforbidden : (joined '.' parts).any isForbidden = false :=
    List.any_eq_false.mpr fun c hc => by rw [(hchars c hc).2]; exact Bool.false_ne_true
  obtain ⟨hmapped, hcomposed⟩ := mapM_mapped_of_isPlain fun c hc => (hchars c hc).1
  rw [toAscii?, String.toList_ofList, hmapped]
  simp only [Option.bind_eq_bind, Option.bind_some, hcomposed, hfields, hlabels, hrightward, hascii,
    hforbidden, Bool.false_and, Bool.false_eq_true, if_false]

/-! ### Hosts -/

/-- The characters of a host as it is printed: they stand in a name, or they stand in brackets, where
colons may be among them. -/
def IsHostText (s : List Char) : Prop :=
  s ≠ [] ∧ ((∀ c ∈ s, isForbidden c = false) ∨
    ∃ inner, s = '[' :: inner ++ [']'] ∧ ∀ c ∈ inner, c = ':' ∨ isForbidden c = false)

theorem specialHost_ipv4Text {address : Nat} (h : address < twoTo 32) :
    specialHost (ipv4Text address).toList = .ok (.ipv4 address) ∧
      IsHostText (ipv4Text address).toList := by
  have hdigits : ∀ part ∈ ipv4Fields address, ∀ c ∈ part, isDigit c = true :=
    fun part hpart => (isDigit_of_mem_ipv4Fields hpart).2
  have hascii := toAscii?_joined (ipv4Fields_ne_nil address) hdigits
  rw [← toList_ipv4Text, String.ofList_toList] at hascii
  have hchars : ∀ c ∈ (ipv4Text address).toList, isForbidden c = false := by
    intro c hc
    rw [toList_ipv4Text] at hc
    rcases mem_joined hc with rfl | ⟨part, hpart, hc⟩
    · decide
    · exact (of_isDigit (hdigits part hpart c hc)).2.1
  have hne : (ipv4Text address).toList ≠ [] := by
    intro hnil
    have hnumber := endsInNumber_ipv4Text address
    rw [hnil] at hnumber
    exact absurd hnumber (by decide)
  have hread := (specialHost_of_toAscii? hascii hchars hne).2 address
    (endsInNumber_ipv4Text address) (ipv4?_ipv4Text h)
  exact ⟨hread, hne, .inl hchars⟩

/-- The characters of eight groups. -/
theorem mem_ipv6Text {groups : List Nat} (h : c ∈ (ipv6Text groups).toList) :
    c = ':' ∨ isForbidden c = false := by
  have hdigits : ∀ v < 16, isForbidden (hexDigit v) = false := by decide
  have hgroups (more : List Nat) (hc : c ∈ (groupsText more).toList) :
      c = ':' ∨ isForbidden c = false := by
    rw [toList_groupsText] at hc
    rcases mem_joined hc with rfl | ⟨part, hpart, hc⟩
    · exact .inl rfl
    · obtain ⟨g, -, rfl⟩ := List.mem_map.mp hpart
      obtain ⟨v, hv, rfl⟩ := mem_hexNat hc
      exact .inr (hdigits v hv)
  rcases hlongest : longestZeroRun groups with ⟨start, length⟩
  simp only [ipv6Text, hlongest] at h
  split at h
  · exact hgroups _ h
  · rw [String.toList_append, String.toList_append, List.mem_append, List.mem_append] at h
    rcases h with (h | h) | h
    · exact hgroups _ h
    · exact .inl (List.mem_singleton.mp (by simpa using h))
    · exact hgroups _ h

theorem bracketedHost_toText (h : bracketedHost s = .ok host) :
    specialHost host.toText.toList = .ok host ∧ IsHostText host.toText.toList := by
  have hgroups : ∃ text groups, ipv6? text = some groups ∧ host = .ipv6 groups := by
    unfold bracketedHost at h
    split at h
    · split at h
      · split at h
        · rename_i groups hgroups
          exact ⟨_, groups, hgroups, (Except.ok.inj h).symm⟩
        · cases h
      · cases h
    · cases h
  obtain ⟨text, groups, hgroups, rfl⟩ := hgroups
  obtain ⟨hlength, hlt⟩ := ipv6?_bounds hgroups
  have htext : (Host.ipv6 groups).toText.toList = '[' :: (ipv6Text groups).toList ++ [']'] := by
    rw [Host.toText, String.toList_append, String.toList_append]
    rfl
  rw [htext]
  refine ⟨?_, List.cons_ne_nil _ _, .inr ⟨_, rfl, fun c hc => mem_ipv6Text hc⟩⟩
  have hhead : ('[' :: (ipv6Text groups).toList ++ [']']).head? = some '[' := rfl
  have hlast : ((ipv6Text groups).toList ++ [']']).getLast? = some ']' := List.getLast?_concat
  rw [specialHost, if_pos hhead, List.cons_append, bracketedHost, if_pos hlast,
    List.dropLast_concat, ipv6?_ipv6Text hlength hlt]

/-- **The text of a host that was read is read as that host.** -/
theorem specialHost_toText (h : specialHost s = .ok host) :
    specialHost host.toText.toList = .ok host ∧ IsHostText host.toText.toList := by
  unfold specialHost at h
  split at h
  · exact bracketedHost_toText h
  · split at h
    · cases h
    · rename_i name hname
      obtain ⟨text, -, hascii⟩ := Option.bind_eq_some_iff.mp hname
      -- The name is in ASCII already, so only the two questions after that are asked again.
      obtain ⟨hself, hchars⟩ := toAscii?_self hascii
      split at h
      · cases h
      · rename_i hempty
        replace hempty : name.toList ≠ [] := by simpa using hempty
        split at h
        · split at h
          · rename_i address haddress
            cases h
            exact specialHost_ipv4Text (ipv4?_lt haddress)
          · cases h
        · rename_i hnumber
          cases h
          have hforbidden := fun c hc => (hchars c hc).2
          have hread := (specialHost_of_toAscii? hself hforbidden hempty).1
            (Bool.not_eq_true _ ▸ hnumber)
          exact ⟨hread, hempty, .inl hforbidden⟩

end RangeSync.Url
