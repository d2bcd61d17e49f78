import RangeSync.Disk.Basic

/-!
# Bytes laid over bytes

An output is a row of zeros that is overlaid with data, range after range. Ranges may overlap and
come in any order, so what the output holds in the end is a fold, `RangeSync.Disk.patched`.

* **The last patch wins** (`RangeSync.Disk.getElem?_patched`): which byte an offset has in the end
  depends on the last patch over it, and on nothing else.
* **Patches of a file that cover it make the file** (`RangeSync.Disk.patched_eq_of_covers`), since
  then the last patch over an offset is as good as any other.
* **Patches that are apart may be laid in any order** (`RangeSync.Disk.patched_perm`), since then
  there is at most one over an offset.
-/

namespace RangeSync.Disk

variable {content data more file : List UInt8} {position : Nat}

/-! ### One patch -/

@[simp] theorem overlay_nil : overlay content position [] = content :=
  rfl

/-- What is laid over nothing is all there is. -/
theorem overlay_of_nil : overlay [] 0 data = data := by
  unfold overlay
  split
  · rename_i h
    exact (List.isEmpty_iff.mp h).symm
  · simp

theorem overlay_of_ne_nil (h : data ≠ []) :
    overlay content position data =
      content.take position ++ List.replicate (position - content.length) 0 ++ data ++
        content.drop (position + data.length) := by
  rw [overlay, if_neg (by simpa using h)]

/-- The bytes in front of the data are as many as the position says. -/
theorem length_front :
    (content.take position ++ List.replicate (position - content.length) (0 : UInt8)).length =
      position := by
  rw [List.length_append, List.length_take, List.length_replicate]
  omega

/-- Bytes that are laid over others leave the length as it is, if they end inside. -/
theorem length_overlay (h : position + data.length ≤ content.length) :
    (overlay content position data).length = content.length := by
  by_cases hd : data = []
  · rw [hd, overlay_nil]
  · rw [overlay_of_ne_nil hd, List.length_append, List.length_append, length_front,
      List.length_drop]
    omega

theorem getElem?_overlay (h : position + data.length ≤ content.length) (i : Nat) :
    (overlay content position data)[i]? =
      if position ≤ i ∧ i < position + data.length then data[i - position]? else content[i]? := by
  by_cases hd : data = []
  · subst hd
    rw [overlay_nil, if_neg]
    rintro ⟨h1, h2⟩
    rw [List.length_nil] at h2
    omega
  · rw [overlay_of_ne_nil hd]
    by_cases h1 : i < position
    · have hfront : i < (content.take position ++
          List.replicate (position - content.length) (0 : UInt8)).length := by rwa [length_front]
      have htake : i < (content.take position).length := by
        rw [List.length_take]
        omega
      rw [if_neg (by omega), List.append_assoc, List.getElem?_append_left hfront,
        List.getElem?_append_left htake, List.getElem?_take, if_pos h1]
    · by_cases h2 : i < position + data.length
      · rw [if_pos ⟨by omega, h2⟩, List.append_assoc, List.getElem?_append_right
          (by rw [length_front]; omega), length_front, List.getElem?_append_left (by omega)]
      · rw [if_neg (by omega), List.getElem?_append_right
          (by rw [List.length_append, length_front]; omega), List.length_append, length_front,
          List.getElem?_drop]
        congr 1
        omega

/-- Zeros that are laid over zeros. -/
theorem overlay_zeros {length count : Nat} (h : position + count ≤ length) :
    overlay (List.replicate length 0) position (List.replicate count 0) =
      List.replicate length 0 := by
  refine List.ext_getElem? fun i => ?_
  rw [getElem?_overlay (by rwa [List.length_replicate, List.length_replicate])]
  split
  · rename_i hin
    rw [List.length_replicate] at hin
    rw [List.getElem?_replicate_of_lt (by omega), List.getElem?_replicate_of_lt (by omega)]
  · rfl

/-- **Data that is written in pieces** is written as a whole. -/
theorem overlay_overlay :
    overlay (overlay content position data) (position + data.length) more =
      overlay content position (data ++ more) := by
  by_cases hd : data = []
  · subst hd
    rfl
  by_cases hm : more = []
  · rw [hm, overlay_nil, List.append_nil]
  · rw [overlay_of_ne_nil hm, overlay_of_ne_nil hd, overlay_of_ne_nil (by simp [hd])]
    have hfront := @length_front content position
    generalize content.take position ++ List.replicate (position - content.length) (0 : UInt8) =
      front at hfront
    have hlen : (front ++ data).length = position + data.length := by
      rw [List.length_append, hfront]
    have hgap : position + data.length -
        (front ++ data ++ content.drop (position + data.length)).length = 0 := by
      rw [List.length_append, hlen]
      omega
    rw [hgap, List.replicate_zero, List.append_nil, List.take_left' hlen, ← List.drop_drop,
      List.drop_left' hlen, List.drop_drop, List.length_append, Nat.add_assoc]
    simp only [List.append_assoc]

/-! ### Files that are extended -/

/-- An empty file is extended with zeros. -/
theorem resized_nil (length : Nat) : resized [] length = List.replicate length 0 := by
  simp [resized]

/-! ### Many patches -/

/-- Data for a position. -/
abbrev Patch := Nat × List UInt8

/-- The bytes with patches laid over them, one after the other. -/
def patched (content : List UInt8) (patches : List Patch) : List UInt8 :=
  patches.foldl (fun bytes patch => overlay bytes patch.1 patch.2) content

variable {patches patches' : List Patch} {patch : Patch}

@[simp] theorem patched_nil : patched content [] = content :=
  rfl

@[simp] theorem patched_cons :
    patched content (patch :: patches) = patched (overlay content patch.1 patch.2) patches :=
  rfl

theorem patched_append :
    patched content (patches ++ patches') = patched (patched content patches) patches' :=
  List.foldl_append

/-- The patch ends inside of a file of the given length. -/
def Patch.Fits (length : Nat) (patch : Patch) : Prop :=
  patch.1 + patch.2.length ≤ length

/-- The offset is in the patch. -/
def Patch.Holds (patch : Patch) (i : Nat) : Prop :=
  patch.1 ≤ i ∧ i < patch.1 + patch.2.length

instance (patch : Patch) (i : Nat) : Decidable (patch.Holds i) :=
  inferInstanceAs (Decidable (_ ∧ _))

/-- The patch is a part of the file. -/
def Patch.IsOf (file : List UInt8) (patch : Patch) : Prop :=
  patch.2 = (file.drop patch.1).take patch.2.length

theorem length_patched (h : ∀ patch ∈ patches, patch.Fits content.length) :
    (patched content patches).length = content.length := by
  induction patches generalizing content with
  | nil => rfl
  | cons patch rest ih =>
    have hlen : (overlay content patch.1 patch.2).length = content.length :=
      length_overlay (h patch List.mem_cons_self)
    rw [patched_cons, ih, hlen]
    intro other ho
    rw [hlen]
    exact h other (List.mem_cons_of_mem _ ho)

/-- The last of the patches that the offset is in. -/
def topmost? : List Patch → Nat → Option Patch
  | [], _ => none
  | patch :: rest, i => (topmost? rest i).or (if patch.Holds i then some patch else none)

theorem topmost?_eq_some {i : Nat} (h : topmost? patches i = some patch) :
    patch ∈ patches ∧ patch.Holds i := by
  induction patches with
  | nil => cases h
  | cons first rest ih =>
    rcases Option.or_eq_some_iff.mp h with h | ⟨_, h⟩
    · exact ⟨List.mem_cons_of_mem _ (ih h).1, (ih h).2⟩
    · split at h
      · rename_i hfirst
        cases h
        exact ⟨List.mem_cons_self, hfirst⟩
      · cases h

theorem topmost?_eq_none {i : Nat} (h : topmost? patches i = none) :
    ∀ patch ∈ patches, ¬ patch.Holds i := by
  induction patches with
  | nil => exact nofun
  | cons first rest ih =>
    obtain ⟨hrest, hfirst⟩ := Option.or_eq_none_iff.mp h
    intro patch hmem
    rcases List.mem_cons.mp hmem with rfl | hmem
    · intro hin
      rw [if_pos hin] at hfirst
      cases hfirst
    · exact ih hrest patch hmem

/-- **The last patch wins**: an offset has the byte that the last patch over it gives to it, and it
keeps its own if there is none. -/
theorem getElem?_patched (hfits : ∀ patch ∈ patches, patch.Fits content.length) (i : Nat) :
    (patched content patches)[i]? =
      match topmost? patches i with
      | some patch => patch.2[i - patch.1]?
      | none => content[i]? := by
  induction patches generalizing content with
  | nil => rfl
  | cons first rest ih =>
    have hfirst : first.Fits content.length := hfits first List.mem_cons_self
    rw [patched_cons, ih fun patch hmem => ?_, topmost?]
    · rcases topmost? rest i with _ | patch
      · rw [Option.none_or]
        dsimp only
        rw [getElem?_overlay hfirst]
        by_cases hin : first.Holds i
        · rw [if_pos hin, if_pos (show _ ∧ _ from hin)]
        · rw [if_neg hin, if_neg (show ¬(_ ∧ _) from hin)]
      · rfl
    · rw [length_overlay hfirst]
      exact hfits patch (List.mem_cons_of_mem _ hmem)

/-- The byte that patches give to an offset of a row of zeros: that of the last patch over it. -/
def byteOf (patches : List Patch) (i : Nat) : UInt8 :=
  ((topmost? patches i).bind fun patch => patch.2[i - patch.1]?).getD 0

theorem getElem?_patched_zeros {length i : Nat} (hfits : ∀ patch ∈ patches, patch.Fits length)
    (hi : i < length) :
    (patched (List.replicate length 0) patches)[i]? = some (byteOf patches i) := by
  rw [getElem?_patched (by rwa [List.length_replicate]), byteOf]
  split
  · rename_i patch htop
    obtain ⟨_, hfirst, hlast⟩ := topmost?_eq_some htop
    rw [htop, Option.bind_some, List.getElem?_eq_getElem (by omega), Option.getD_some]
  · rename_i htop
    rw [htop, List.getElem?_replicate, if_pos hi]
    rfl

/-- What a patch of a file gives to an offset is what the file has there. -/
theorem Patch.IsOf.getElem? {i : Nat} (h : patch.IsOf file) (hin : patch.Holds i) :
    patch.2[i - patch.1]? = file[i]? := by
  obtain ⟨hfirst, hlast⟩ := hin
  rw [h, List.getElem?_take, if_pos (by omega), List.getElem?_drop]
  congr 1
  omega

/-- **Patches of a file that cover it make the file**, whatever they are laid over. -/
theorem patched_eq_of_covers (hlen : content.length = file.length)
    (hfits : ∀ patch ∈ patches, patch.Fits file.length)
    (hfile : ∀ patch ∈ patches, patch.IsOf file)
    (hcover : ∀ i, i < file.length → ∃ patch ∈ patches, patch.Holds i) :
    patched content patches = file := by
  refine List.ext_getElem? fun i => ?_
  rw [getElem?_patched (fun patch hp => hlen ▸ hfits patch hp)]
  split
  · rename_i patch htop
    obtain ⟨hmem, hin⟩ := topmost?_eq_some htop
    exact (hfile patch hmem).getElem? hin
  · rename_i htop
    by_cases hi : i < file.length
    · obtain ⟨patch, hmem, hin⟩ := hcover i hi
      exact absurd hin (topmost?_eq_none htop patch hmem)
    · rw [List.getElem?_eq_none (by omega), List.getElem?_eq_none (by omega)]

/-- **Patches of a file that are laid over the file leave it as it is.** -/
theorem patched_self (hfits : ∀ patch ∈ patches, patch.Fits file.length)
    (hfile : ∀ patch ∈ patches, patch.IsOf file) : patched file patches = file := by
  refine List.ext_getElem? fun i => ?_
  rw [getElem?_patched hfits]
  split
  · rename_i patch htop
    obtain ⟨hmem, hin⟩ := topmost?_eq_some htop
    exact (hfile patch hmem).getElem? hin
  · rfl

/-! ### Patches in any order -/

/-- No offset is in both patches. -/
def Patch.IsApart (patch patch' : Patch) : Prop :=
  ∀ i, patch.Holds i → ¬ patch'.Holds i

theorem Patch.IsApart.symm {patch patch' : Patch} (h : patch.IsApart patch') :
    patch'.IsApart patch :=
  fun i hin hin' => h i hin' hin

/-- Of two patches that are apart, either one may be laid first. -/
theorem overlay_comm {patch' : Patch} (h : patch.Fits content.length)
    (h' : patch'.Fits content.length) (hapart : patch.IsApart patch') :
    overlay (overlay content patch.1 patch.2) patch'.1 patch'.2 =
      overlay (overlay content patch'.1 patch'.2) patch.1 patch.2 := by
  refine List.ext_getElem? fun i => ?_
  rw [getElem?_overlay (by rw [length_overlay h]; exact h'), getElem?_overlay h,
    getElem?_overlay (by rw [length_overlay h']; exact h), getElem?_overlay h']
  by_cases hin : patch.Holds i
  · have hpatch : patch.1 ≤ i ∧ i < patch.1 + patch.2.length := hin
    rw [if_neg (show ¬ (_ ∧ _) from hapart i hin), if_pos hpatch, if_pos hpatch]
  · rw [if_neg (show ¬ (_ ∧ _) from hin), if_neg (show ¬ (_ ∧ _) from hin)]

/-- **Patches that are apart from each other make the same in any order.** -/
theorem patched_perm (hperm : patches.Perm patches')
    (hfits : ∀ patch ∈ patches, patch.Fits content.length)
    (hapart : patches.Pairwise Patch.IsApart) :
    patched content patches = patched content patches' := by
  induction hperm generalizing content with
  | nil => rfl
  | cons patch _ ih =>
    rw [patched_cons, patched_cons]
    refine ih (fun other ho => ?_) hapart.of_cons
    rw [length_overlay (hfits patch List.mem_cons_self)]
    exact hfits other (List.mem_cons_of_mem _ ho)
  | swap first second rest =>
    have hfirst := hfits first (by simp)
    have hsecond := hfits second (by simp)
    rw [patched_cons, patched_cons, patched_cons, patched_cons,
      overlay_comm hsecond hfirst (List.rel_of_pairwise_cons hapart List.mem_cons_self)]
  | trans hperm _ ih ih' =>
    refine (ih hfits hapart).trans (ih' (fun patch hp => hfits patch (hperm.mem_iff.mpr hp)) ?_)
    exact hperm.pairwise hapart Patch.IsApart.symm

/-! ### Patches that were begun to be laid -/

/-- The patch is laid as far as the other one has bytes. -/
def Patch.StartsAs (patch whole : Patch) : Prop :=
  patch.1 = whole.1 ∧ patch.2 <+: whole.2

/-- **The first of the patches were laid**, and of the next one perhaps the beginning. -/
inductive Begun : List Patch → List Patch → Prop
  | nothing {wholes : List Patch} : Begun [] wholes
  | part {patch whole : Patch} {rest : List Patch} :
      patch.StartsAs whole → Begun [patch] (whole :: rest)
  | next {whole : Patch} {patches rest : List Patch} :
      Begun patches rest → Begun (whole :: patches) (whole :: rest)

end RangeSync.Disk
