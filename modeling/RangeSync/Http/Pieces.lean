import RangeSync.Http.Net

/-!
# Pieces of bytes

Bytes arrive in pieces, and a reader takes from the piece at hand, never from two pieces at once.
Here the pieces are cut: `skipped` and `limited` leave out bytes at the beginning and at the end,
and `portions` says what a reader sees that takes so many bytes at a time. None of them changes the
order of the bytes.
-/

namespace RangeSync.Http

/-- The pieces without the first bytes. -/
def skipped : Nat → List (List UInt8) → List (List UInt8)
  | _, [] => []
  | count, piece :: rest =>
    if count < piece.length then piece.drop count :: rest
    else skipped (count - piece.length) rest

/-- The pieces up to a number of bytes. -/
def limited : Nat → List (List UInt8) → List (List UInt8)
  | _, [] => []
  | count, piece :: rest => piece.take count :: limited (count - piece.length) rest

/-- The piece in portions of the same size, of which the last may be smaller. Portions of no bytes
are none. -/
def portionsOf (size : Nat) (piece : List UInt8) : List (List UInt8) :=
  if size = 0 ∨ piece = [] then [] else piece.take size :: portionsOf size (piece.drop size)
termination_by piece.length
decreasing_by
  rename_i h
  have := List.length_pos_iff.2 (not_or.1 h).2
  simp only [List.length_drop]
  omega

/-- What a reader sees that takes at most `size` bytes at a time. -/
def portions (size : Nat) (pieces : List (List UInt8)) : List (List UInt8) :=
  pieces.flatMap (portionsOf size)

theorem flatten_skipped (count : Nat) (pieces : List (List UInt8)) :
    (skipped count pieces).flatten = pieces.flatten.drop count := by
  induction pieces generalizing count with
  | nil => simp [skipped]
  | cons piece rest ih =>
    unfold skipped
    split
    · rename_i h
      rw [List.flatten_cons, List.flatten_cons, List.drop_append_of_le_length (Nat.le_of_lt h)]
    · rename_i h
      rw [ih, List.flatten_cons, List.drop_append, List.drop_of_length_le (Nat.le_of_not_lt h),
        List.nil_append]

theorem flatten_limited (count : Nat) (pieces : List (List UInt8)) :
    (limited count pieces).flatten = pieces.flatten.take count := by
  induction pieces generalizing count with
  | nil => simp [limited]
  | cons piece rest ih => simp [limited, ih, List.take_append]

theorem flatten_portionsOf {size : Nat} (h : 0 < size) (piece : List UInt8) :
    (portionsOf size piece).flatten = piece := by
  fun_induction portionsOf size piece with
  | case1 piece hn =>
    rcases hn with hn | hn
    · omega
    · simp [hn]
  | case2 piece hn ih => rw [List.flatten_cons, ih, List.take_append_drop]

theorem length_of_mem_portionsOf {size : Nat} {piece portion : List UInt8}
    (h : portion ∈ portionsOf size piece) : 1 ≤ portion.length ∧ portion.length ≤ size := by
  fun_induction portionsOf size piece with
  | case1 piece hn => cases h
  | case2 piece hn ih =>
    rcases List.mem_cons.mp h with rfl | h
    · have hpos := List.length_pos_iff.mpr (not_or.mp hn).2
      have hsize := Nat.pos_of_ne_zero (not_or.mp hn).1
      rw [List.length_take]
      omega
    · exact ih h

/-- **What a reader sees at a time** is something, and no more than it takes. -/
theorem length_of_mem_portions {size : Nat} {pieces : List (List UInt8)} {portion : List UInt8}
    (h : portion ∈ portions size pieces) : 1 ≤ portion.length ∧ portion.length ≤ size := by
  obtain ⟨piece, _, hportion⟩ := List.mem_flatMap.mp h
  exact length_of_mem_portionsOf hportion

/-- **A reader sees all bytes**, in order, however many it takes at a time. -/
theorem flatten_portions {size : Nat} (h : 0 < size) (pieces : List (List UInt8)) :
    (portions size pieces).flatten = pieces.flatten := by
  induction pieces with
  | nil => rfl
  | cons piece rest ih =>
    rw [portions] at ih ⊢
    rw [List.flatMap_cons, List.flatten_append, ih, flatten_portionsOf h, List.flatten_cons]

end RangeSync.Http
