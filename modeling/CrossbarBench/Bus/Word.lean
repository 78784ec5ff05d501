/-! Bus words and their byte lanes. A write replaces only the lanes whose byte enable
is set; lane `i` holds bits `8 i` to `8 i + 7`. -/

namespace CrossbarBench

abbrev Word := BitVec 32

/-- One bit for each byte lane. A word has four lanes, so the upper four bits select nothing. -/
abbrev ByteEnables := BitVec 8

theorem ByteEnables.toNat_trim_lt (enables : ByteEnables) : (enables &&& 0xF).toNat < 16 := by
  rw [BitVec.toNat_and]
  exact Nat.lt_of_le_of_lt Nat.and_le_right (by decide)

namespace Word

def lane (w : Word) (i : Nat) : BitVec 8 := w.extractLsb' (8 * i) 8

/-- The word with the enabled lanes of `new` and the other lanes of `old`. -/
def mergeLanes (old new : Word) (enables : ByteEnables) : Word :=
  let pick (i : Nat) : BitVec 8 := if enables.getLsbD i then lane new i else lane old i
  pick 3 ++ pick 2 ++ pick 1 ++ pick 0

/-- The word cut to its low `width` bits. -/
def truncate (width : Nat) (w : Word) : Word := (w.setWidth width).setWidth 32

theorem extract_append_low {w : Nat} (x : BitVec w) (y : BitVec 8) :
    (x ++ y).extractLsb' 0 8 = y := by
  ext j hj
  simp [BitVec.getLsbD_append, hj]

theorem extract_append_high {w : Nat} (x : BitVec w) (y : BitVec 8) (k : Nat) :
    (x ++ y).extractLsb' (8 + k) 8 = x.extractLsb' k 8 := by
  ext j hj
  simp [BitVec.getLsbD_append, Nat.add_assoc]

theorem lane_append (a b c d : BitVec 8) (i : Nat) (hi : i < 4) :
    lane (a ++ b ++ c ++ d) i =
      if i = 0 then d else if i = 1 then c else if i = 2 then b else a := by
  have h : i = 0 ∨ i = 1 ∨ i = 2 ∨ i = 3 := by omega
  rcases h with rfl | rfl | rfl | rfl
  · exact extract_append_low _ d
  · exact (extract_append_high _ d 0).trans (extract_append_low _ c)
  · exact (extract_append_high _ d 8).trans
      ((extract_append_high _ c 0).trans (extract_append_low _ b))
  · refine (extract_append_high _ d 16).trans ((extract_append_high _ c 8).trans
      ((extract_append_high _ b 0).trans ?_))
    simp

theorem lane_mergeLanes (old new : Word) (enables : ByteEnables) (i : Nat) (hi : i < 4) :
    lane (mergeLanes old new enables) i =
      if enables.getLsbD i then lane new i else lane old i := by
  have h : i = 0 ∨ i = 1 ∨ i = 2 ∨ i = 3 := by omega
  rw [mergeLanes, lane_append _ _ _ _ _ hi]
  rcases h with rfl | rfl | rfl | rfl <;> rfl

/-- A word is its four lanes. -/
theorem eq_of_lane_eq {v w : Word} (h : ∀ i < 4, lane v i = lane w i) : v = w := by
  ext j hj
  have := congrArg (·.getLsbD (j % 8)) (h (j / 8) (by omega))
  simp only [lane, BitVec.getLsbD_extractLsb', show j % 8 < 8 by omega, decide_true,
    Bool.true_and, show 8 * (j / 8) + j % 8 = j by omega] at this
  simpa [BitVec.getLsbD_eq_getElem hj] using this

theorem truncate_truncate (width : Nat) (w : Word) :
    (w.truncate width).truncate width = w.truncate width := by
  ext j hj
  cases h : decide (j < width) <;> simp [truncate, h, hj]

end Word

end CrossbarBench
