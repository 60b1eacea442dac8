import Mathlib

/-!
# Octets

The leading bits of a list of octets, highest first, and the octets of a text.

* `bit`: a bit, counted from the highest one of the first octet;
* `maskOctet`, `and_maskOctet_eq_iff`: one octet under a mask keeps its leading bits;
* **`zipWith_and_mask_eq_iff`**: two lists agree under a mask exactly when their leading bits do;
* `toUTF8_of_fromUTF8?`, `fromUTF8?_toUTF8`: a text and its octets.
-/

namespace Octets

/-- A bit of an octet, counted from the highest. -/
def octetBit (octet : UInt8) (i : ℕ) : Bool := octet.toNat.testBit (7 - i)

/-- A bit of a list of octets, counted from the highest of the first. -/
def bit (octets : List UInt8) (i : ℕ) : Bool := octetBit (octets.getD (i / 8) 0) (i % 8)

/-- The octet whose leading bits are set, as many as there are to cover. -/
def maskOctet (covered : ℕ) : UInt8 :=
  if covered = 0 then 0 else if 8 ≤ covered then 0xff else 0xff <<< (8 - covered).toUInt8

/-- The mask of the leading `len` bits of `n` octets. -/
def mask (n len : ℕ) : List UInt8 := (List.range n).map fun i => maskOctet (len - i * 8)

theorem length_mask (n len : ℕ) :
    (mask n len).length = n := by rw [mask, List.length_map, List.length_range]

theorem octetBit_maskOctet (covered : ℕ) {i : ℕ} (hi : i < 8) :
    octetBit (maskOctet covered) i = decide (i < covered) := by
  have hsmall : ∀ c : Fin 9, ∀ j : Fin 8, octetBit (maskOctet c) j = decide (j.val < c.val) := by
    decide
  rcases Nat.lt_or_ge covered 9 with hlt | hge
  · exact hsmall ⟨covered, hlt⟩ ⟨i, hi⟩
  · have hsat : maskOctet covered = maskOctet 8 := by
      unfold maskOctet
      rw [if_neg (by omega), if_pos (by omega), if_neg (by omega), if_pos (by omega)]
    rw [hsat, hsmall ⟨8, by omega⟩ ⟨i, hi⟩]
    exact decide_eq_decide.mpr ⟨fun _ => by omega, fun _ => hi⟩

theorem octetBit_and (a b : UInt8) (i : ℕ) :
    octetBit (a &&& b) i = (octetBit a i && octetBit b i) := by
  rw [octetBit, UInt8.toNat_and, Nat.testBit_and]
  rfl

theorem eq_iff_octetBit {a b : UInt8} : a = b ↔ ∀ i < 8, octetBit a i = octetBit b i := by
  refine ⟨fun h i _ => by rw [h], fun h => UInt8.toNat_inj.mp (Nat.eq_of_testBit_eq fun j => ?_)⟩
  by_cases hj : j < 8
  · have hbit := h (7 - j) (by omega)
    rwa [octetBit, octetBit, show 7 - (7 - j) = j by omega] at hbit
  · have hpow : 2 ^ 8 ≤ 2 ^ j := Nat.pow_le_pow_right two_pos (by omega)
    rw [Nat.testBit_lt_two_pow (lt_of_lt_of_le a.toNat_lt hpow),
      Nat.testBit_lt_two_pow (lt_of_lt_of_le b.toNat_lt hpow)]

/-- Under a mask, two octets agree exactly when the bits it covers do. -/
theorem and_maskOctet_eq_iff {a b : UInt8} {covered : ℕ} :
    a &&& maskOctet covered = b &&& maskOctet covered ↔ ∀ i < 8, i < covered →
    octetBit a i = octetBit b i := by
  rw [eq_iff_octetBit]
  refine forall₂_congr fun i hi => ?_
  rw [octetBit_and, octetBit_and, octetBit_maskOctet covered hi]
  by_cases hcov : i < covered <;> simp [hcov]

theorem getElem?_zipWith_mask {octets : List UInt8} {n : ℕ} (hlen : octets.length = n) (len : ℕ)
    {i : ℕ} (hi : i < n) :
    (List.zipWith
     (· &&& ·) octets (mask n len))[i]? = some (octets.getD i 0 &&& maskOctet (len - i * 8)) := by
  rw [List.getElem?_zipWith, mask, List.getElem?_map, List.getElem?_range hi,
    List.getElem?_eq_getElem (by omega),
    List.getD_eq_getElem _ _ (by omega)]
  rfl

/-- **Two lists of octets agree under a mask exactly when the bits it covers agree.** -/
theorem zipWith_and_mask_eq_iff {xs ys : List UInt8} {n : ℕ} (hx : xs.length = n)
    (hy : ys.length = n) (len : ℕ) :
    List.zipWith (· &&& ·) xs (mask n len) = List.zipWith (· &&& ·) ys (mask n len) ↔
      ∀ i < len, bit xs i = bit ys i := by
  have hoctets : List.zipWith (· &&& ·) xs (mask n len) = List.zipWith (· &&& ·) ys (mask n len) ↔
      ∀ i < n, xs.getD i 0 &&& maskOctet (len - i * 8) = ys.getD i 0 &&&
        maskOctet (len - i * 8) := by
    constructor
    · intro h i hi
      have hget :
        (List.zipWith
         (· &&& ·) xs (mask n len))[i]? = (List.zipWith (· &&& ·) ys (mask n len))[i]? := by rw [h]
      rw [getElem?_zipWith_mask hx len hi, getElem?_zipWith_mask hy len hi] at hget
      exact Option.some.inj hget
    · intro h
      refine List.ext_getElem? fun i => ?_
      by_cases hi : i < n
      · rw [getElem?_zipWith_mask hx len hi, getElem?_zipWith_mask hy len hi, h i hi]
      · have hshort : ∀ zs : List UInt8,
          (List.zipWith (· &&& ·) zs (mask n len)).length ≤ n := fun zs => by
          rw [List.length_zipWith, length_mask]
          exact min_le_right _ _
        rw [List.getElem?_eq_none ((hshort xs).trans (by omega)),
          List.getElem?_eq_none ((hshort ys).trans (by omega))]
  rw [hoctets]
  constructor
  · intro h i hi
    by_cases hin : i / 8 < n
    · exact and_maskOctet_eq_iff.mp (h (i / 8) hin) (i % 8) (by omega) (by omega)
    · rw [bit, bit, List.getD_eq_default _ _ (by omega), List.getD_eq_default _ _ (by omega)]
  · intro h i hi
    refine and_maskOctet_eq_iff.mpr fun j hj hcov => ?_
    have hbit := h (i * 8 + j) (by omega)
    rwa [bit, bit, show (i * 8 + j) / 8 = i by omega, show (i * 8 + j) % 8 = j by omega] at hbit

/-! ## Texts -/

theorem toUTF8_of_fromUTF8? {body : ByteArray} {text : String}
    (h : String.fromUTF8? body = some text) :
    text.toUTF8 = body := by
  unfold String.fromUTF8? at h
  split_ifs at h
  cases h
  rfl

theorem fromUTF8?_toUTF8 (text : String) : String.fromUTF8? text.toUTF8 = some text := by
  have hvalid : text.toUTF8.IsValidUTF8 := text.isValidUTF8
  unfold String.fromUTF8?
  rw [dif_pos hvalid]
  rfl

end Octets
