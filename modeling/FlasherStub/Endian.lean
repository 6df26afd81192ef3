import FlasherStub.Lib.Memory
import Mathlib.Data.Nat.Bitwise

/-! Byte-order conversion of `endian_utils.h`. A `uint16_t` or `uint32_t` is a
natural number; the readers give numbers in range by construction. -/

namespace FlasherStub

open ByteMemory

def getLeToU16 (buf : Memory) (p : Nat) : Nat :=
  (buf p).toNat ||| (buf (p + 1)).toNat <<< 8

def getLeToU32 (buf : Memory) (p : Nat) : Nat :=
  (buf p).toNat ||| (buf (p + 1)).toNat <<< 8 ||| (buf (p + 2)).toNat <<< 16 |||
    (buf (p + 3)).toNat <<< 24

def setU16ToLe (val : Nat) : List UInt8 :=
  [UInt8.ofNat (val >>> 0 &&& 0xff), UInt8.ofNat (val >>> 8 &&& 0xff)]

def setU16ToBe (val : Nat) : List UInt8 :=
  [UInt8.ofNat (val >>> 8 &&& 0xff), UInt8.ofNat (val >>> 0 &&& 0xff)]

def setU32ToLe (val : Nat) : List UInt8 :=
  [UInt8.ofNat (val >>> 0 &&& 0xff), UInt8.ofNat (val >>> 8 &&& 0xff),
    UInt8.ofNat (val >>> 16 &&& 0xff), UInt8.ofNat (val >>> 24 &&& 0xff)]

private theorem shifted_lt (b : UInt8) {k n : Nat} (h : k + 8 ≤ n) : b.toNat <<< k < 2 ^ n := by
  have hb := b.toNat_lt
  calc
    b.toNat <<< k = b.toNat * 2 ^ k := Nat.shiftLeft_eq _ _
    _ < 2 ^ 8 * 2 ^ k := Nat.mul_lt_mul_of_pos_right hb (Nat.two_pow_pos k)
    _ = 2 ^ (k + 8) := by rw [← pow_add, Nat.add_comm]
    _ ≤ 2 ^ n := Nat.pow_le_pow_right (by omega) h

theorem getLeToU16_lt (buf : Memory) (p : Nat) : getLeToU16 buf p < 2 ^ 16 :=
  Nat.or_lt_two_pow (by simpa using shifted_lt (buf p) (k := 0) (n := 16) (by omega))
    (shifted_lt _ (by omega))

theorem getLeToU32_lt (buf : Memory) (p : Nat) : getLeToU32 buf p < 2 ^ 32 :=
  Nat.or_lt_two_pow
    (Nat.or_lt_two_pow
      (Nat.or_lt_two_pow (by simpa using shifted_lt (buf p) (k := 0) (n := 32) (by omega))
        (shifted_lt _ (by omega)))
      (shifted_lt _ (by omega)))
    (shifted_lt _ (by omega))

theorem getLeToU32_eq_sum (buf : Memory) (p : Nat) :
    getLeToU32 buf p = (buf (p + 3)).toNat * 2 ^ 24 + ((buf (p + 2)).toNat * 2 ^ 16 +
      ((buf (p + 1)).toNat * 2 ^ 8 + (buf p).toNat)) := by
  have h₀ := (buf p).toNat_lt
  have h₁ := (buf (p + 1)).toNat_lt
  have h₂ := (buf (p + 2)).toNat_lt
  have e₁ := Nat.shiftLeft_add_eq_or_of_lt (i := 8) h₀ (buf (p + 1)).toNat
  have e₂ := Nat.shiftLeft_add_eq_or_of_lt (i := 16)
    (b := (buf (p + 1)).toNat <<< 8 + (buf p).toNat) (by omega) (buf (p + 2)).toNat
  have e₃ := Nat.shiftLeft_add_eq_or_of_lt (i := 24)
    (b := (buf (p + 2)).toNat <<< 16 + ((buf (p + 1)).toNat <<< 8 + (buf p).toNat)) (by omega)
    (buf (p + 3)).toNat
  rw [getLeToU32, Nat.or_comm (buf p).toNat, ← e₁, Nat.or_comm _ ((buf (p + 2)).toNat <<< 16), ← e₂,
    Nat.or_comm _ ((buf (p + 3)).toNat <<< 24), ← e₃]
  simp only [Nat.shiftLeft_eq]

theorem getLeToU32_ones {buf : Memory} {p : Nat} (h : getLeToU32 buf p = 0xFFFFFFFF) {i : Nat}
    (hi : i < 4) : buf (p + i) = 0xFF := by
  have h₀ := (buf p).toNat_lt
  have h₁ := (buf (p + 1)).toNat_lt
  have h₂ := (buf (p + 2)).toNat_lt
  have h₃ := (buf (p + 3)).toNat_lt
  rw [getLeToU32_eq_sum] at h
  refine UInt8.toNat_inj.mp ?_
  change (buf (p + i)).toNat = 255
  obtain rfl | rfl | rfl | rfl : i = 0 ∨ i = 1 ∨ i = 2 ∨ i = 3 := by omega
  · rw [Nat.add_zero]
    omega
  all_goals omega

section RoundTrip

variable {val : Nat} (pre post : List UInt8)

theorem toNat_byte (val k : Nat) :
    (UInt8.ofNat (val >>> k &&& 0xff)).toNat = val / 2 ^ k % 2 ^ 8 := by
  rw [UInt8.toNat_ofNat', Nat.and_two_pow_sub_one_eq_mod (n := 8), Nat.mod_mod,
    Nat.shiftRight_eq_div_pow]

theorem getLeToU16_setU16ToLe (small : val < 2 ^ 16) :
    getLeToU16 (Memory.ofList (pre ++ (setU16ToLe val ++ post))) pre.length = val := by
  have low : Memory.ofList (pre ++ (setU16ToLe val ++ post)) pre.length =
      UInt8.ofNat (val >>> 0 &&& 0xff) := Memory.ofList_append pre _ 0
  have high : Memory.ofList (pre ++ (setU16ToLe val ++ post)) (pre.length + 1) =
      UInt8.ofNat (val >>> 8 &&& 0xff) := Memory.ofList_append pre _ 1
  have lt : val / 2 ^ 0 % 2 ^ 8 < 2 ^ 8 := Nat.mod_lt _ (by omega)
  rw [getLeToU16, low, high, toNat_byte, toNat_byte, Nat.or_comm,
    ← Nat.shiftLeft_add_eq_or_of_lt lt, Nat.shiftLeft_eq]
  omega

theorem getLeToU32_setU32ToLe (small : val < 2 ^ 32) :
    getLeToU32 (Memory.ofList (pre ++ (setU32ToLe val ++ post))) pre.length = val := by
  have byte (i : Nat) : Memory.ofList (pre ++ (setU32ToLe val ++ post)) (pre.length + i) =
      Memory.ofList (setU32ToLe val ++ post) i := Memory.ofList_append pre _ i
  have first := byte 0
  rw [Nat.add_zero] at first
  rw [getLeToU32_eq_sum, first, byte 1, byte 2, byte 3]
  simp only [setU32ToLe, Memory.ofList, List.cons_append, List.getD_cons_zero,
    List.getD_cons_succ, toNat_byte]
  omega

end RoundTrip

theorem eq_zero_of_setU16ToBe {n : Nat} (small : n < 2 ^ 16) (zero : setU16ToBe n = [0, 0]) :
    n = 0 := by
  obtain ⟨high, low⟩ := List.cons.inj zero
  have high := UInt8.toNat_inj.mpr high
  have low := UInt8.toNat_inj.mpr (List.cons.inj low).1
  rw [UInt8.toNat_ofNat', Nat.and_two_pow_sub_one_eq_mod (n := 8)] at high low
  simp only [Nat.shiftRight_eq_div_pow, UInt8.toNat_zero] at high low
  omega

theorem getLeToU16_congr {buf buf' : Memory} {p : Nat}
    (h : ∀ a, p ≤ a → a < p + 2 → buf a = buf' a) : getLeToU16 buf p = getLeToU16 buf' p := by
  rw [getLeToU16, getLeToU16, h p (by omega) (by omega), h (p + 1) (by omega) (by omega)]

theorem getLeToU32_congr {buf buf' : Memory} {p : Nat}
    (h : ∀ a, p ≤ a → a < p + 4 → buf a = buf' a) : getLeToU32 buf p = getLeToU32 buf' p := by
  rw [getLeToU32, getLeToU32, h p (by omega) (by omega), h (p + 1) (by omega) (by omega),
    h (p + 2) (by omega) (by omega), h (p + 3) (by omega) (by omega)]

end FlasherStub
