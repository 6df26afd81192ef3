import Mathlib.Data.List.GetD
import Mathlib.Data.List.Range
import Mathlib.Tactic.Common

/-! Byte-addressed memory and the two ways code touches it in bulk: reading and
writing a run of consecutive bytes. -/

namespace ByteMemory

abbrev Memory := Nat → UInt8

namespace Memory

def ofList (bytes : List UInt8) : Memory := fun a => bytes.getD a 0

def read (m : Memory) (p n : Nat) : List UInt8 := (List.range n).map fun i => m (p + i)

def write (m : Memory) (p : Nat) (bytes : List UInt8) : Memory := fun a =>
  if p ≤ a then bytes.getD (a - p) (m a) else m a

@[simp] theorem length_read (m : Memory) (p n : Nat) : (m.read p n).length = n := by
  simp [read]

@[simp] theorem read_zero (m : Memory) (p : Nat) : m.read p 0 = [] := rfl

@[simp] theorem getElem_read (m : Memory) (p n i : Nat) (h : i < (m.read p n).length) :
    (m.read p n)[i] = m (p + i) := by
  simp [read]

theorem read_add (m : Memory) (p k n : Nat) :
    m.read p (k + n) = m.read p k ++ m.read (p + k) n := by
  simp [read, List.range_add, Nat.add_assoc, Function.comp_def]

theorem take_read (m : Memory) (p n k : Nat) : (m.read p n).take k = m.read p (min k n) := by
  rw [read, ← List.map_take, List.take_range, read]

theorem read_part {m : Memory} {p n i k : Nat} {bytes : List UInt8} (whole : m.read p n = bytes)
    (inside : i + k ≤ n) : m.read (p + i) k = (bytes.drop i).take k := by
  obtain ⟨rest, rfl⟩ := Nat.exists_eq_add_of_le inside
  rw [← whole, Nat.add_assoc, read_add, List.drop_left' (length_read _ _ _), read_add,
    List.take_left' (length_read _ _ _)]

theorem read_congr {m m' : Memory} {p n : Nat} (h : ∀ a, p ≤ a → a < p + n → m a = m' a) :
    m.read p n = m'.read p n := by
  refine List.map_congr_left fun i hi => ?_
  have hi := List.mem_range.mp hi
  exact h (p + i) (by omega) (by omega)

theorem read_update (m : Memory) (p i k : Nat) (b : UInt8) :
    read (Function.update m (p + i) b) p (i + (1 + k)) =
      m.read p i ++ b :: m.read (p + i + 1) k := by
  have other (a : Nat) (h : a ≠ p + i) : Function.update m (p + i) b a = m a :=
    Function.update_of_ne h b m
  have before : read (Function.update m (p + i) b) p i = m.read p i :=
    read_congr fun a _ _ => other a (by omega)
  have after : read (Function.update m (p + i) b) (p + i + 1) k = m.read (p + i + 1) k :=
    read_congr fun a _ _ => other a (by omega)
  rw [read_add, read_add, before, after]
  simp [read]

theorem read_ofList_read (m : Memory) {p k q n : Nat} (inside : q + n ≤ k) :
    (ofList (m.read p k)).read q n = m.read (p + q) n := by
  refine List.ext_getElem (by simp) fun i h₁ h₂ => ?_
  rw [length_read] at h₁
  rw [getElem_read, getElem_read, ofList, List.getD_eq_getElem _ _ (by rw [length_read]; omega),
    getElem_read, Nat.add_assoc]

theorem ofList_append (xs ys : List UInt8) (i : Nat) :
    ofList (xs ++ ys) (xs.length + i) = ofList ys i := by
  rw [ofList, List.getD_append_right _ _ _ _ (Nat.le_add_right _ _), Nat.add_sub_cancel_left, ofList]

theorem read_ofList_append (xs ys zs : List UInt8) :
    (ofList (xs ++ (ys ++ zs))).read xs.length ys.length = ys := by
  refine List.ext_getElem (by simp) fun i h₁ h₂ => ?_
  rw [getElem_read, ofList_append, ofList, List.getD_append _ _ _ _ h₂, List.getD_eq_getElem _ _ h₂]

theorem write_below {m : Memory} {p a : Nat} {bytes : List UInt8} (h : a < p) :
    m.write p bytes a = m a := by
  rw [write, if_neg (by omega)]

theorem write_above {m : Memory} {p a : Nat} {bytes : List UInt8} (h : p + bytes.length ≤ a) :
    m.write p bytes a = m a := by
  rw [write, if_pos (by omega), List.getD_eq_default _ _ (by omega)]

theorem write_at {m : Memory} {p i : Nat} {bytes : List UInt8} (h : i < bytes.length) :
    m.write p bytes (p + i) = bytes[i] := by
  rw [write, if_pos (by omega), Nat.add_sub_cancel_left, List.getD_eq_getElem _ _ h]

theorem read_write_below {m : Memory} {p q n : Nat} {bytes : List UInt8} (h : q + n ≤ p) :
    (m.write p bytes).read q n = m.read q n :=
  read_congr fun _ _ _ => write_below (by omega)

theorem read_write_self (m : Memory) (p : Nat) (bytes : List UInt8) :
    (m.write p bytes).read p bytes.length = bytes := by
  refine List.ext_getElem (by simp) fun i h₁ h₂ => ?_
  rw [getElem_read, write_at h₂]

theorem read_write_append (m : Memory) (p n : Nat) (bytes : List UInt8) :
    (m.write (p + n) bytes).read p (n + bytes.length) = m.read p n ++ bytes := by
  rw [read_add, read_write_below le_rfl, read_write_self]

end Memory

end ByteMemory
