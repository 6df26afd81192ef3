import FlasherStub.Lib.Memory

/-! A buffer that is filled again and again from its start. It remembers the end of the stream that
has gone through it. -/

namespace ByteMemory

/-- The last `size` bytes of the stream stand where they were put. -/
def Ring (size : Nat) (m : Memory) (stream : List UInt8) : Prop :=
  ∀ i (h : i < stream.length), stream.length ≤ i + size → m (i % size) = stream[i]

namespace Ring

variable {size : Nat} {m : Memory} {stream more : List UInt8}

theorem nil (size : Nat) (m : Memory) : Ring size m [] := fun _ h => absurd h (Nat.not_lt_zero _)

theorem mod_outside {i n k : Nat} (before : i < n) (recent : n + k ≤ i + size) :
    i % size < n % size ∨ n % size + k ≤ i % size := by
  have index := Nat.div_add_mod i size
  have length := Nat.div_add_mod n size
  have rounds : i / size ≤ n / size := Nat.div_le_div_right before.le
  obtain same | less := rounds.eq_or_lt
  · rw [same] at index
    omega
  · have lap : size * (i / size) + size ≤ size * (n / size) := by
      rw [← Nat.mul_succ]
      exact Nat.mul_le_mul_left size less
    omega

theorem append (ring : Ring size m stream) (fits : stream.length % size + more.length ≤ size) :
    Ring size (m.write (stream.length % size) more) (stream ++ more) := by
  intro i inside recent
  rw [List.length_append] at inside recent
  by_cases old : i < stream.length
  · rw [List.getElem_append_left old, ← ring i old (by omega)]
    obtain below | above := mod_outside old recent
    · exact Memory.write_below below
    · exact Memory.write_above above
  · obtain ⟨j, rfl⟩ := Nat.exists_eq_add_of_le (not_lt.mp old)
    have here : (stream.length + j) % size = stream.length % size + j := by
      rw [Nat.add_mod, Nat.mod_eq_of_lt (by omega : j < size), Nat.mod_eq_of_lt (by omega)]
    rw [here, Memory.write_at (by omega), List.getElem_append_right (by omega)]
    simp only [Nat.add_sub_cancel_left]

end Ring

end ByteMemory
