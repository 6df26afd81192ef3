import FlasherStub.Lib.Memory

/-! NOR flash as a sequence of operations on its content: a read gives what is
stored, an erase sets bytes to `0xFF`, and a program can only clear bits. -/

namespace Nor

open ByteMemory

inductive Op where
  | read (addr : Nat) (bytes : List UInt8)
  /-- the bytes from `first` up to `next` -/
  | erase (first next : Nat)
  | program (addr : Nat) (data : List UInt8)

namespace Op

def apply : Op → Memory → Memory
  | .read _ _, m => m
  | .erase first next, m => fun a => if first ≤ a ∧ a < next then 0xFF else m a
  | .program addr data, m => fun a =>
    if addr ≤ a ∧ a < addr + data.length then m a &&& data.getD (a - addr) 0 else m a

/-- A read gives the stored bytes. -/
def Valid : Op → Memory → Prop
  | .read addr bytes, m => bytes = m.read addr bytes.length
  | .erase _ _, _ | .program _ _, _ => True

def Erases (a : Nat) : Op → Prop
  | .erase first next => first ≤ a ∧ a < next
  | .read _ _ | .program _ _ => False

def Programs (a : Nat) : Op → Prop
  | .program addr data => addr ≤ a ∧ a < addr + data.length
  | .read _ _ | .erase _ _ => False

/-- A read that found `0xFF` at `a`. -/
def FindsBlank (a : Nat) : Op → Prop
  | .read addr bytes => addr ≤ a ∧ bytes[a - addr]? = some 0xFF
  | .erase _ _ | .program _ _ => False

theorem apply_of_not {a : Nat} {op : Op} (erases : ¬ op.Erases a) (programs : ¬ op.Programs a)
    (m : Memory) : op.apply m a = m a := by
  cases op with
  | read => rfl
  | erase => exact if_neg erases
  | program => exact if_neg programs

theorem apply_erases {a : Nat} {op : Op} (erases : op.Erases a) (m : Memory) :
    op.apply m a = 0xFF := by
  cases op with
  | erase => exact if_pos erases
  | read | program => exact erases.elim

theorem apply_program {addr i : Nat} {data : List UInt8} (inside : i < data.length) (m : Memory) :
    (Op.program addr data).apply m (addr + i) = m (addr + i) &&& data[i] := by
  simp only [apply]
  rw [if_pos (by omega), Nat.add_sub_cancel_left, List.getD_eq_getElem _ _ inside]

theorem apply_blank {a : Nat} {op : Op} {m : Memory} (programs : ¬ op.Programs a)
    (blank : m a = 0xFF) : op.apply m a = 0xFF := by
  by_cases erases : op.Erases a
  · exact apply_erases erases m
  · rw [apply_of_not erases programs, blank]

theorem Valid.blank {a : Nat} {op : Op} {m : Memory} (valid : op.Valid m)
    (found : op.FindsBlank a) : m a = 0xFF := by
  cases op with
  | read addr bytes =>
    obtain ⟨le, get⟩ := found
    obtain ⟨inside, value⟩ := List.getElem?_eq_some_iff.mp get
    have same : bytes = m.read addr bytes.length := valid
    have stored : bytes[a - addr] = m (addr + (a - addr)) := by
      conv_lhs => rw [List.getElem_of_eq same]
      exact Memory.getElem_read _ _ _ _ _
    rw [← value, stored, Nat.add_sub_cancel' le]
  | erase | program => exact found.elim

end Op

theorem Op.read_program_blank {addr : Nat} {data : List UInt8} {m : Memory}
    (blank : ∀ i < data.length, m (addr + i) = 0xFF) :
    ((Op.program addr data).apply m).read addr data.length = data := by
  apply List.ext_getElem (by simp)
  intro i _ inside
  rw [Memory.getElem_read, Op.apply_program inside, blank i inside]
  exact UInt8.neg_one_and

theorem Op.read_program_erase {addr first next : Nat} {data : List UInt8} (le : first ≤ addr)
    (fits : addr + data.length ≤ next) (m : Memory) :
    ((Op.program addr data).apply ((Op.erase first next).apply m)).read addr data.length = data := by
  apply Op.read_program_blank
  intro i inside
  have erased : (Op.erase first next).Erases (addr + i) := ⟨by omega, by omega⟩
  exact Op.apply_erases erased m

theorem Op.erase_empty (a : Nat) (m : Memory) : (Op.erase a a).apply m = m :=
  funext fun _ => if_neg fun inside => not_lt_of_ge inside.1 inside.2

theorem Op.erase_erase {a b c : Nat} (left : a ≤ b) (right : b ≤ c) (m : Memory) :
    (Op.erase b c).apply ((Op.erase a b).apply m) = (Op.erase a c).apply m := by
  funext i
  simp only [Op.apply]
  split_ifs <;> first | rfl | omega

theorem Op.program_nil (addr : Nat) (m : Memory) : (Op.program addr []).apply m = m :=
  funext fun _ => if_neg fun inside => absurd inside.2 (not_lt_of_ge inside.1)

theorem Op.program_append (addr : Nat) (data data' : List UInt8) (m : Memory) :
    (Op.program (addr + data.length) data').apply ((Op.program addr data).apply m) =
      (Op.program addr (data ++ data')).apply m := by
  funext a
  simp only [Op.apply, List.length_append]
  by_cases left : addr ≤ a ∧ a < addr + data.length
  · rw [if_neg (by omega), if_pos left, if_pos (by omega), List.getD_append _ _ _ _ (by omega)]
  · by_cases right : addr + data.length ≤ a ∧ a < addr + data.length + data'.length
    · rw [if_pos right, if_neg left, if_pos (by omega), List.getD_append_right _ _ _ _ (by omega),
        Nat.sub_add_eq]
    · rw [if_neg right, if_neg left, if_neg (by omega)]

theorem Op.program_blank (addr n : Nat) (m : Memory) :
    (Op.program addr (List.replicate n 0xFF)).apply m = m := by
  funext a
  simp only [Op.apply, List.length_replicate]
  split_ifs with inside
  · rw [List.getD_eq_getElem _ _ (by rw [List.length_replicate]; omega), List.getElem_replicate]
    exact UInt8.and_neg_one
  · rfl

/-- An erase behind what has been programmed might as well have come first. -/
theorem Op.erase_program {addr first next : Nat} {data : List UInt8}
    (behind : addr + data.length ≤ first) (m : Memory) :
    (Op.erase first next).apply ((Op.program addr data).apply m) =
      (Op.program addr data).apply ((Op.erase first next).apply m) := by
  funext a
  simp only [Op.apply]
  split_ifs <;> first | rfl | omega

def Run : Memory → List Op → Memory → Prop
  | m, [], n => n = m
  | m, op :: ops, n => op.Valid m ∧ Run (op.apply m) ops n

theorem run_append {m n : Memory} {ops ops' : List Op} :
    Run m (ops ++ ops') n ↔ ∃ k, Run m ops k ∧ Run k ops' n := by
  induction ops generalizing m with
  | nil => simp [Run]
  | cons op ops ih => simp [Run, ih, and_assoc]

namespace Run

variable {m n : Memory} {ops : List Op} {a : Nat}

theorem untouched (run : Run m ops n) (erases : ∀ op ∈ ops, ¬ op.Erases a)
    (programs : ∀ op ∈ ops, ¬ op.Programs a) : n a = m a := by
  induction ops generalizing m with
  | nil => rw [show n = m from run]
  | cons op ops ih =>
    have last := ih run.2 (fun o h => erases o (by simp [h])) (fun o h => programs o (by simp [h]))
    rw [last, Op.apply_of_not (erases op (by simp)) (programs op (by simp))]

theorem stays_blank (run : Run m ops n) (programs : ∀ op ∈ ops, ¬ op.Programs a)
    (blank : m a = 0xFF) : n a = 0xFF := by
  induction ops generalizing m with
  | nil => rw [show n = m from run, blank]
  | cons op ops ih =>
    exact ih run.2 (fun o h => programs o (by simp [h]))
      (Op.apply_blank (programs op (by simp)) blank)

theorem cleared (run : Run m ops n) (programs : ∀ op ∈ ops, ¬ op.Programs a)
    (clear : ∃ op ∈ ops, op.Erases a ∨ op.FindsBlank a) : n a = 0xFF := by
  obtain ⟨op, mem, clear⟩ := clear
  obtain ⟨pre, post, rfl⟩ := List.append_of_mem mem
  obtain ⟨k, -, valid, rest⟩ := run_append.mp run
  have blank : op.apply k a = 0xFF := by
    obtain erases | found := clear
    · exact Op.apply_erases erases k
    · exact Op.apply_blank (programs op mem) (valid.blank found)
  exact rest.stays_blank (fun o h => programs o (by simp [h])) blank

/-- A byte that is programmed once, and left alone later, keeps of its content before that only
the bits that were programmed. -/
theorem programs {pre post : List Op} {addr : Nat} {data : List UInt8}
    (run : Run m (pre ++ .program addr data :: post) n) {i : Nat} (inside : i < data.length)
    (once : ∀ op ∈ post, ¬ op.Programs (addr + i)) (kept : ∀ op ∈ post, ¬ op.Erases (addr + i)) :
    ∃ k, Run m pre k ∧ n (addr + i) = k (addr + i) &&& data[i] := by
  obtain ⟨k, before, -, after⟩ := run_append.mp run
  exact ⟨k, before, by rw [after.untouched kept once, Op.apply_program inside]⟩

theorem programmed {pre post : List Op} {addr : Nat} {data : List UInt8}
    (run : Run m (pre ++ .program addr data :: post) n) {i : Nat} (inside : i < data.length)
    (clear : ∃ op ∈ pre, op.Erases (addr + i) ∨ op.FindsBlank (addr + i))
    (once : ∀ op ∈ pre ++ post, ¬ op.Programs (addr + i))
    (kept : ∀ op ∈ post, ¬ op.Erases (addr + i)) : n (addr + i) = data[i] := by
  obtain ⟨before, after⟩ := List.forall_mem_append.mp once
  obtain ⟨k, ready, value⟩ := run.programs inside after kept
  rw [value, ready.cleared before clear]
  exact UInt8.neg_one_and

theorem programmed_over {pre post : List Op} {addr : Nat} {data : List UInt8}
    (run : Run m (pre ++ .program addr data :: post) n) {i : Nat} (inside : i < data.length)
    (once : ∀ op ∈ pre ++ post, ¬ op.Programs (addr + i))
    (kept : ∀ op ∈ pre ++ post, ¬ op.Erases (addr + i)) :
    n (addr + i) = m (addr + i) &&& data[i] := by
  obtain ⟨before, after⟩ := List.forall_mem_append.mp once
  obtain ⟨left, right⟩ := List.forall_mem_append.mp kept
  obtain ⟨k, ready, value⟩ := run.programs inside after right
  rw [value, ready.untouched left before]

end Run

end Nor
