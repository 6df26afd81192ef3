import Mathlib.Tactic.Common

/-! SLIP framing with a delimiter before and after each frame, and a decoder with
a bounded buffer for which the same byte opens and closes a frame. Whether it is
in step with the sender depends on every delimiter it has seen. -/

namespace Slip

abbrev endByte : UInt8 := 0xC0
abbrev escByte : UInt8 := 0xDB
abbrev escEnd : UInt8 := 0xDC
abbrev escEsc : UInt8 := 0xDD

@[simp] theorem escByte_ne_endByte : escByte ≠ endByte := by decide

@[simp] theorem escEsc_ne_escEnd : escEsc ≠ escEnd := by decide

def escape (b : UInt8) : List UInt8 :=
  if b = endByte then [escByte, escEnd] else if b = escByte then [escByte, escEsc] else [b]

def encode (p : List UInt8) : List UInt8 := endByte :: (p.flatMap escape ++ [endByte])

/-- What a receiver hands on: a frame, or the news that one was lost. -/
inductive Reception where
  | frame (bytes : List UInt8)
  | error
deriving DecidableEq

inductive Phase where
  | idle
  | inFrame (acc : List UInt8)
  | escaping (acc : List UInt8)
deriving DecidableEq

def put (capacity : Nat) (acc : List UInt8) (b : UInt8) : Phase × List Reception :=
  if acc.length < capacity then (.inFrame (acc ++ [b]), []) else (.idle, [.error])

/-- An empty frame ends without a trace; a bad escape and an overrun end the
frame on the spot. -/
def step (capacity : Nat) : Phase → UInt8 → Phase × List Reception
  | .idle, b => if b = endByte then (.inFrame [], []) else (.idle, [])
  | .inFrame acc, b =>
    if b = endByte then (.idle, if acc = [] then [] else [.frame acc])
    else if b = escByte then (.escaping acc, [])
    else put capacity acc b
  | .escaping acc, b =>
    if b = escEnd then put capacity acc endByte
    else if b = escEsc then put capacity acc escByte
    else (.idle, [.error])

section Step

variable {capacity : Nat} {b : UInt8} (acc : List UInt8)

@[simp] theorem step_idle_end : step capacity .idle endByte = (.inFrame [], []) := rfl

@[simp] theorem step_idle_noise (notEnd : b ≠ endByte) :
    step capacity .idle b = (.idle, []) := if_neg notEnd

@[simp] theorem step_inFrame_end :
    step capacity (.inFrame acc) endByte = (.idle, if acc = [] then [] else [.frame acc]) := rfl

@[simp] theorem step_inFrame_esc :
    step capacity (.inFrame acc) escByte = (.escaping acc, []) := rfl

@[simp] theorem step_inFrame_plain (notEnd : b ≠ endByte) (notEsc : b ≠ escByte) :
    step capacity (.inFrame acc) b = put capacity acc b := by
  rw [step, if_neg notEnd, if_neg notEsc]

@[simp] theorem step_escaping_end :
    step capacity (.escaping acc) escEnd = put capacity acc endByte := rfl

@[simp] theorem step_escaping_esc :
    step capacity (.escaping acc) escEsc = put capacity acc escByte := rfl

@[simp] theorem step_escaping_bad (notEnd : b ≠ escEnd) (notEsc : b ≠ escEsc) :
    step capacity (.escaping acc) b = (.idle, [.error]) := by
  rw [step, if_neg notEnd, if_neg notEsc]

theorem put_room {acc : List UInt8} (room : acc.length < capacity) :
    put capacity acc b = (.inFrame (acc ++ [b]), []) := if_pos room

theorem put_full {acc : List UInt8} (full : capacity ≤ acc.length) :
    put capacity acc b = (.idle, [.error]) := if_neg (Nat.not_lt.mpr full)

end Step

def feed (capacity : Nat) : Phase → List UInt8 → Phase × List Reception
  | p, [] => (p, [])
  | p, b :: bytes =>
    let next := step capacity p b
    let rest := feed capacity next.1 bytes
    (rest.1, next.2 ++ rest.2)

variable (capacity : Nat)

@[simp] theorem feed_nil (p : Phase) : feed capacity p [] = (p, []) := rfl

theorem feed_append (p : Phase) (xs ys : List UInt8) :
    feed capacity p (xs ++ ys) = ((feed capacity (feed capacity p xs).1 ys).1,
      (feed capacity p xs).2 ++ (feed capacity (feed capacity p xs).1 ys).2) := by
  induction xs generalizing p with
  | nil => simp [feed]
  | cons x xs ih => simp [feed, ih]

theorem feed_escape (acc : List UInt8) (b : UInt8) :
    feed capacity (.inFrame acc) (escape b) = put capacity acc b := by
  unfold escape
  split_ifs with h h'
  · simp [feed, h]
  · simp [feed, h']
  · simp [feed, h, h']

theorem feed_body (p acc : List UInt8) (room : acc.length + p.length ≤ capacity) :
    feed capacity (.inFrame acc) (p.flatMap escape) = (.inFrame (acc ++ p), []) := by
  induction p generalizing acc with
  | nil => simp
  | cons b p ih =>
    rw [List.length_cons] at room
    have first := (feed_escape capacity acc b).trans (put_room (by omega))
    have next := ih (acc ++ [b]) (by rw [List.length_append, List.length_singleton]; omega)
    simp [feed_append, first, next]

theorem feed_noise {bytes : List UInt8} (h : ∀ b ∈ bytes, b ≠ endByte) :
    feed capacity .idle bytes = (.idle, []) := by
  induction bytes with
  | nil => rfl
  | cons b bytes ih => simp [feed, h b (by simp), ih fun c hc => h c (by simp [hc])]

theorem ne_end_of_mem_escape {p : List UInt8} : ∀ b ∈ p.flatMap escape, b ≠ endByte := by
  intro b hb
  obtain ⟨c, -, hb⟩ := List.mem_flatMap.mp hb
  unfold escape at hb
  split_ifs at hb with h h'
  · simp at hb
    obtain rfl | rfl := hb <;> decide
  · simp at hb
    obtain rfl | rfl := hb <;> decide
  · simp at hb
    exact hb ▸ h

theorem feed_encode {p : List UInt8} (nonempty : p ≠ []) (fits : p.length ≤ capacity) :
    feed capacity .idle (encode p) = (.idle, [.frame p]) := by
  have body := feed_body capacity p [] (by simpa using fits)
  simp [encode, feed, feed_append, body, nonempty]

/-- A receiver in step delivers every frame. -/
theorem feed_encodes {ps : List (List UInt8)}
    (fits : ∀ p ∈ ps, p ≠ [] ∧ p.length ≤ capacity) :
    feed capacity .idle (ps.flatMap encode) = (.idle, ps.map .frame) := by
  induction ps with
  | nil => rfl
  | cons p ps ih =>
    obtain ⟨nonempty, le⟩ := fits p (by simp)
    simp [feed_append, feed_encode capacity nonempty le, ih fun q hq => fits q (by simp [hq])]

/-- Inside of a frame the opening delimiter closes it, and the closing one opens another. -/
theorem feed_encode_open {phase : Phase} (inside : phase ≠ .idle) (p : List UInt8) :
    (feed capacity phase (encode p)).1 = .inFrame [] := by
  have dropped := feed_noise capacity (ne_end_of_mem_escape (p := p))
  cases phase with
  | idle => exact absurd rfl inside
  | inFrame acc => simp [encode, feed, feed_append, dropped]
  | escaping acc =>
    have bad : step capacity (.escaping acc) endByte = (.idle, [.error]) := rfl
    simp [encode, feed, feed_append, dropped, bad]

theorem feed_encodes_open (ps : List (List UInt8)) :
    feed capacity (.inFrame []) (ps.flatMap encode) = (.inFrame [], []) := by
  induction ps with
  | nil => rfl
  | cons p ps ih =>
    have dropped := feed_noise capacity (ne_end_of_mem_escape (p := p))
    have one : feed capacity (.inFrame []) (encode p) = (.inFrame [], []) := by
      simp [encode, feed, feed_append, dropped]
    simp [feed_append, one, ih]

/-- After `k` bytes of a frame, the bytes go on to its end, with `rest` after it: the end
is a delimiter, a bad escape, or one byte more than the buffer holds. -/
inductive EndsFrame : Nat → List UInt8 → List UInt8 → Prop where
  | delimiter (k : Nat) (rest : List UInt8) : EndsFrame k (endByte :: rest) rest
  | badEscape (k : Nat) {b : UInt8} (notEnd : b ≠ escEnd) (notEsc : b ≠ escEsc)
      (rest : List UInt8) : EndsFrame k (escByte :: b :: rest) rest
  | overrun {k : Nat} (full : capacity ≤ k) (b : UInt8) (rest : List UInt8) :
      EndsFrame k (escape b ++ rest) rest
  | more {k : Nat} (room : k < capacity) (b : UInt8) {g rest : List UInt8}
      (ends : EndsFrame (k + 1) g rest) : EndsFrame k (escape b ++ g) rest

/-- Every frame that is opened in the bytes is also ended in them. -/
inductive Closed : List UInt8 → Prop where
  | nil : Closed []
  | noise {b : UInt8} (notEnd : b ≠ endByte) {g : List UInt8} (closed : Closed g) :
      Closed (b :: g)
  | frame {g rest : List UInt8} (ends : EndsFrame capacity 0 g rest)
      (closed : Closed rest) : Closed (endByte :: g)

variable {capacity}

theorem EndsFrame.feed {k : Nat} {g rest acc : List UInt8} (ends : EndsFrame capacity k g rest)
    (length : acc.length = k) :
    (feed capacity (.inFrame acc) g).1 = (Slip.feed capacity .idle rest).1 := by
  induction ends generalizing acc with
  | delimiter => simp [Slip.feed]
  | badEscape _ notEnd notEsc => simp [Slip.feed, notEnd, notEsc]
  | overrun full b =>
    have fed := (feed_escape capacity acc b).trans (put_full (length ▸ full))
    simp [feed_append, fed]
  | more room b _ ih =>
    have fed := (feed_escape capacity acc b).trans (put_room (length ▸ room))
    have next := ih (show (acc ++ [b]).length = _ by simp [length])
    simp [feed_append, fed, next]

theorem Closed.feed {g : List UInt8} (closed : Closed capacity g) :
    (feed capacity .idle g).1 = .idle := by
  induction closed with
  | nil => rfl
  | noise notEnd _ ih => simp [Slip.feed, notEnd, ih]
  | frame ends _ ih => simp [Slip.feed, ends.feed, ih]

theorem body_cases {w : List UInt8} (noEnd : endByte ∉ w) :
    w = [] ∨ (∃ b w', w = escape b ++ w') ∨ w = [escByte] ∨
      ∃ c w', w = escByte :: c :: w' ∧ c ≠ escEnd ∧ c ≠ escEsc := by
  match w with
  | [] => exact .inl rfl
  | b :: w =>
    have notEnd : b ≠ endByte := fun h => noEnd (by simp [h])
    by_cases isEsc : b = escByte
    · subst isEsc
      match w with
      | [] => exact .inr (.inr (.inl rfl))
      | c :: w =>
        by_cases isEnd : c = escEnd
        · exact .inr (.inl ⟨endByte, w, by simp [escape, isEnd]⟩)
        by_cases isEsc : c = escEsc
        · exact .inr (.inl ⟨escByte, w, by simp [escape, isEsc]⟩)
        · exact .inr (.inr (.inr ⟨c, w, rfl, isEnd, isEsc⟩))
    · exact .inr (.inl ⟨b, w, by simp [escape, notEnd, isEsc]⟩)

theorem escape_ne_nil (b : UInt8) : escape b ≠ [] := by
  unfold escape
  split_ifs <;> simp

/-- The bytes after which a receiver inside of a frame is out of it again. -/
theorem endsFrame_of_idle (g acc : List UInt8)
    (idle : (feed capacity (.inFrame acc) g).1 = .idle) :
    ∃ rest, EndsFrame capacity acc.length g rest ∧ rest.length < g.length ∧
      (feed capacity .idle rest).1 = .idle := by
  induction h : g.length using Nat.strongRecOn generalizing g acc with
  | _ n shorter =>
    have afterByte (b : UInt8) (rest : List UInt8) (is : g = escape b ++ rest) :
        ∃ rest, EndsFrame capacity acc.length g rest ∧ rest.length < n ∧
          (feed capacity .idle rest).1 = .idle := by
      have some := List.length_pos_iff.mpr (escape_ne_nil b)
      have length : n = (escape b).length + rest.length := by rw [← h, is, List.length_append]
      rw [is, feed_append, feed_escape] at idle
      by_cases room : acc.length < capacity
      · rw [put_room room] at idle
        obtain ⟨last, ends, less, closed⟩ :=
          shorter rest.length (by omega) rest (acc ++ [b]) idle rfl
        rw [List.length_append, List.length_singleton] at ends
        exact ⟨last, is ▸ .more room b ends, by omega, closed⟩
      · rw [put_full (Nat.not_lt.mp room)] at idle
        exact ⟨rest, is ▸ .overrun (Nat.not_lt.mp room) b rest, by omega, idle⟩
    cases g with
    | nil => simp at idle
    | cons b g =>
      by_cases isEnd : b = endByte
      · subst isEnd
        exact ⟨g, .delimiter _ g, by simp [← h], by simpa [feed] using idle⟩
      by_cases isEsc : b = escByte
      · subst isEsc
        cases g with
        | nil => simp [feed] at idle
        | cons c g =>
          by_cases isEscEnd : c = escEnd
          · exact afterByte endByte g (by simp [escape, isEscEnd])
          by_cases isEscEsc : c = escEsc
          · exact afterByte escByte g (by simp [escape, isEscEsc])
          · have shortened : g.length < n := by
              simp only [← h, List.length_cons]
              omega
            exact ⟨g, .badEscape _ isEscEnd isEscEsc g, shortened,
              by simpa [feed, isEscEnd, isEscEsc] using idle⟩
      · exact afterByte b g (by simp [escape, isEnd, isEsc])

theorem closed_of_idle (g : List UInt8) (idle : (feed capacity .idle g).1 = .idle) :
    Closed capacity g := by
  induction h : g.length using Nat.strongRecOn generalizing g with
  | _ n shorter =>
    cases g with
    | nil => exact .nil
    | cons b g =>
      rw [List.length_cons] at h
      by_cases isEnd : b = endByte
      · subst isEnd
        obtain ⟨rest, ends, less, closed⟩ := endsFrame_of_idle g [] (by simpa [feed] using idle)
        exact .frame ends (shorter rest.length (by omega) rest closed rfl)
      · exact .noise isEnd (shorter g.length (by omega) g (by simpa [feed, isEnd] using idle) rfl)

/-- The escaped forms are a prefix code. -/
theorem escape_append_inj {b c : UInt8} {u v : List UInt8}
    (same : escape b ++ u = escape c ++ v) : b = c ∧ u = v := by
  have apart : escEnd ≠ escEsc := by decide
  unfold escape at same
  split_ifs at same <;> simp_all

theorem eq_cons_of_escape_append {b : UInt8} {w p : List UInt8}
    (same : escape b ++ w = p.flatMap escape) : ∃ q, p = b :: q ∧ w = q.flatMap escape := by
  cases p with
  | nil => simp [escape_ne_nil] at same
  | cons c q =>
    obtain ⟨rfl, rest⟩ := escape_append_inj same
    exact ⟨q, rfl, rest⟩

theorem escByte_cons_ne {w : List UInt8} (bad : ∀ c ∈ w.head?, c ≠ escEnd ∧ c ≠ escEsc)
    (p : List UInt8) : escByte :: w ≠ p.flatMap escape := by
  intro same
  cases p with
  | nil => cases same
  | cons c q =>
    simp only [List.flatMap_cons, escape] at same
    split_ifs at same <;> simp_all

theorem feed_noise_end {w : List UInt8} (noEnd : endByte ∉ w) :
    (feed capacity .idle (w ++ [endByte])).2 = [] := by
  have dropped := feed_noise capacity fun b (mem : b ∈ w) h => noEnd (h ▸ mem)
  simp [feed_append, dropped, feed]

/-- A frame of which `acc` is in the buffer ends well with the delimiter after `w` exactly if
`w` is what a sender makes of some bytes, and these fit; else it ends with an error. -/
theorem feed_body_end {w : List UInt8} (noEnd : endByte ∉ w) (acc : List UInt8)
    (short : acc.length ≤ capacity) :
    (∃ p, w = p.flatMap escape ∧ acc.length + p.length ≤ capacity ∧
      (feed capacity (.inFrame acc) (w ++ [endByte])).2 =
        if acc ++ p = [] then [] else [.frame (acc ++ p)]) ∨
    (∀ p : List UInt8, w = p.flatMap escape → capacity < acc.length + p.length) ∧
      (feed capacity (.inFrame acc) (w ++ [endByte])).2 = [.error] := by
  induction h : w.length using Nat.strongRecOn generalizing w acc with
  | _ n shorter =>
    obtain rfl | ⟨b, w', rfl⟩ | rfl | ⟨c, w', rfl, notEnd, notEsc⟩ := body_cases noEnd
    · exact .inl ⟨[], rfl, short, by simp [feed]⟩
    · have noEnd' : endByte ∉ w' := fun mem => noEnd (List.mem_append_right _ mem)
      have some := List.length_pos_iff.mpr (escape_ne_nil b)
      rw [List.length_append] at h
      rw [List.append_assoc, feed_append, feed_escape]
      by_cases room : acc.length < capacity
      · rw [put_room room, List.nil_append]
        obtain ⟨p, rfl, fits, out⟩ | ⟨long, out⟩ :=
          shorter w'.length (by omega) noEnd' (acc ++ [b]) (by simp; omega) rfl
        · refine .inl ⟨b :: p, rfl, by simp at fits ⊢; omega, by simpa using out⟩
        · refine .inr ⟨fun p is => ?_, out⟩
          obtain ⟨q, rfl, same⟩ := eq_cons_of_escape_append is
          have := long q same
          simp at this ⊢
          omega
      · rw [put_full (Nat.not_lt.mp room), feed_noise_end noEnd']
        refine .inr ⟨fun p is => ?_, rfl⟩
        obtain ⟨q, rfl, -⟩ := eq_cons_of_escape_append is
        simp
        omega
    · exact .inr ⟨fun p is => absurd is (escByte_cons_ne (by simp) p), rfl⟩
    · have noEnd' : endByte ∉ w' := fun mem => noEnd (by simp [mem])
      exact .inr ⟨fun p is => absurd is (escByte_cons_ne (by simp [notEnd, notEsc]) p),
        by simp [feed, notEnd, notEsc, feed_noise_end noEnd']⟩

/-- A frame `p` is on its way to a receiver: `wire` is what it has not got yet. -/
inductive Underway (p : List UInt8) : Phase → List UInt8 → Prop where
  | opening : Underway p .idle (encode p)
  | body {acc q : List UInt8} (is : p = acc ++ q) :
      Underway p (.inFrame acc) (q.flatMap escape ++ [endByte])
  | escaped {acc q : List UInt8} {b c : UInt8} (is : p = acc ++ b :: q)
      (pair : escape b = [escByte, c]) :
      Underway p (.escaping acc) (c :: (q.flatMap escape ++ [endByte]))

theorem Underway.ne_nil {p wire : List UInt8} {phase : Phase} (underway : Underway p phase wire) :
    wire ≠ [] := by
  cases underway <;> simp [encode]

theorem Underway.step {p wire : List UInt8} {phase : Phase} {b : UInt8}
    (underway : Underway p phase (b :: wire)) (nonempty : p ≠ []) (fits : p.length ≤ capacity) :
    (step capacity phase b).2 = [] ∧ Underway p (step capacity phase b).1 wire ∨
      wire = [] ∧ step capacity phase b = (.idle, [.frame p]) := by
  generalize is : b :: wire = all at underway
  cases underway with
  | opening =>
    obtain ⟨rfl, rfl⟩ := List.cons.inj is
    exact .inl ⟨rfl, .body rfl⟩
  | @body acc q whole =>
    cases q with
    | nil =>
      obtain ⟨rfl, rfl⟩ := List.cons.inj is
      rw [List.append_nil] at whole
      exact .inr ⟨rfl, by simp [← whole, nonempty]⟩
    | cons c q =>
      have room : acc.length < capacity := by
        rw [whole, List.length_append, List.length_cons] at fits
        omega
      by_cases isEnd : c = endByte
      · have pair : escape c = [escByte, escEnd] := by simp [escape, isEnd]
        simp only [List.flatMap_cons, pair, List.cons_append, List.nil_append] at is
        obtain ⟨rfl, rfl⟩ := List.cons.inj is
        exact .inl ⟨rfl, .escaped whole pair⟩
      by_cases isEsc : c = escByte
      · have pair : escape c = [escByte, escEsc] := by simp [escape, isEsc]
        simp only [List.flatMap_cons, pair, List.cons_append, List.nil_append] at is
        obtain ⟨rfl, rfl⟩ := List.cons.inj is
        exact .inl ⟨rfl, .escaped whole pair⟩
      · have plain : escape c = [c] := by simp [escape, isEnd, isEsc]
        simp only [List.flatMap_cons, plain, List.cons_append, List.nil_append] at is
        obtain ⟨rfl, rfl⟩ := List.cons.inj is
        rw [step_inFrame_plain acc isEnd isEsc, put_room room]
        exact .inl ⟨rfl, .body (by rw [whole, List.append_assoc]; rfl)⟩
  | @escaped acc q e c whole pair =>
    obtain ⟨rfl, rfl⟩ := List.cons.inj is
    have room : acc.length < capacity := by
      rw [whole, List.length_append, List.length_cons] at fits
      omega
    have stored : Slip.step capacity (.escaping acc) b = put capacity acc e := by
      unfold escape at pair
      split_ifs at pair with isEnd isEsc
      · simp only [List.cons.injEq, true_and, and_true] at pair
        simp [← pair, isEnd]
      · simp only [List.cons.injEq, true_and, and_true] at pair
        simp [← pair, isEsc]
      · simp at pair
    rw [stored, put_room room]
    exact .inl ⟨rfl, .body (by rw [whole, List.append_assoc]; rfl)⟩

theorem encode_injective {p q : List UInt8} (same : encode p = encode q) : p = q := by
  have bodies : p.flatMap escape = q.flatMap escape := by simpa [encode] using same
  have left := feed_body (p.length + q.length) p [] (by simp)
  have right := feed_body (p.length + q.length) q [] (by simp)
  rw [bodies, right] at left
  simpa using left.symm

end Slip
