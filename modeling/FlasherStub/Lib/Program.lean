import Mathlib.Order.WellFounded
import Mathlib.Tactic.Common

/-! Sequential programs over a state `σ`, with unbounded loops.
A program is run on a budget: every loop head spends one unit, and a run whose
budget is used up stops at that head and shows the state it had reached. The
states shown in this way, for all budgets, are the states a run passes through,
so one semantics carries both what a program returns and what holds on its way
there, also when it never returns. -/

namespace Budget

inductive Outcome (σ α : Type) where
  | done (value : α) (state : σ) (left : Nat)
  | cut (state : σ)

/-- A finished run returns the same and spends the same on any larger budget. -/
structure Prog (σ α : Type) where
  run : Nat → σ → Outcome σ α
  left_le : ∀ {n s a t m}, run n s = .done a t m → m ≤ n
  extend : ∀ {n s a t m}, run n s = .done a t m → ∀ k, run (n + k) s = .done a t (m + k)
  shrink : ∀ {n s a t m k}, run (n + k) s = .done a t (m + k) → run n s = .done a t m

namespace Prog

variable {σ τ α β γ : Type}

def act (f : σ → α × σ) : Prog σ α where
  run n s := .done (f s).1 (f s).2 n
  left_le h := by
    injection h with _ _ h
    exact h.ge
  extend h k := by
    injection h with h₁ h₂ h₃
    rw [h₁, h₂, h₃]
  shrink h := by
    injection h with h₁ h₂ h₃
    rw [h₁, h₂, Nat.add_right_cancel h₃]

def bindRun (p : Prog σ α) (f : α → Prog σ β) (n : Nat) (s : σ) : Outcome σ β :=
  match p.run n s with
  | .done a t m => (f a).run m t
  | .cut t => .cut t

theorem bindRun_done {p : Prog σ α} {f : α → Prog σ β} {n : Nat} {s : σ} {b : β} {u : σ}
    {m : Nat} (h : bindRun p f n s = .done b u m) :
    ∃ a t l, p.run n s = .done a t l ∧ (f a).run l t = .done b u m := by
  unfold bindRun at h
  split at h
  case h_1 a t l hp => exact ⟨a, t, l, hp, h⟩
  case h_2 => cases h

instance : Monad (Prog σ) where
  pure a := act fun s => (a, s)
  bind p f :=
    { run := bindRun p f
      left_le := by
        intro n s b u m h
        obtain ⟨a, t, l, hp, hf⟩ := bindRun_done h
        exact (left_le _ hf).trans (left_le _ hp)
      extend := by
        intro n s b u m h k
        obtain ⟨a, t, l, hp, hf⟩ := bindRun_done h
        simp only [bindRun, extend _ hp k, extend _ hf k]
      shrink := by
        intro n s b u m k h
        obtain ⟨a, t, l, hp, hf⟩ := bindRun_done h
        obtain ⟨l, rfl⟩ : ∃ l', l = l' + k := ⟨l - k, by have := left_le _ hf; omega⟩
        simp only [bindRun, shrink _ hp, shrink _ hf] }

def get : Prog σ σ := act fun s => (s, s)

def modify (f : σ → σ) : Prog σ Unit := act fun s => ((), f s)

/-- Run a program on a part of a larger state. -/
def focus (view : σ → τ) (put : σ → τ → σ) (p : Prog τ α) : Prog σ α where
  run n s := match p.run n (view s) with
    | .done a t m => .done a (put s t) m
    | .cut t => .cut (put s t)
  left_le := by
    intro n s a t m h
    split at h
    case h_1 hp =>
      cases h
      exact left_le _ hp
    case h_2 => cases h
  extend := by
    intro n s a t m h k
    split at h
    case h_1 hp =>
      cases h
      simp only [extend _ hp k]
    case h_2 => cases h
  shrink := by
    intro n s a t m k h
    split at h
    case h_1 hp =>
      cases h
      simp only [shrink _ hp]
    case h_2 => cases h

/-- The second counter is the budget; the first only bounds the recursion and
is never the smaller of the two. -/
def loopGo (body : β → Prog σ (β ⊕ α)) : Nat → Nat → β → σ → Outcome σ α
  | 0, _, _, s => .cut s
  | _ + 1, 0, _, s => .cut s
  | depth + 1, n + 1, b, s => match (body b).run n s with
    | .done (.inl b') t m => loopGo body depth m b' t
    | .done (.inr a) t m => .done a t m
    | .cut t => .cut t

theorem loopGo_depth (body : β → Prog σ (β ⊕ α)) (d e n : Nat) (b : β) (s : σ)
    (hd : n ≤ d) (he : n ≤ e) : loopGo body d n b s = loopGo body e n b s := by
  induction d generalizing e n b s with
  | zero =>
    obtain rfl : n = 0 := by omega
    cases e <;> rfl
  | succ d ih =>
    cases n with
    | zero => cases e <;> rfl
    | succ n =>
      obtain ⟨e, rfl⟩ : ∃ e', e = e' + 1 := ⟨e - 1, by omega⟩
      simp only [loopGo]
      split
      case h_1 h =>
        have := left_le _ h
        exact ih e _ _ _ (by omega) (by omega)
      case h_2 => rfl
      case h_3 => rfl

theorem loopGo_succ (body : β → Prog σ (β ⊕ α)) (n : Nat) (b : β) (s : σ) :
    loopGo body (n + 1) (n + 1) b s = match (body b).run n s with
      | .done (.inl b') t m => loopGo body m m b' t
      | .done (.inr a) t m => .done a t m
      | .cut t => .cut t := by
  simp only [loopGo]
  split
  case h_1 h => exact loopGo_depth body _ _ _ _ _ (left_le _ h) le_rfl
  case h_2 => rfl
  case h_3 => rfl

theorem loopGo_left_le (body : β → Prog σ (β ⊕ α)) (n : Nat) {b : β} {s : σ} {a : α} {t : σ}
    {m : Nat} (h : loopGo body n n b s = .done a t m) : m ≤ n := by
  induction n using Nat.strong_induction_on generalizing b s with
  | _ n ih =>
    cases n with
    | zero => cases h
    | succ n =>
      rw [loopGo_succ] at h
      split at h
      case h_1 l hb =>
        have hl := left_le _ hb
        have := ih l (by omega) h
        omega
      case h_2 hb =>
        cases h
        have := left_le _ hb
        omega
      case h_3 => cases h

theorem loopGo_extend (body : β → Prog σ (β ⊕ α)) (n : Nat) {b : β} {s : σ} {a : α} {t : σ}
    {m : Nat} (h : loopGo body n n b s = .done a t m) (k : Nat) :
    loopGo body (n + k) (n + k) b s = .done a t (m + k) := by
  induction n using Nat.strong_induction_on generalizing b s with
  | _ n ih =>
    cases n with
    | zero => cases h
    | succ n =>
      rw [loopGo_succ] at h
      rw [Nat.add_right_comm, loopGo_succ]
      split at h
      case h_1 l hb =>
        have hl := left_le _ hb
        simp only [extend _ hb k]
        exact ih l (by omega) h
      case h_2 hb =>
        cases h
        simp only [extend _ hb k]
      case h_3 => cases h

theorem loopGo_shrink (body : β → Prog σ (β ⊕ α)) (n : Nat) {b : β} {s : σ} {a : α} {t : σ}
    {m k : Nat} (h : loopGo body (n + k) (n + k) b s = .done a t (m + k)) :
    loopGo body n n b s = .done a t m := by
  induction n using Nat.strong_induction_on generalizing b s with
  | _ n ih =>
    cases n with
    | zero =>
      cases k with
      | zero => cases h
      | succ k =>
        -- one unit is spent at the first head, so less than `k + 1` are left
        rw [Nat.zero_add, loopGo_succ] at h
        split at h
        case h_1 hb =>
          have := left_le _ hb
          have := loopGo_left_le body _ h
          omega
        case h_2 hb =>
          injection h with _ _ same
          have := left_le _ hb
          omega
        case h_3 => cases h
    | succ n =>
      rw [Nat.add_right_comm, loopGo_succ] at h
      rw [loopGo_succ]
      split at h
      case h_1 l hb =>
        have := loopGo_left_le body _ h
        obtain ⟨l, rfl⟩ : ∃ l', l = l' + k := ⟨l - k, by omega⟩
        have hl := left_le _ (shrink _ hb)
        simp only [shrink _ hb]
        exact ih l (by omega) h
      case h_2 hb =>
        cases h
        simp only [shrink _ hb]
      case h_3 => cases h

/-- Repeat `body`, handing on `Sum.inl` values, until it gives a `Sum.inr`. -/
def loop (body : β → Prog σ (β ⊕ α)) (b : β) : Prog σ α where
  run n s := loopGo body n n b s
  left_le := loopGo_left_le body _
  extend := loopGo_extend body _
  shrink := loopGo_shrink body _

theorem loop_run_succ (body : β → Prog σ (β ⊕ α)) (n : Nat) (b : β) (s : σ) :
    (loop body b).run (n + 1) s = match (body b).run n s with
      | .done (.inl b') t m => (loop body b').run m t
      | .done (.inr a) t m => .done a t m
      | .cut t => .cut t := loopGo_succ body n b s

/-- `p` started in `s` ends in `t` with value `a`. -/
def Returns (p : Prog σ α) (s : σ) (a : α) (t : σ) : Prop := ∃ n m, p.run n s = .done a t m

/-- A run of `p` started in `s` stands in `t` at some loop head. -/
def Visits (p : Prog σ α) (s t : σ) : Prop := ∃ n, p.run n s = .cut t

/-- `t` is passed on the way or at the end of a run of `p` started in `s`. -/
def Reaches (p : Prog σ α) (s t : σ) : Prop := p.Visits s t ∨ ∃ a, p.Returns s a t

def Terminates (p : Prog σ α) (s : σ) : Prop := ∃ a t, p.Returns s a t

/-- Every state passed on the way satisfies `always`, and every result `post`. -/
def Ensures (p : Prog σ α) (s : σ) (always : σ → Prop) (post : α → σ → Prop) : Prop :=
  (∀ t, p.Visits s t → always t) ∧ ∀ a t, p.Returns s a t → post a t

def ends (check : α → σ → Bool) : Outcome σ α → Bool
  | .done a t _ => check a t
  | .cut _ => false

theorem exists_returns_of_ends (p : Prog σ α) (s : σ) (n : Nat) (check : α → σ → Bool)
    (ran : ends check (p.run n s) = true) : ∃ a t, p.Returns s a t ∧ check a t = true := by
  cases h : p.run n s with
  | done a t m =>
    rw [h] at ran
    exact ⟨a, t, ⟨n, m, h⟩, ran⟩
  | cut t =>
    rw [h] at ran
    exact absurd ran Bool.false_ne_true

theorem Returns.unique {p : Prog σ α} {s t u : σ} {a b : α} (h : p.Returns s a t)
    (k : p.Returns s b u) : a = b ∧ t = u := by
  obtain ⟨n, m, h⟩ := h
  obtain ⟨n', m', k⟩ := k
  have h' := p.extend h n'
  have k' := p.extend k n
  rw [Nat.add_comm n' n, h'] at k'
  injection k' with h₁ h₂
  exact ⟨h₁, h₂⟩

@[simp] theorem returns_act (f : σ → α × σ) (s : σ) (a : α) (t : σ) :
    (act f).Returns s a t ↔ a = (f s).1 ∧ t = (f s).2 := by
  constructor
  · rintro ⟨n, m, h⟩
    injection h with h₁ h₂
    exact ⟨h₁.symm, h₂.symm⟩
  · rintro ⟨rfl, rfl⟩
    exact ⟨0, 0, rfl⟩

@[simp] theorem returns_pure (a b : α) (s t : σ) :
    (pure a : Prog σ α).Returns s b t ↔ b = a ∧ t = s := returns_act _ s b t

@[simp] theorem returns_get (s a t : σ) :
    (get : Prog σ σ).Returns s a t ↔ a = s ∧ t = s := returns_act _ s a t

@[simp] theorem returns_modify (f : σ → σ) (s : σ) (a : Unit) (t : σ) :
    (modify f).Returns s a t ↔ t = f s := by
  rw [modify, returns_act]
  exact ⟨fun h => h.2, fun h => ⟨rfl, h⟩⟩

theorem returns_bind (p : Prog σ α) (f : α → Prog σ β) (s : σ) (b : β) (u : σ) :
    (p >>= f).Returns s b u ↔ ∃ a t, p.Returns s a t ∧ (f a).Returns t b u := by
  constructor
  · rintro ⟨n, m, h⟩
    obtain ⟨a, t, l, hp, hf⟩ := bindRun_done h
    exact ⟨a, t, ⟨n, l, hp⟩, ⟨l, m, hf⟩⟩
  · rintro ⟨a, t, ⟨n, l, hp⟩, ⟨n', m, hf⟩⟩
    refine ⟨n + n', m + l, ?_⟩
    change bindRun p f (n + n') s = _
    rw [bindRun, p.extend hp n', Nat.add_comm l n']
    exact (f a).extend hf l

@[simp] theorem returns_act_bind (f : σ → α × σ) (g : α → Prog σ β) (s : σ) (b : β) (u : σ) :
    (act f >>= g).Returns s b u ↔ (g (f s).1).Returns (f s).2 b u := by
  simp [returns_bind]

@[simp] theorem returns_pure_bind (a : α) (g : α → Prog σ β) (s : σ) (b : β) (u : σ) :
    (pure a >>= g).Returns s b u ↔ (g a).Returns s b u := returns_act_bind _ g s b u

@[simp] theorem returns_get_bind (g : σ → Prog σ β) (s : σ) (b : β) (u : σ) :
    (get >>= g).Returns s b u ↔ (g s).Returns s b u := returns_act_bind _ g s b u

@[simp] theorem returns_modify_bind (f : σ → σ) (g : Unit → Prog σ β) (s : σ) (b : β) (u : σ) :
    (modify f >>= g).Returns s b u ↔ (g ()).Returns (f s) b u := returns_act_bind _ g s b u

theorem returns_focus {view : σ → τ} {put : σ → τ → σ} {p : Prog τ α} {s : σ} {a : α} {t : σ} :
    (focus view put p).Returns s a t ↔ ∃ u, p.Returns (view s) a u ∧ t = put s u := by
  constructor
  · rintro ⟨n, m, h⟩
    simp only [focus] at h
    split at h
    case h_1 hp =>
      cases h
      exact ⟨_, ⟨n, m, hp⟩, rfl⟩
    case h_2 => cases h
  · rintro ⟨u, ⟨n, m, hp⟩, rfl⟩
    exact ⟨n, m, by simp only [focus, hp]⟩

theorem visits_focus {view : σ → τ} {put : σ → τ → σ} {p : Prog τ α} {s t : σ}
    (h : (focus view put p).Visits s t) : ∃ u, p.Visits (view s) u ∧ t = put s u := by
  obtain ⟨n, h⟩ := h
  simp only [focus] at h
  split at h
  case h_1 => cases h
  case h_2 u hp =>
    cases h
    exact ⟨u, ⟨n, hp⟩, rfl⟩

theorem returns_loop (body : β → Prog σ (β ⊕ α)) (b : β) (s : σ) (a : α) (u : σ) :
    (loop body b).Returns s a u ↔
      (body b).Returns s (.inr a) u ∨
        ∃ b' t, (body b).Returns s (.inl b') t ∧ (loop body b').Returns t a u := by
  constructor
  · rintro ⟨n, m, h⟩
    cases n with
    | zero => cases h
    | succ n =>
      rw [loop_run_succ] at h
      split at h
      case h_1 b' t l hb => exact .inr ⟨b', t, ⟨n, l, hb⟩, ⟨l, m, h⟩⟩
      case h_2 hb =>
        cases h
        exact .inl ⟨n, _, hb⟩
      case h_3 => cases h
  · rintro (⟨n, m, hb⟩ | ⟨b', t, ⟨n, l, hb⟩, ⟨n', m, h⟩⟩)
    · exact ⟨n + 1, m, by simp only [loop_run_succ, hb]⟩
    · refine ⟨n + n' + 1, m + l, ?_⟩
      simp only [loop_run_succ, extend _ hb n', Nat.add_comm l n']
      exact extend _ h l

theorem not_visits_act (f : σ → α × σ) (s t : σ) : ¬ (act f).Visits s t := by
  rintro ⟨n, h⟩
  cases h

theorem visits_bind {p : Prog σ α} {f : α → Prog σ β} {s u : σ} (h : (p >>= f).Visits s u) :
    p.Visits s u ∨ ∃ a t, p.Returns s a t ∧ (f a).Visits t u := by
  obtain ⟨n, h⟩ := h
  change bindRun p f n s = _ at h
  unfold bindRun at h
  split at h
  case h_1 a t l hp => exact .inr ⟨a, t, ⟨n, l, hp⟩, ⟨l, h⟩⟩
  case h_2 t hp =>
    cases h
    exact .inl ⟨n, hp⟩

theorem visits_act_bind (f : σ → α × σ) (g : α → Prog σ β) (s u : σ) :
    (act f >>= g).Visits s u ↔ (g (f s).1).Visits (f s).2 u := Iff.rfl

theorem visits_get_bind (g : σ → Prog σ β) (s u : σ) :
    (get >>= g).Visits s u ↔ (g s).Visits s u := visits_act_bind _ g s u

theorem visits_modify_bind (f : σ → σ) (g : Unit → Prog σ β) (s u : σ) :
    (modify f >>= g).Visits s u ↔ (g ()).Visits (f s) u := visits_act_bind _ g s u

theorem Ensures.act {f : σ → α × σ} {s : σ} {always : σ → Prop} {post : α → σ → Prop}
    (h : post (f s).1 (f s).2) : (act f).Ensures s always post := by
  refine ⟨fun t ht => (not_visits_act f s t ht).elim, fun a t ht => ?_⟩
  obtain ⟨rfl, rfl⟩ := (returns_act f s a t).mp ht
  exact h

theorem Ensures.pure {a : α} {s : σ} {always : σ → Prop} {post : α → σ → Prop}
    (h : post a s) : (Pure.pure a : Prog σ α).Ensures s always post := Ensures.act h

theorem Ensures.get {s : σ} {always : σ → Prop} {post : σ → σ → Prop}
    (h : post s s) : (Prog.get : Prog σ σ).Ensures s always post := Ensures.act h

theorem Ensures.modify {f : σ → σ} {s : σ} {always : σ → Prop} {post : Unit → σ → Prop}
    (h : post () (f s)) : (Prog.modify f).Ensures s always post := Ensures.act h

theorem Ensures.bind {p : Prog σ α} {f : α → Prog σ β} {s : σ} {always : σ → Prop}
    {post : β → σ → Prop} (h : p.Ensures s always fun a t => (f a).Ensures t always post) :
    (p >>= f).Ensures s always post := by
  constructor
  · intro u hu
    obtain hp | ⟨a, t, hp, hf⟩ := visits_bind hu
    · exact h.1 u hp
    · exact (h.2 a t hp).1 u hf
  · intro b u hu
    obtain ⟨a, t, hp, hf⟩ := (returns_bind p f s b u).mp hu
    exact (h.2 a t hp).2 b u hf

theorem Ensures.focus {view : σ → τ} {put : σ → τ → σ} {p : Prog τ α} {s : σ}
    {always : σ → Prop} {post : α → σ → Prop}
    (h : p.Ensures (view s) (fun u => always (put s u)) fun a u => post a (put s u)) :
    (Prog.focus view put p).Ensures s always post := by
  constructor
  · intro t ht
    obtain ⟨u, hu, rfl⟩ := visits_focus ht
    exact h.1 u hu
  · intro a t ht
    obtain ⟨u, hu, rfl⟩ := returns_focus.mp ht
    exact h.2 a u hu

theorem Ensures.mono {p : Prog σ α} {s : σ} {always always' : σ → Prop}
    {post post' : α → σ → Prop} (h : p.Ensures s always post)
    (halways : ∀ t, always t → always' t) (hpost : ∀ a t, post a t → post' a t) :
    p.Ensures s always' post' :=
  ⟨fun t ht => halways t (h.1 t ht), fun a t ht => hpost a t (h.2 a t ht)⟩

theorem Ensures.post {p : Prog σ α} {s : σ} {always : σ → Prop} {post post' : α → σ → Prop}
    (h : p.Ensures s always post) (hpost : ∀ a t, post a t → post' a t) :
    p.Ensures s always post' := h.mono (fun _ => id) hpost

theorem Ensures.and {p : Prog σ α} {s : σ} {always always' : σ → Prop} {post post' : α → σ → Prop}
    (h : p.Ensures s always post) (h' : p.Ensures s always' post') :
    p.Ensures s (fun t => always t ∧ always' t) fun a t => post a t ∧ post' a t :=
  ⟨fun t ht => ⟨h.1 t ht, h'.1 t ht⟩, fun a t ht => ⟨h.2 a t ht, h'.2 a t ht⟩⟩

theorem Ensures.of_returns {p : Prog σ α} {s : σ} {post : α → σ → Prop}
    (h : ∀ a t, p.Returns s a t → post a t) : p.Ensures s (fun _ => True) post :=
  ⟨fun _ _ => trivial, h⟩

theorem Ensures.reaches {p : Prog σ α} {s : σ} {always : σ → Prop} {post : α → σ → Prop}
    (h : p.Ensures s always post) (hpost : ∀ a t, post a t → always t) {t : σ}
    (ht : p.Reaches s t) : always t := by
  obtain ht | ⟨a, ht⟩ := ht
  · exact h.1 t ht
  · exact hpost a t (h.2 a t ht)

/-- The invariant rule: `inv` holds at every loop head. -/
theorem Ensures.loop {body : β → Prog σ (β ⊕ α)} {always : σ → Prop} {post : α → σ → Prop}
    (inv : β → σ → Prop) (head : ∀ b s, inv b s → always s)
    (step : ∀ b s, inv b s →
      (body b).Ensures s always fun r t => Sum.elim (inv · t) (post · t) r)
    {b : β} {s : σ} (start : inv b s) : (loop body b).Ensures s always post := by
  suffices key : ∀ n b s, inv b s →
      (∀ t, (Prog.loop body b).run n s = .cut t → always t) ∧
        ∀ a t m, (Prog.loop body b).run n s = .done a t m → post a t by
    exact ⟨fun t ⟨n, h⟩ => (key n b s start).1 t h,
      fun a t ⟨n, m, h⟩ => (key n b s start).2 a t m h⟩
  intro n
  induction n using Nat.strong_induction_on with
  | _ n ih =>
    intro b s hinv
    cases n with
    | zero =>
      refine ⟨fun t h => ?_, fun a t m h => by cases h⟩
      injection h with h
      exact h ▸ head b s hinv
    | succ n =>
      obtain ⟨hvisits, hreturns⟩ := step b s hinv
      simp only [loop_run_succ]
      cases hb : (body b).run n s with
      | done r t l =>
        cases r with
        | inl b' =>
          have hl := left_le _ hb
          exact ih l (by omega) b' t (hreturns (.inl b') t ⟨n, l, hb⟩)
        | inr a =>
          refine ⟨fun _ h => (by cases h), fun a' t' m h => ?_⟩
          cases h
          exact hreturns (.inr a) t ⟨n, l, hb⟩
      | cut t =>
        refine ⟨fun t' h => ?_, fun _ _ _ h => (by cases h)⟩
        cases h
        exact hvisits t ⟨n, hb⟩

/-- From every state on, each state passed is related to the first one by `R`. -/
def Keeps (p : Prog σ α) (R : σ → σ → Prop) : Prop :=
  ∀ s, p.Ensures s (R s) fun _ => R s

section Keeps

variable {R : σ → σ → Prop}

theorem keeps_act {f : σ → α × σ} (h : ∀ s, R s (f s).2) : (Prog.act f).Keeps R :=
  fun s => Ensures.act (h s)

theorem keeps_modify {f : σ → σ} (h : ∀ s, R s (f s)) : (Prog.modify f).Keeps R := keeps_act h

theorem keeps_pure [Std.Refl R] (a : α) : (Pure.pure a : Prog σ α).Keeps R :=
  keeps_act fun s => Std.Refl.refl s

theorem keeps_get [Std.Refl R] : (Prog.get : Prog σ σ).Keeps R := keeps_act fun s => Std.Refl.refl s

theorem keeps_ite {c : Prop} [Decidable c] {p q : Prog σ α} (hp : p.Keeps R) (hq : q.Keeps R) :
    (if c then p else q).Keeps R := by
  split
  · exact hp
  · exact hq

theorem Keeps.mono {R' : σ → σ → Prop} {p : Prog σ α} (h : p.Keeps R)
    (imp : ∀ s t, R s t → R' s t) : p.Keeps R' :=
  fun s => (h s).mono (fun t ht => imp s t ht) fun _ t ht => imp s t ht

variable [IsTrans σ R]

theorem Keeps.ensures {p : Prog σ α} (h : p.Keeps R) {s₀ s : σ} (hs : R s₀ s) :
    p.Ensures s (R s₀) fun _ => R s₀ :=
  (h s).mono (fun _ ht => IsTrans.trans _ _ _ hs ht) fun _ _ ht => IsTrans.trans _ _ _ hs ht

theorem Keeps.bind {p : Prog σ α} {f : α → Prog σ β} (h : p.Keeps R) (hf : ∀ a, (f a).Keeps R) :
    (p >>= f).Keeps R :=
  fun s => Ensures.bind ((h s).post fun a _ ht => (hf a).ensures ht)

theorem keeps_loop [Std.Refl R] {body : β → Prog σ (β ⊕ α)} (h : ∀ b, (body b).Keeps R) (b : β) :
    (Prog.loop body b).Keeps R := by
  intro s
  refine Ensures.loop (fun _ => R s) (fun _ _ ht => ht) (fun b t ht => ?_) (Std.Refl.refl s)
  refine ((h b).ensures ht).post fun r u hu => ?_
  cases r <;> exact hu

end Keeps

def Gives (p : Prog σ α) (Q : α → Prop) : Prop :=
  ∀ s, p.Ensures s (fun _ => True) fun a _ => Q a

section Gives

variable {P : α → Prop} {Q : β → Prop}

theorem gives_any (p : Prog σ α) : p.Gives fun _ => True :=
  fun _ => Ensures.of_returns fun _ _ _ => trivial

theorem gives_pure {b : β} (h : Q b) : (Pure.pure b : Prog σ β).Gives Q := fun _ => Ensures.pure h

theorem gives_ite {c : Prop} [Decidable c] {p q : Prog σ β} (hp : p.Gives Q) (hq : q.Gives Q) :
    (if c then p else q).Gives Q := by
  split
  · exact hp
  · exact hq

theorem Gives.mono {p : Prog σ β} {Q' : β → Prop} (h : p.Gives Q) (imp : ∀ b, Q b → Q' b) :
    p.Gives Q' := fun s => (h s).post fun b _ => imp b

theorem Gives.focus {view : σ → τ} {put : σ → τ → σ} {p : Prog τ β} (h : p.Gives Q) :
    (Prog.focus view put p).Gives Q := fun s => Ensures.focus (h (view s))

theorem Gives.bind {p : Prog σ α} {f : α → Prog σ β} (h : p.Gives P)
    (hf : ∀ a, P a → (f a).Gives Q) : (p >>= f).Gives Q :=
  fun s => Ensures.bind ((h s).post fun a t ha => hf a ha t)

theorem gives_bind {p : Prog σ α} {f : α → Prog σ β} (hf : ∀ a, (f a).Gives Q) :
    (p >>= f).Gives Q := (gives_any p).bind fun a _ => hf a

theorem gives_loop {body : α → Prog σ (α ⊕ β)}
    (h : ∀ a, (body a).Gives (Sum.elim (fun _ => True) Q)) (a : α) :
    (Prog.loop body a).Gives Q := by
  intro s
  refine Ensures.loop (fun _ _ => True) (fun _ _ _ => trivial) (fun a t _ => ?_) trivial
  refine (h a t).post fun r u hr => ?_
  cases r <;> exact hr

end Gives

def Leads (p : Prog σ α) (R : σ → σ → Prop) : Prop :=
  ∀ s a t, p.Returns s a t → R s t

section Leads

variable {R : σ → σ → Prop}

theorem leads_act {f : σ → α × σ} (h : ∀ s, R s (f s).2) : (Prog.act f).Leads R := by
  intro s a t run
  have last := ((returns_act f s a t).mp run).2
  rw [last]
  exact h s

theorem leads_modify {f : σ → σ} (h : ∀ s, R s (f s)) : (Prog.modify f).Leads R := leads_act h

theorem leads_pure [Std.Refl R] (a : α) : (Pure.pure a : Prog σ α).Leads R :=
  leads_act fun s => Std.Refl.refl s

theorem leads_ite {c : Prop} [Decidable c] {p q : Prog σ α} (hp : p.Leads R) (hq : q.Leads R) :
    (if c then p else q).Leads R := by
  split
  · exact hp
  · exact hq

variable [IsTrans σ R]

theorem Leads.bind {p : Prog σ α} {f : α → Prog σ β} (h : p.Leads R) (hf : ∀ a, (f a).Leads R) :
    (p >>= f).Leads R := by
  intro s b u run
  obtain ⟨a, t, first, rest⟩ := (returns_bind p f s b u).mp run
  exact IsTrans.trans _ _ _ (h s a t first) (hf a t b u rest)

theorem leads_get_bind [Std.Refl R] {f : σ → Prog σ β} (hf : ∀ s, (f s).Leads R) :
    (Prog.get >>= f).Leads R := Leads.bind (leads_act fun s => Std.Refl.refl s) hf

theorem leads_loop [Std.Refl R] {body : β → Prog σ (β ⊕ α)} (h : ∀ b, (body b).Leads R) (b : β) :
    (Prog.loop body b).Leads R := by
  intro s a t run
  have whole : (Prog.loop body b).Ensures s (fun _ => True) fun _ => R s := by
    apply Ensures.loop (fun _ => R s) (fun _ _ _ => trivial) ?_ (Std.Refl.refl s)
    intro b t ht
    apply Ensures.of_returns
    intro r u step
    have next := IsTrans.trans _ _ _ ht (h b t r u step)
    cases r <;> exact next
  exact whole.2 a t run

end Leads

theorem terminates_act (f : σ → α × σ) (s : σ) : (act f).Terminates s :=
  ⟨_, _, (returns_act f s _ _).mpr ⟨rfl, rfl⟩⟩

theorem terminates_pure (a : α) (s : σ) : (pure a : Prog σ α).Terminates s := terminates_act _ s

theorem Terminates.bind {p : Prog σ α} {f : α → Prog σ β} {s : σ} (h : p.Terminates s)
    (hf : ∀ a t, p.Returns s a t → (f a).Terminates t) : (p >>= f).Terminates s := by
  obtain ⟨a, t, hp⟩ := h
  obtain ⟨b, u, hb⟩ := hf a t hp
  exact ⟨b, u, (returns_bind p f s b u).mpr ⟨a, t, hp, hb⟩⟩

theorem Terminates.act_bind {g : σ → α × σ} {f : α → Prog σ β} {s : σ}
    (h : (f (g s).1).Terminates (g s).2) : (act g >>= f).Terminates s := by
  refine (terminates_act g s).bind fun a t run => ?_
  obtain ⟨rfl, rfl⟩ := (returns_act g s a t).mp run
  exact h

def Ends (p : Prog σ α) : Prop := ∀ s, p.Terminates s

section Ends

theorem ends_act (f : σ → α × σ) : (act f).Ends := terminates_act f

theorem ends_modify (f : σ → σ) : (modify f).Ends := ends_act _

theorem ends_get : (get : Prog σ σ).Ends := ends_act _

theorem ends_pure (a : α) : (Pure.pure a : Prog σ α).Ends := ends_act _

theorem ends_ite {c : Prop} [Decidable c] {p q : Prog σ α} (hp : p.Ends) (hq : q.Ends) :
    (if c then p else q).Ends := by
  split
  · exact hp
  · exact hq

theorem Ends.bind {p : Prog σ α} {f : α → Prog σ β} (h : p.Ends) (hf : ∀ a, (f a).Ends) :
    (p >>= f).Ends := fun s => (h s).bind fun a t _ => hf a t

theorem Ends.focus {view : σ → τ} {put : σ → τ → σ} {p : Prog τ α} (h : p.Ends) :
    (Prog.focus view put p).Ends := by
  intro s
  obtain ⟨a, u, run⟩ := h (view s)
  exact ⟨a, put s u, returns_focus.mpr ⟨u, run, rfl⟩⟩

end Ends

section Variant

variable {body : β → Prog σ (β ⊕ α)} {δ : Type} [Preorder δ] [WellFoundedLT δ]
  (inv : β → σ → Prop) (rank : β → σ → δ)

/-- Total correctness: every iteration returns, one that goes on keeps `inv` and lowers `rank`,
and one that ends the loop meets `post`. -/
theorem exists_returns_loop {post : α → σ → Prop}
    (step : ∀ b s, inv b s → ∃ r t, (body b).Returns s r t ∧
      r.elim (fun b' => inv b' t ∧ rank b' t < rank b s) fun a => post a t)
    {b : β} {s : σ} (start : inv b s) : ∃ a t, (loop body b).Returns s a t ∧ post a t := by
  suffices key : ∀ (d : δ) b s, rank b s = d → inv b s →
      ∃ a t, (Prog.loop body b).Returns s a t ∧ post a t from key _ b s rfl start
  intro d
  induction d using WellFoundedLT.induction with
  | _ d ih =>
    intro b s hd hinv
    obtain ⟨r, t, hr, hnext⟩ := step b s hinv
    cases r with
    | inl b' =>
      obtain ⟨hinv', hlt⟩ := hnext
      obtain ⟨a, u, hu, hpost⟩ := ih _ (hd ▸ hlt) b' t rfl hinv'
      exact ⟨a, u, (returns_loop body b s a u).mpr (.inr ⟨b', t, hr, hu⟩), hpost⟩
    | inr a => exact ⟨a, t, (returns_loop body b s a t).mpr (.inl hr), hnext⟩

/-- The variant rule: every iteration returns, and each that goes on keeps
`inv` and lowers `rank`. -/
theorem terminates_loop
    (step : ∀ b s, inv b s → ∃ r t, (body b).Returns s r t ∧
      ∀ b', r = .inl b' → inv b' t ∧ rank b' t < rank b s)
    {b : β} {s : σ} (start : inv b s) : (loop body b).Terminates s := by
  obtain ⟨a, t, run, -⟩ : ∃ a t, (Prog.loop body b).Returns s a t ∧ True := by
    refine exists_returns_loop inv rank (fun b s hinv => ?_) start
    obtain ⟨r, t, hr, hnext⟩ := step b s hinv
    refine ⟨r, t, hr, ?_⟩
    cases r with
    | inl b' => exact hnext b' rfl
    | inr a => trivial
  exact ⟨a, t, run⟩

end Variant

theorem Returns.leaving {p : Prog σ α} {s t : σ} {a : α} (h : p.Returns s a t) (k : Nat) :
    ∃ n, p.run n s = .done a t k := by
  obtain ⟨n, m, hn⟩ := h
  obtain ⟨n, rfl⟩ : ∃ n', n = n' + m := ⟨n - m, by have := p.left_le hn; omega⟩
  have spent : p.run n s = .done a t 0 := p.shrink (k := m) (by rw [hn, Nat.zero_add])
  exact ⟨n + k, by rw [p.extend spent k, Nat.zero_add]⟩

theorem visits_bind_left {p : Prog σ α} (f : α → Prog σ β) {s u : σ} (h : p.Visits s u) :
    (p >>= f).Visits s u := by
  obtain ⟨n, hn⟩ := h
  refine ⟨n, ?_⟩
  change bindRun p f n s = _
  rw [bindRun, hn]

theorem visits_bind_right {p : Prog σ α} {f : α → Prog σ β} {s t u : σ} {a : α}
    (h : p.Returns s a t) (hf : (f a).Visits t u) : (p >>= f).Visits s u := by
  obtain ⟨k, hk⟩ := hf
  obtain ⟨n, hn⟩ := h.leaving k
  refine ⟨n, ?_⟩
  change bindRun p f n s = _
  rw [bindRun, hn]
  exact hk

theorem visits_loop_head (body : β → Prog σ (β ⊕ α)) (b : β) (s : σ) :
    (loop body b).Visits s s := ⟨0, rfl⟩

theorem visits_loop_body {body : β → Prog σ (β ⊕ α)} {b : β} {s u : σ}
    (h : (body b).Visits s u) : (loop body b).Visits s u := by
  obtain ⟨n, hn⟩ := h
  exact ⟨n + 1, by rw [loop_run_succ, hn]⟩

theorem visits_loop_next {body : β → Prog σ (β ⊕ α)} {b b' : β} {s t u : σ}
    (h : (body b).Returns s (.inl b') t) (rest : (loop body b').Visits t u) :
    (loop body b).Visits s u := by
  obtain ⟨k, hk⟩ := rest
  obtain ⟨n, hn⟩ := h.leaving k
  exact ⟨n + 1, by rw [loop_run_succ, hn]; exact hk⟩

/-- The loop of `body`, entered at the head `b`, `s`, comes to the head `c`, `t`; `os` is what
`obs` shows at the heads that it has left. -/
inductive Iterates {ω : Type} (body : β → Prog σ (β ⊕ α)) (obs : β → σ → ω) (b : β) (s : σ) :
    List ω → β → σ → Prop where
  | start : Iterates body obs b s [] b s
  | next {os c t d u} (before : Iterates body obs b s os c t)
      (step : (body c).Returns t (.inl d) u) : Iterates body obs b s (os ++ [obs c t]) d u

theorem Iterates.returns {ω : Type} {body : β → Prog σ (β ⊕ α)} {obs : β → σ → ω}
    {b c : β} {s t u : σ}
    {os : List ω} {a : α} (h : Iterates body obs b s os c t) (rest : (loop body c).Returns t a u) :
    (loop body b).Returns s a u := by
  induction h with
  | start => exact rest
  | next _ step ih => exact ih ((returns_loop _ _ _ _ _).mpr (.inr ⟨_, _, step, rest⟩))

theorem returns_loop_iterates {ω : Type} {body : β → Prog σ (β ⊕ α)} (obs : β → σ → ω) {b : β}
    {s : σ} {a : α} {u : σ} : (loop body b).Returns s a u ↔
      ∃ os c t, Iterates body obs b s os c t ∧ (body c).Returns t (.inr a) u := by
  constructor
  · have rounds : (loop body b).Ensures s (fun _ => True)
        fun a u => ∃ os c t, Iterates body obs b s os c t ∧ (body c).Returns t (.inr a) u := by
      refine Ensures.loop (fun c t => ∃ os, Iterates body obs b s os c t) (fun _ _ _ => trivial)
        (fun c t ⟨os, before⟩ => Ensures.of_returns fun r u step => ?_) ⟨[], .start⟩
      cases r with
      | inl d => exact ⟨_, before.next step⟩
      | inr a => exact ⟨os, c, t, before, step⟩
    exact rounds.2 a u
  · rintro ⟨os, c, t, before, last⟩
    exact before.returns ((returns_loop _ _ _ _ _).mpr (.inl last))

theorem Iterates.visits {ω : Type} {body : β → Prog σ (β ⊕ α)} {obs : β → σ → ω} {b c : β}
    {s t u : σ} {os : List ω} (h : Iterates body obs b s os c t)
    (rest : (loop body c).Visits t u) : (loop body b).Visits s u := by
  induction h with
  | start => exact rest
  | next _ step ih => exact ih (visits_loop_next step rest)

/-- What a loop passes: its heads, and what its body passes from one of them. -/
theorem visits_loop_iterates {ω : Type} {body : β → Prog σ (β ⊕ α)} (obs : β → σ → ω) {b : β}
    {s u : σ} : (loop body b).Visits s u ↔
      ∃ os c t, Iterates body obs b s os c t ∧ (u = t ∨ (body c).Visits t u) := by
  constructor
  · have passed : (loop body b).Ensures s
        (fun u => ∃ os c t, Iterates body obs b s os c t ∧ (u = t ∨ (body c).Visits t u))
        fun _ _ => True := by
      refine Ensures.loop (fun c t => ∃ os, Iterates body obs b s os c t)
        (fun c t ⟨os, before⟩ => ⟨os, c, t, before, .inl rfl⟩) (fun c t ⟨os, before⟩ => ?_)
        ⟨[], .start⟩
      refine ⟨fun u inside => ⟨os, c, t, before, .inr inside⟩, fun r u step => ?_⟩
      cases r with
      | inl d => exact ⟨_, before.next step⟩
      | inr a => trivial
    exact passed.1 u
  · rintro ⟨os, c, t, before, rfl | inside⟩
    · exact before.visits (visits_loop_head body c u)
    · exact before.visits (visits_loop_body inside)

/-- From every state on `p` returns, and it passes no loop head. -/
def Straight (p : Prog σ α) : Prop := ∀ s, ∃ a t, p.run 0 s = .done a t 0

section Straight

theorem straight_act (f : σ → α × σ) : (act f).Straight := fun _ => ⟨_, _, rfl⟩

theorem straight_modify (f : σ → σ) : (modify f).Straight := straight_act _

theorem straight_pure (a : α) : (Pure.pure a : Prog σ α).Straight := straight_act _

theorem straight_ite {c : Prop} [Decidable c] {p q : Prog σ α} (hp : p.Straight)
    (hq : q.Straight) : (if c then p else q).Straight := by
  split
  · exact hp
  · exact hq

theorem Straight.bind {p : Prog σ α} {f : α → Prog σ β} (h : p.Straight)
    (hf : ∀ a, (f a).Straight) : (p >>= f).Straight := by
  intro s
  obtain ⟨a, t, hp⟩ := h s
  obtain ⟨b, u, hu⟩ := hf a t
  refine ⟨b, u, ?_⟩
  change bindRun p f 0 s = _
  rw [bindRun, hp]
  exact hu

theorem Straight.ends {p : Prog σ α} (h : p.Straight) : p.Ends := by
  intro s
  obtain ⟨a, t, run⟩ := h s
  exact ⟨a, t, 0, 0, run⟩

theorem Straight.not_visits {p : Prog σ α} (h : p.Straight) (s t : σ) : ¬ p.Visits s t := by
  rintro ⟨n, cut⟩
  obtain ⟨a, u, run⟩ := h s
  have longer := p.extend run n
  rw [Nat.zero_add, cut] at longer
  cases longer

theorem visits_bind_straight {p : Prog σ α} {f : α → Prog σ β} (hf : ∀ a, (f a).Straight)
    {s u : σ} : (p >>= f).Visits s u ↔ p.Visits s u := by
  refine ⟨fun visits => ?_, visits_bind_left f⟩
  obtain inside | ⟨a, t, -, last⟩ := visits_bind visits
  · exact inside
  · exact absurd last ((hf a).not_visits t u)

end Straight

/-- A run of `p` ends, or it passes a state in `bad`. -/
def TerminatesOr (p : Prog σ α) (bad : σ → Prop) (s : σ) : Prop :=
  p.Terminates s ∨ ∃ t, p.Visits s t ∧ bad t

section TerminatesOr

variable {bad : σ → Prop}

theorem Terminates.or {p : Prog σ α} {s : σ} (h : p.Terminates s) (bad : σ → Prop) :
    p.TerminatesOr bad s := .inl h

theorem TerminatesOr.bind {p : Prog σ α} {f : α → Prog σ β} {s : σ} (h : p.TerminatesOr bad s)
    (hf : ∀ a t, p.Returns s a t → (f a).TerminatesOr bad t) : (p >>= f).TerminatesOr bad s := by
  obtain ⟨a, t, hp⟩ | ⟨t, visits, ht⟩ := h
  · obtain ⟨b, u, hu⟩ | ⟨u, visits, hu⟩ := hf a t hp
    · exact .inl ⟨b, u, (returns_bind p f s b u).mpr ⟨a, t, hp, hu⟩⟩
    · exact .inr ⟨u, visits_bind_right hp visits, hu⟩
  · exact .inr ⟨t, visits_bind_left f visits, ht⟩

theorem TerminatesOr.act_bind {g : σ → α × σ} {f : α → Prog σ β} {s : σ}
    (h : (f (g s).1).TerminatesOr bad (g s).2) : (Prog.act g >>= f).TerminatesOr bad s := by
  refine ((terminates_act g s).or bad).bind fun a t ht => ?_
  obtain ⟨rfl, rfl⟩ := (returns_act g s a t).mp ht
  exact h

theorem TerminatesOr.of_ensures {p : Prog σ α} {s : σ} {always : σ → Prop} {post : α → σ → Prop}
    (h : p.TerminatesOr bad s) (ensures : p.Ensures s always post)
    (never : ∀ t, always t → ¬bad t) : p.Terminates s := by
  obtain terminates | ⟨t, visits, ht⟩ := h
  · exact terminates
  · exact absurd ht (never t (ensures.1 t visits))

theorem terminatesOr_loop {body : β → Prog σ (β ⊕ α)} (inv : β → σ → Prop) (rank : β → σ → Nat)
    (step : ∀ b s, inv b s → ¬ bad s → (body b).TerminatesOr bad s ∧
      ∀ b' t, (body b).Returns s (.inl b') t → inv b' t ∧ (¬ bad t → rank b' t < rank b s))
    {b : β} {s : σ} (start : inv b s) : (loop body b).TerminatesOr bad s := by
  suffices key : ∀ d b s, rank b s = d → inv b s → (Prog.loop body b).TerminatesOr bad s from
    key _ b s rfl start
  intro d
  induction d using Nat.strong_induction_on with
  | _ d ih =>
    intro b s hd hinv
    by_cases here : bad s
    · exact .inr ⟨s, visits_loop_head body b s, here⟩
    obtain ⟨⟨r, t, hr⟩ | ⟨t, visits, ht⟩, next⟩ := step b s hinv here
    · cases r with
      | inr a => exact .inl ⟨a, t, (returns_loop body b s a t).mpr (.inl hr)⟩
      | inl b' =>
        obtain ⟨hinv', lower⟩ := next b' t hr
        by_cases there : bad t
        · exact .inr ⟨t, visits_loop_next hr (visits_loop_head body b' t), there⟩
        · obtain ⟨a, u, hu⟩ | ⟨u, visits, hu⟩ := ih _ (hd ▸ lower there) b' t rfl hinv'
          · exact .inl ⟨a, u, (returns_loop body b s a u).mpr (.inr ⟨b', t, hr, hu⟩)⟩
          · exact .inr ⟨u, visits_loop_next hr visits, hu⟩
    · exact .inr ⟨t, visits_loop_body visits, ht⟩

end TerminatesOr

/-- From `s` on the two programs do the same, on every budget. -/
def SameRun (p q : Prog σ α) (s : σ) : Prop := ∀ n, p.run n s = q.run n s

section SameRun

theorem SameRun.refl (p : Prog σ α) (s : σ) : p.SameRun p s := fun _ => rfl

theorem SameRun.of_eq {p q : Prog σ α} (h : p = q) (s : σ) : p.SameRun q s := fun _ => by rw [h]

theorem SameRun.returns {p q : Prog σ α} {s t : σ} {a : α} (h : p.SameRun q s)
    (ht : p.Returns s a t) : q.Returns s a t := by
  obtain ⟨n, m, hn⟩ := ht
  exact ⟨n, m, (h n).symm.trans hn⟩

theorem SameRun.bind {p q : Prog σ α} {f g : α → Prog σ β} {s : σ} (h : p.SameRun q s)
    (hf : ∀ a t, p.Returns s a t → (f a).SameRun (g a) t) : (p >>= f).SameRun (q >>= g) s := by
  intro n
  change bindRun p f n s = bindRun q g n s
  rw [bindRun, bindRun, ← h n]
  cases hp : p.run n s with
  | done a t m => exact hf a t ⟨n, m, hp⟩ m
  | cut t => rfl

theorem SameRun.act_bind {f : σ → α × σ} {g h : α → Prog σ β} {s : σ}
    (same : (g (f s).1).SameRun (h (f s).1) (f s).2) :
    (Prog.act f >>= g).SameRun (Prog.act f >>= h) s := same

theorem SameRun.focus {view : σ → τ} {put : σ → τ → σ} {p q : Prog τ α} {s : σ}
    (h : p.SameRun q (view s)) : (Prog.focus view put p).SameRun (Prog.focus view put q) s := by
  intro n
  simp only [Prog.focus, h n]

/-- Two loops do the same as long as their bodies do, in the states that are passed. -/
theorem SameRun.loop {body body' : β → Prog σ (β ⊕ α)} (inv : β → σ → Prop)
    (same : ∀ b s, inv b s → (body b).SameRun (body' b) s)
    (next : ∀ b s, inv b s → ∀ b' t, (body b).Returns s (.inl b') t → inv b' t)
    {b : β} {s : σ} (start : inv b s) : (Prog.loop body b).SameRun (Prog.loop body' b) s := by
  intro n
  induction n using Nat.strong_induction_on generalizing b s with
  | _ n ih =>
    cases n with
    | zero => rfl
    | succ n =>
      rw [loop_run_succ, loop_run_succ, ← same b s start n]
      cases hb : (body b).run n s with
      | done r t m =>
        cases r with
        | inl b' =>
          have spent := left_le _ hb
          exact ih m (by omega) (next b s start b' t ⟨n, m, hb⟩)
        | inr a => rfl
      | cut t => rfl

end SameRun

end Prog

end Budget
