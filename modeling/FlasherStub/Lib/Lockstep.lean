import FlasherStub.Lib.Program

/-! Two runs side by side. In lockstep they give the same values and spend the same budget, and
their states stay related; a program mirrors a change of the state if it commutes with it. -/

namespace Budget

/-- Both outcomes are results of the same value, or both are cut. -/
inductive Outcome.Together {σ τ α : Type} (always : σ → τ → Prop) (post : α → σ → τ → Prop) :
    Outcome σ α → Outcome τ α → Prop where
  | done {a s t n} (h : post a s t) : Together always post (.done a s n) (.done a t n)
  | cut {s t} (h : always s t) : Together always post (.cut s) (.cut t)

theorem Outcome.Together.mono {σ τ α : Type} {always always' : σ → τ → Prop}
    {post post' : α → σ → τ → Prop} {o : Outcome σ α} {o' : Outcome τ α}
    (h : o.Together always post o') (halways : ∀ s t, always s t → always' s t)
    (hpost : ∀ a s t, post a s t → post' a s t) : o.Together always' post' o' := by
  cases h with
  | done h => exact .done (hpost _ _ _ h)
  | cut h => exact .cut (halways _ _ h)

def Outcome.map {σ τ α : Type} (φ : σ → τ) : Outcome σ α → Outcome τ α
  | .done a s n => .done a (φ s) n
  | .cut s => .cut (φ s)

namespace Prog

variable {σ τ α β γ : Type}

/-- On every budget `p` from `s` and `q` from `t` end alike. -/
def Lockstep (p : Prog σ α) (q : Prog τ α) (s : σ) (t : τ) (always : σ → τ → Prop)
    (post : α → σ → τ → Prop) : Prop :=
  ∀ n, (p.run n s).Together always post (q.run n t)

section Lockstep

variable {s : σ} {t : τ} {always : σ → τ → Prop} {post : α → σ → τ → Prop}

theorem Lockstep.act {f : σ → α × σ} {g : τ → α × τ} (value : (g t).1 = (f s).1)
    (h : post (f s).1 (f s).2 (g t).2) : (act f).Lockstep (act g) s t always post := by
  intro n
  simp only [Prog.act, value]
  exact .done h

theorem Lockstep.pure {a : α} (h : post a s t) :
    (Pure.pure a : Prog σ α).Lockstep (Pure.pure a : Prog τ α) s t always post := .act rfl h

theorem Lockstep.bind {p : Prog σ β} {q : Prog τ β} {f : β → Prog σ α} {g : β → Prog τ α}
    (h : p.Lockstep q s t always fun b s t => (f b).Lockstep (g b) s t always post) :
    (p >>= f).Lockstep (q >>= g) s t always post := by
  intro n
  change (bindRun p f n s).Together always post (bindRun q g n t)
  unfold bindRun
  generalize hp : p.run n s = o
  generalize hq : q.run n t = o'
  have first := h n
  rw [hp, hq] at first
  cases first with
  | @done b u v m rest => exact rest m
  | cut h => exact .cut h

theorem Lockstep.get_bind {f : σ → Prog σ α} {g : τ → Prog τ α}
    (h : (f s).Lockstep (g t) s t always post) :
    (Prog.get >>= f).Lockstep (Prog.get >>= g) s t always post := h

theorem Lockstep.modify_bind {f : σ → σ} {g : τ → τ} {k : Unit → Prog σ α} {l : Unit → Prog τ α}
    (h : (k ()).Lockstep (l ()) (f s) (g t) always post) :
    (Prog.modify f >>= k).Lockstep (Prog.modify g >>= l) s t always post := h

theorem Lockstep.ite {c d : Prop} [Decidable c] [Decidable d] (same : c ↔ d)
    {p p' : Prog σ α} {q q' : Prog τ α} (yes : c → p.Lockstep q s t always post)
    (no : ¬c → p'.Lockstep q' s t always post) :
    (if c then p else p').Lockstep (if d then q else q') s t always post := by
  by_cases hc : c
  · rw [if_pos hc, if_pos (same.mp hc)]
    exact yes hc
  · rw [if_neg hc, if_neg (same.not.mp hc)]
    exact no hc

theorem Lockstep.mono {p : Prog σ α} {q : Prog τ α} {always' : σ → τ → Prop}
    {post' : α → σ → τ → Prop} (h : p.Lockstep q s t always post)
    (halways : ∀ u v, always u v → always' u v) (hpost : ∀ a u v, post a u v → post' a u v) :
    p.Lockstep q s t always' post' := fun n => (h n).mono halways hpost

theorem Lockstep.post_mono {p : Prog σ α} {q : Prog τ α} {post' : α → σ → τ → Prop}
    (h : p.Lockstep q s t always post) (hpost : ∀ a u v, post a u v → post' a u v) :
    p.Lockstep q s t always post' := h.mono (fun _ _ => id) hpost

/-- The invariant rule for two loops. -/
theorem Lockstep.loop {body : β → Prog σ (β ⊕ α)} {body' : β → Prog τ (β ⊕ α)}
    (inv : β → σ → τ → Prop) (head : ∀ b s t, inv b s t → always s t)
    (step : ∀ b s t, inv b s t → (body b).Lockstep (body' b) s t always
      fun r s t => Sum.elim (inv · s t) (post · s t) r)
    {b : β} (start : inv b s t) :
    (Prog.loop body b).Lockstep (Prog.loop body' b) s t always post := by
  intro n
  induction n using Nat.strong_induction_on generalizing b s t with
  | _ n ih =>
    cases n with
    | zero => exact .cut (head b s t start)
    | succ n =>
      rw [loop_run_succ, loop_run_succ]
      generalize hp : (body b).run n s = p
      generalize hq : (body' b).run n t = q
      have round := step b s t start n
      rw [hp, hq] at round
      cases round with
      | @done r u v m h =>
        cases r with
        | inl c => exact ih m (by have := left_le _ hp; omega) h
        | inr a => exact .done h
      | cut h => exact .cut h

theorem Lockstep.focus {σ' τ' : Type} {view : σ → σ'} {put : σ → σ' → σ} {view' : τ → τ'}
    {put' : τ → τ' → τ} {p : Prog σ' α} {q : Prog τ' α}
    (h : p.Lockstep q (view s) (view' t) (fun u v => always (put s u) (put' t v))
      fun a u v => post a (put s u) (put' t v)) :
    (Prog.focus view put p).Lockstep (Prog.focus view' put' q) s t always post := by
  intro n
  simp only [Prog.focus]
  generalize hp : p.run n (view s) = o
  generalize hq : q.run n (view' t) = o'
  have both := h n
  rw [hp, hq] at both
  cases both with
  | done h => exact .done h
  | cut h => exact .cut h

theorem Lockstep.and_left {p : Prog σ α} {q : Prog τ α} (h : p.Lockstep q s t always post)
    {always' : σ → Prop} {post' : α → σ → Prop} (left : p.Ensures s always' post') :
    p.Lockstep q s t (fun u v => always u v ∧ always' u) fun a u v => post a u v ∧ post' a u := by
  intro n
  generalize hp : p.run n s = o
  generalize hq : q.run n t = o'
  have both := h n
  rw [hp, hq] at both
  cases both with
  | @done a u v m h => exact .done ⟨h, left.2 a u ⟨n, m, hp⟩⟩
  | @cut u v h => exact .cut ⟨h, left.1 u ⟨n, hp⟩⟩

end Lockstep

/-- A run from the changed state is the run from `s`, changed likewise. -/
def Mirrors (p : Prog σ α) (φ : σ → σ) : Prop :=
  ∀ n s, p.run n (φ s) = (p.run n s).map φ

section Mirrors

variable {φ : σ → σ}

theorem mirrors_act {f : σ → α × σ} (h : ∀ s, f (φ s) = ((f s).1, φ (f s).2)) :
    (act f).Mirrors φ := by
  intro n s
  simp [Prog.act, Outcome.map, h]

theorem mirrors_modify {f : σ → σ} (h : ∀ s, f (φ s) = φ (f s)) : (modify f).Mirrors φ :=
  mirrors_act fun s => by rw [h]

theorem mirrors_pure (a : α) : (Pure.pure a : Prog σ α).Mirrors φ := mirrors_act fun _ => rfl

theorem Mirrors.bind {p : Prog σ β} {f : β → Prog σ α} (h : p.Mirrors φ)
    (hf : ∀ b, (f b).Mirrors φ) : (p >>= f).Mirrors φ := by
  intro n s
  change bindRun p f n (φ s) = (bindRun p f n s).map φ
  rw [bindRun, bindRun, h n s]
  cases p.run n s with
  | done b t m => exact hf b m t
  | cut t => rfl

theorem mirrors_act_bind {f : σ → β × σ} {k : β → Prog σ α}
    (h : ∀ s, f (φ s) = ((f s).1, φ (f s).2)) (hk : ∀ b, (k b).Mirrors φ) :
    (Prog.act f >>= k).Mirrors φ := (mirrors_act h).bind hk

theorem mirrors_modify_bind {f : σ → σ} {k : Unit → Prog σ α} (h : ∀ s, f (φ s) = φ (f s))
    (hk : (k ()).Mirrors φ) : (modify f >>= k).Mirrors φ := (mirrors_modify h).bind fun _ => hk

theorem mirrors_get_bind {f : σ → Prog σ α} (same : ∀ s, f (φ s) = f s)
    (hf : ∀ s, (f s).Mirrors φ) : (Prog.get >>= f).Mirrors φ := by
  intro n s
  change (f (φ s)).run n (φ s) = ((f s).run n s).map φ
  rw [same, hf]

theorem mirrors_ite {c : Prop} [Decidable c] {p q : Prog σ α} (hp : p.Mirrors φ)
    (hq : q.Mirrors φ) : (if c then p else q).Mirrors φ := by
  split
  · exact hp
  · exact hq

theorem mirrors_loop {body : β → Prog σ (β ⊕ α)} (h : ∀ b, (body b).Mirrors φ) (b : β) :
    (Prog.loop body b).Mirrors φ := by
  intro n
  induction n using Nat.strong_induction_on generalizing b with
  | _ n ih =>
    intro s
    cases n with
    | zero => rfl
    | succ n =>
      rw [loop_run_succ, loop_run_succ, h b n s]
      cases hb : (body b).run n s with
      | done r t m =>
        cases r with
        | inl c => exact ih m (by have := left_le _ hb; omega) c t
        | inr a => rfl
      | cut t => rfl

theorem Mirrors.focus {view : σ → τ} {put : σ → τ → σ} {p : Prog τ α} {ψ : τ → τ}
    (h : p.Mirrors ψ) (hview : ∀ s, view (φ s) = ψ (view s))
    (hput : ∀ s u, put (φ s) (ψ u) = φ (put s u)) : (Prog.focus view put p).Mirrors φ := by
  intro n s
  simp only [Prog.focus, hview, h n (view s)]
  cases p.run n (view s) with
  | done a u m => simp only [Outcome.map, hput]
  | cut u => simp only [Outcome.map, hput]

theorem mirrors_focus {view : σ → τ} {put : σ → τ → σ} (p : Prog τ α)
    (hview : ∀ s, view (φ s) = view s) (hput : ∀ s u, put (φ s) u = φ (put s u)) :
    (Prog.focus view put p).Mirrors φ := by
  have same : p.Mirrors id := by
    intro n u
    cases hp : p.run n u <;> simp [Outcome.map, hp]
  exact same.focus hview hput

theorem Mirrors.returns {p : Prog σ α} (h : p.Mirrors φ) {s t : σ} {a : α}
    (run : p.Returns (φ s) a t) : ∃ u, p.Returns s a u ∧ t = φ u := by
  obtain ⟨n, m, hn⟩ := run
  rw [h n s] at hn
  cases hp : p.run n s with
  | done b u l =>
    rw [hp] at hn
    cases hn
    exact ⟨u, ⟨n, m, hp⟩, rfl⟩
  | cut u =>
    rw [hp] at hn
    cases hn

/-- Two mirror images of one run. -/
theorem Mirrors.lockstep {p : Prog σ α} {ψ : σ → σ} (h : p.Mirrors φ) (h' : p.Mirrors ψ) {s : σ}
    {always : σ → Prop} {post : α → σ → Prop} (run : p.Ensures s always post) :
    p.Lockstep p (φ s) (ψ s) (fun u v => ∃ t, always t ∧ u = φ t ∧ v = ψ t)
      fun a u v => ∃ t, post a t ∧ u = φ t ∧ v = ψ t := by
  intro n
  rw [h n s, h' n s]
  cases hp : p.run n s with
  | done a t m => exact .done ⟨t, run.2 a t ⟨n, m, hp⟩, rfl, rfl⟩
  | cut t => exact .cut ⟨t, run.1 t ⟨n, hp⟩, rfl, rfl⟩

end Mirrors

end Prog

end Budget
