import Mathlib.Algebra.BigOperators.Group.List.Basic
import Mathlib.Algebra.Ring.Nat
import Mathlib.Logic.Relation
import Mathlib.Tactic.Common

/-! Requests and answers. A client that waits for an answer before its next request and a
server that goes on working after its answer share a line which carries one request at a
time: while the server is still at work on one, the next may be under way. -/

namespace Mailbox

/-- The way from client to server. `L` are its states, `M` the requests and `K` what the server
holds of one. With `works` the line gets on; with `idles` it moves but does not. -/
structure Line (L M K : Type) where
  put : M → L → L
  works : L → L → Prop
  idles : L → L → Prop
  release : L → L
  said : L → List M
  taken : L → List M
  held : L → Option K
  reads : K → M

/-- An answer leads from `σ` to `τ`, the rest of the work back to `σ`. Both states show how many
answers have been given. -/
structure Server (σ τ K : Type) where
  respond : K → σ → τ → Prop
  finish : K → τ → σ → Prop
  answers : σ → Nat
  given : τ → Nat

variable {L M K σ τ : Type}

namespace Line

variable (line : Line L M K)

structure Same (l l' : L) : Prop where
  said : line.said l' = line.said l
  taken : line.taken l' = line.taken l
  held : line.held l' = line.held l

structure Takes (l l' : L) (k : K) : Prop where
  said : line.said l' = line.said l
  empty : line.held l = none
  held : line.held l' = some k
  taken : line.taken l' = line.taken l ++ [line.reads k]

/-- In states with `inv` requests that fit arrive one by one, and what is held stays so. -/
structure Carries (fits : M → Prop) (inv : L → Prop) : Prop where
  put : ∀ l m, inv l → fits m → line.taken l = line.said l → inv (line.put m l) ∧
    line.said (line.put m l) = line.said l ++ [m] ∧
    line.taken (line.put m l) = line.taken l ∧ line.held (line.put m l) = line.held l
  works : ∀ l l', inv l → line.works l l' → inv l' ∧ (line.Same l l' ∨ ∃ k, line.Takes l l' k)
  idles : ∀ l l', inv l → line.idles l l' → inv l' ∧ line.Same l l'
  release : ∀ l k, inv l → line.held l = some k → inv (line.release l) ∧
    line.said (line.release l) = line.said l ∧ line.taken (line.release l) = line.taken l ∧
    line.held (line.release l) = none
  order : ∀ l, inv l → line.taken l <+: line.said l

theorem Carries.mono {line : Line L M K} {fits fits' : M → Prop} {inv : L → Prop}
    (carries : line.Carries fits inv) (less : ∀ m, fits' m → fits m) : line.Carries fits' inv :=
  { carries with put := fun l m invs fit => carries.put l m invs (less m fit) }

/-- A request costs so much work at most, and there is always work until it has arrived. -/
structure Advances (inv : L → Prop) (rank : L → Nat) (cost : M → Nat) : Prop where
  put : ∀ l m, rank (line.put m l) ≤ rank l + cost m
  works : ∀ l l', inv l → line.works l l' → rank l' < rank l
  release : ∀ l k, inv l → line.held l = some k → rank (line.release l) ≤ rank l
  ready : ∀ l, inv l → line.held l = none → line.taken l ≠ line.said l → ∃ l', line.works l l'

end Line

namespace Server

variable (server : Server σ τ K)

/-- Each request is answered before the rest of the work, and then no more. -/
structure Answers (fits : K → Prop) (rests : σ → Prop) (busy : K → τ → Prop) : Prop where
  respond : ∀ k s t, fits k → rests s → server.respond k s t →
    busy k t ∧ server.answers s < server.given t
  finish : ∀ k t s, busy k t → server.finish k t s → rests s ∧ server.answers s = server.given t

/-- One request after the other, without a client. -/
inductive Serves : List K → σ → σ → Prop where
  | nil (s : σ) : Serves [] s s
  | snoc {ks : List K} {k : K} {s t v : σ} {u : τ} (before : Serves ks s t)
      (responds : server.respond k t u) (finishes : server.finish k u v) : Serves (ks ++ [k]) s v

structure Returns (reads : K → M) (s₀ : σ) (requests : List M) : Prop where
  responds : ∀ ks k s, (ks ++ [k]).map reads <+: requests → server.Serves ks s₀ s →
    ∃ t, server.respond k s t
  finishes : ∀ ks k s t, (ks ++ [k]).map reads <+: requests → server.Serves ks s₀ s →
    server.respond k s t → ∃ v, server.finish k t v

end Server

inductive Stage (σ τ : Type) where
  | listening (s : σ)
  | busy (t : τ)
  | finished (s : σ)

def Stage.answers (server : Server σ τ K) : Stage σ τ → Nat
  | .listening s => server.answers s
  | .busy t => server.given t
  | .finished s => server.answers s

/-- `heard` are the answers that the client had when it made its last request. -/
structure Conversation (L M σ τ : Type) where
  line : L
  todo : List M
  heard : Nat
  stage : Stage σ τ

variable (line : Line L M K) (server : Server σ τ K)

inductive Works : Conversation L M σ τ → Conversation L M σ τ → Prop where
  | put {l : L} {m : M} {todo : List M} {heard : Nat} {stage : Stage σ τ}
      (answered : heard < stage.answers server) :
      Works ⟨l, m :: todo, heard, stage⟩ ⟨line.put m l, todo, stage.answers server, stage⟩
  | line {l l' : L} {todo : List M} {heard : Nat} {stage : Stage σ τ} (move : line.works l l') :
      Works ⟨l, todo, heard, stage⟩ ⟨l', todo, heard, stage⟩
  | respond {l : L} {todo : List M} {heard : Nat} {k : K} {s : σ} {t : τ}
      (held : line.held l = some k) (responds : server.respond k s t) :
      Works ⟨l, todo, heard, .listening s⟩ ⟨l, todo, heard, .busy t⟩
  | finish {l : L} {todo : List M} {heard : Nat} {k : K} {t : τ} {s : σ}
      (held : line.held l = some k) (finishes : server.finish k t s) :
      Works ⟨l, todo, heard, .busy t⟩ ⟨l, todo, heard, .finished s⟩
  | release {l : L} {todo : List M} {heard : Nat} {s : σ} :
      Works ⟨l, todo, heard, .finished s⟩ ⟨line.release l, todo, heard, .listening s⟩

inductive Idles : Conversation L M σ τ → Conversation L M σ τ → Prop where
  | line {l l' : L} {todo : List M} {heard : Nat} {stage : Stage σ τ} (move : line.idles l l') :
      Idles ⟨l, todo, heard, stage⟩ ⟨l', todo, heard, stage⟩

/-- A run in which `n` steps were work. -/
inductive Run : Nat → Conversation L M σ τ → Conversation L M σ τ → Prop where
  | refl (c : Conversation L M σ τ) : Run 0 c c
  | works {n : Nat} {c d e : Conversation L M σ τ} (before : Run n c d)
      (step : Works line server d e) : Run (n + 1) c e
  | idles {n : Nat} {c d e : Conversation L M σ τ} (before : Run n c d)
      (step : Idles line d e) : Run n c e

theorem Run.head {line : Line L M K} {server : Server σ τ K} {n : Nat}
    {c d e : Conversation L M σ τ} (run : Run line server n d e) (step : Works line server c d) :
    Run line server (n + 1) c e := by
  induction run with
  | refl => exact .works (.refl c) step
  | works _ next ih => exact .works (ih step) next
  | idles _ next ih => exact .idles (ih step) next

/-- Where the server is with the requests `ks` that it has answered. -/
inductive Reached (rests : σ → Prop) (busy : K → τ → Prop) (s₀ : σ) :
    L → Stage σ τ → List K → Prop where
  | listening {l : L} {s : σ} {ks : List K} (serves : server.Serves ks s₀ s) (rest : rests s)
      (taken : line.taken l = ks.map line.reads ++ (line.held l).toList.map line.reads) :
      Reached rests busy s₀ l (.listening s) ks
  | busy {l : L} {s : σ} {t : τ} {ks : List K} {k : K} (serves : server.Serves ks s₀ s)
      (responds : server.respond k s t) (work : busy k t) (held : line.held l = some k)
      (taken : line.taken l = (ks ++ [k]).map line.reads) :
      Reached rests busy s₀ l (.busy t) (ks ++ [k])
  | finished {l : L} {s : σ} {ks : List K} {k : K} (serves : server.Serves ks s₀ s)
      (rest : rests s) (held : line.held l = some k)
      (taken : line.taken l = ks.map line.reads) : Reached rests busy s₀ l (.finished s) ks

/-- The requests `ks` have been answered, in their order. The client may go on exactly if these
are all that it has made, and else they are all but one. -/
structure Sound (inv : L → Prop) (rests : σ → Prop) (busy : K → τ → Prop) (s₀ : σ)
    (requests : List M) (c : Conversation L M σ τ) (ks : List K) : Prop where
  inv : inv c.line
  reached : Reached line server rests busy s₀ c.line c.stage ks
  all : line.said c.line ++ c.todo = requests
  heard : c.heard ≤ c.stage.answers server
  gate : c.heard < c.stage.answers server ↔ ks.length = (line.said c.line).length
  lag : (line.said c.line).length ≤ ks.length + 1

variable {line server} {fits : M → Prop} {inv : L → Prop} {rests : σ → Prop}
  {busy : K → τ → Prop} {s₀ : σ} {requests : List M}

theorem Reached.taken_prefix {l : L} {stage : Stage σ τ} {ks : List K}
    (reached : Reached line server rests busy s₀ l stage ks) :
    ks.map line.reads <+: line.taken l := by
  cases reached with
  | listening _ _ taken => exact taken ▸ List.prefix_append _ _
  | busy _ _ _ _ taken => exact taken ▸ List.prefix_rfl
  | finished _ _ _ taken => exact taken ▸ List.prefix_rfl

theorem Reached.same {l l' : L} {stage : Stage σ τ} {ks : List K}
    (reached : Reached line server rests busy s₀ l stage ks)
    (taken : line.taken l' = line.taken l) (held : line.held l' = line.held l) :
    Reached line server rests busy s₀ l' stage ks := by
  cases reached with
  | listening serves rest was => exact .listening serves rest (by rw [taken, held, was])
  | busy serves responds work here was =>
    exact .busy serves responds work (held.trans here) (taken.trans was)
  | finished serves rest here was =>
    exact .finished serves rest (held.trans here) (taken.trans was)

theorem Reached.takes {l l' : L} {stage : Stage σ τ} {ks : List K} {k : K}
    (reached : Reached line server rests busy s₀ l stage ks) (takes : line.Takes l l' k) :
    Reached line server rests busy s₀ l' stage ks := by
  cases reached with
  | listening serves rest was =>
    refine .listening serves rest ?_
    rw [takes.taken, was, takes.empty, takes.held]
    simp
  | busy _ _ _ here => cases takes.empty.symm.trans here
  | finished _ _ here => cases takes.empty.symm.trans here

namespace Sound

variable {l : L} {todo : List M} {heard : Nat} {stage : Stage σ τ} {ks : List K}

theorem start {l₀ : L} (invs : inv l₀) (rest : rests s₀) (silent : line.said l₀ = [])
    (untaken : line.taken l₀ = []) (free : line.held l₀ = none) (greeted : 0 < server.answers s₀) :
    Sound line server inv rests busy s₀ requests ⟨l₀, requests, 0, .listening s₀⟩ [] where
  inv := invs
  reached := .listening (.nil s₀) rest (by simp [untaken, free])
  all := by rw [silent, List.nil_append]
  heard := Nat.zero_le _
  gate := by simpa [silent, Stage.answers] using greeted
  lag := by simp [silent]

theorem caught_up (carries : line.Carries fits inv)
    (sound : Sound line server inv rests busy s₀ requests ⟨l, todo, heard, stage⟩ ks)
    (answered : heard < stage.answers server) : line.taken l = line.said l := by
  have order := carries.order l sound.inv
  have before := sound.reached.taken_prefix.length_le
  have count := sound.gate.mp answered
  rw [List.length_map] at before
  exact order.eq_of_length_le (count ▸ before)

theorem put (carries : line.Carries fits inv) {m : M} (fit : fits m)
    (sound : Sound line server inv rests busy s₀ requests ⟨l, m :: todo, heard, stage⟩ ks)
    (answered : heard < stage.answers server) :
    Sound line server inv rests busy s₀ requests
      ⟨line.put m l, todo, stage.answers server, stage⟩ ks := by
  obtain ⟨invs, said, taken, held⟩ :=
    carries.put l m sound.inv fit (sound.caught_up carries answered)
  have count := sound.gate.mp answered
  have all := sound.all
  have longer : (line.said (line.put m l)).length = ks.length + 1 := by
    rw [said, List.length_append, List.length_singleton, count]
  exact {
    inv := invs
    reached := sound.reached.same taken held
    all := by rw [said, ← all]; simp
    heard := Nat.le_refl _
    gate := by
      dsimp only
      omega
    lag := Nat.le_of_eq longer }

theorem same {l' : L} (invs : inv l')
    (sound : Sound line server inv rests busy s₀ requests ⟨l, todo, heard, stage⟩ ks)
    (reached : Reached line server rests busy s₀ l' stage ks)
    (said : line.said l' = line.said l) :
    Sound line server inv rests busy s₀ requests ⟨l', todo, heard, stage⟩ ks where
  inv := invs
  reached := reached
  all := by rw [said]; exact sound.all
  heard := sound.heard
  gate := by rw [said]; exact sound.gate
  lag := by rw [said]; exact sound.lag

theorem line_works (carries : line.Carries fits inv) {l' : L}
    (sound : Sound line server inv rests busy s₀ requests ⟨l, todo, heard, stage⟩ ks)
    (move : line.works l l') :
    Sound line server inv rests busy s₀ requests ⟨l', todo, heard, stage⟩ ks := by
  obtain ⟨invs, same | ⟨k, takes⟩⟩ := carries.works l l' sound.inv move
  · exact sound.same invs (sound.reached.same same.taken same.held) same.said
  · exact sound.same invs (sound.reached.takes takes) takes.said

theorem line_idles (carries : line.Carries fits inv) {l' : L}
    (sound : Sound line server inv rests busy s₀ requests ⟨l, todo, heard, stage⟩ ks)
    (move : line.idles l l') :
    Sound line server inv rests busy s₀ requests ⟨l', todo, heard, stage⟩ ks := by
  obtain ⟨invs, same⟩ := carries.idles l l' sound.inv move
  exact sound.same invs (sound.reached.same same.taken same.held) same.said

theorem respond (carries : line.Carries fits inv)
    (answers : server.Answers (fun k => fits (line.reads k)) rests busy)
    (allFit : ∀ m ∈ requests, fits m) {k : K} {s : σ} {t : τ}
    (sound : Sound line server inv rests busy s₀ requests ⟨l, todo, heard, .listening s⟩ ks)
    (held : line.held l = some k) (responds : server.respond k s t) :
    Sound line server inv rests busy s₀ requests ⟨l, todo, heard, .busy t⟩ (ks ++ [k]) := by
  obtain ⟨invs, reached, all, before, gate, lag⟩ := sound
  cases reached with
  | listening serves rest taken =>
    have took : line.taken l = (ks ++ [k]).map line.reads := by simp [taken, held]
    have order := carries.order l invs
    have member : line.reads k ∈ requests := by
      rw [← all]
      exact List.mem_append_left _ (order.subset (by simp [took]))
    obtain ⟨work, more⟩ := answers.respond k s t (allFit _ member) rest responds
    have reaches := order.length_le
    simp only [took, List.length_map, List.length_append, List.length_singleton] at reaches lag
    simp only [Stage.answers] at before
    exact {
      inv := invs
      reached := .busy serves responds work held took
      all := all
      heard := by
        simp only [Stage.answers]
        omega
      gate := by
        simp only [Stage.answers, List.length_append, List.length_singleton]
        omega
      lag := by
        simp only [List.length_append, List.length_singleton]
        omega }

theorem finish (answers : server.Answers (fun k => fits (line.reads k)) rests busy)
    {k : K} {t : τ} {s : σ}
    (sound : Sound line server inv rests busy s₀ requests ⟨l, todo, heard, .busy t⟩ ks)
    (held : line.held l = some k) (finishes : server.finish k t s) :
    Sound line server inv rests busy s₀ requests ⟨l, todo, heard, .finished s⟩ ks := by
  obtain ⟨invs, reached, all, before, gate, lag⟩ := sound
  cases reached with
  | busy serves responds work here taken =>
    obtain rfl := Option.some.inj (held.symm.trans here)
    obtain ⟨rest, same⟩ := answers.finish k t s work finishes
    refine ⟨invs, .finished (serves.snoc responds finishes) rest held taken, all, ?_, ?_, lag⟩
    · exact Nat.le_trans before (Nat.le_of_eq same.symm)
    · rw [← gate]
      simp only [Stage.answers, same]

theorem release (carries : line.Carries fits inv) {s : σ}
    (sound : Sound line server inv rests busy s₀ requests ⟨l, todo, heard, .finished s⟩ ks) :
    Sound line server inv rests busy s₀ requests ⟨line.release l, todo, heard, .listening s⟩ ks := by
  obtain ⟨invs, reached, all, before, gate, lag⟩ := sound
  cases reached with
  | finished serves rest held was =>
    obtain ⟨invs, said, taken, free⟩ := carries.release l _ invs held
    rw [← said] at all gate lag
    exact ⟨invs, .listening serves rest (by simp [taken, was, free]), all, before, gate, lag⟩

end Sound

section Run

variable {c d : Conversation L M σ τ}

theorem Sound.works {ks : List K} (carries : line.Carries fits inv)
    (answers : server.Answers (fun k => fits (line.reads k)) rests busy)
    (allFit : ∀ m ∈ requests, fits m)
    (sound : Sound line server inv rests busy s₀ requests c ks) (step : Works line server c d) :
    ∃ ks', Sound line server inv rests busy s₀ requests d ks' := by
  cases step with
  | put answered =>
    have fit := allFit _ (sound.all ▸ List.mem_append_right _ (List.mem_cons_self ..))
    exact ⟨ks, sound.put carries fit answered⟩
  | line move => exact ⟨ks, sound.line_works carries move⟩
  | respond held responds => exact ⟨_, sound.respond carries answers allFit held responds⟩
  | finish held finishes => exact ⟨ks, sound.finish answers held finishes⟩
  | release => exact ⟨ks, sound.release carries⟩

/-- The server gets the requests one by one, in their order, in every run. -/
theorem Sound.run {n : Nat} {ks : List K} (carries : line.Carries fits inv)
    (answers : server.Answers (fun k => fits (line.reads k)) rests busy)
    (allFit : ∀ m ∈ requests, fits m)
    (sound : Sound line server inv rests busy s₀ requests c ks) (run : Run line server n c d) :
    ∃ ks', Sound line server inv rests busy s₀ requests d ks' := by
  induction run with
  | refl => exact ⟨ks, sound⟩
  | works _ step ih =>
    obtain ⟨ks', sound⟩ := ih sound
    exact sound.works carries answers allFit step
  | idles _ step ih =>
    obtain ⟨ks', sound⟩ := ih sound
    cases step with
    | line move => exact ⟨ks', sound.line_idles carries move⟩

end Run

/-! A request costs a bounded number of steps, and only a request from which the server never
returns can keep the later ones from being made and answered. -/

variable (line server)

/-- What is still to be done with the request at the server. -/
def Stage.left (l : L) : Stage σ τ → Nat
  | .listening _ => if (line.held l).isSome then 3 else 0
  | .busy _ => 2
  | .finished _ => 1

def Conversation.left (rank : L → Nat) (cost : M → Nat) (c : Conversation L M σ τ) : Nat :=
  (c.todo.map fun m => 4 * cost m + 1).sum + 4 * rank c.line + c.stage.left line c.line

def Conversation.Complete (s₀ : σ) (requests : List M) (c : Conversation L M σ τ) : Prop :=
  c.todo = [] ∧ line.held c.line = none ∧ ∃ ks s, ks.map line.reads = requests ∧
    server.Serves ks s₀ s ∧ c.stage = .listening s

def Conversation.Hangs (c : Conversation L M σ τ) : Prop :=
  ∃ k, line.held c.line = some k ∧
    ((∃ s, c.stage = .listening s ∧ ∀ t, ¬server.respond k s t) ∨
      ∃ t, c.stage = .busy t ∧ ∀ s, ¬server.finish k t s)

section Progress

variable {line server} {rank : L → Nat} {cost : M → Nat} {c d : Conversation L M σ τ}
  {ks : List K}

theorem Stage.left_congr {l l' : L} (held : line.held l' = line.held l) (stage : Stage σ τ) :
    stage.left line l' = stage.left line l := by
  cases stage <;> simp [Stage.left, held]

theorem Reached.left_takes {l l' : L} {stage : Stage σ τ} {k : K}
    (reached : Reached line server rests busy s₀ l stage ks) (takes : line.Takes l l' k) :
    stage.left line l' ≤ stage.left line l + 3 := by
  cases reached with
  | listening => simp [Stage.left, takes.held]
  | busy _ _ _ held => cases takes.empty.symm.trans held
  | finished _ _ held => cases takes.empty.symm.trans held

theorem Sound.works_left (carries : line.Carries fits inv) (advances : line.Advances inv rank cost)
    (allFit : ∀ m ∈ requests, fits m)
    (sound : Sound line server inv rests busy s₀ requests c ks) (step : Works line server c d) :
    d.left line rank cost < c.left line rank cost := by
  cases step with
  | @put l m todo heard stage answered =>
    have fit := allFit m (sound.all ▸ List.mem_append_right _ (List.mem_cons_self ..))
    have charged := advances.put l m
    have put := carries.put l m sound.inv fit (sound.caught_up carries answered)
    have same := stage.left_congr put.2.2.2
    simp only [Conversation.left, List.map_cons, List.sum_cons, same]
    omega
  | @line l l' todo heard stage move =>
    have lower := advances.works l l' sound.inv move
    obtain ⟨-, same | ⟨k, takes⟩⟩ := carries.works l l' sound.inv move
    · have same := stage.left_congr same.held
      simp only [Conversation.left, same]
      omega
    · have more := sound.reached.left_takes takes
      dsimp only at more
      simp only [Conversation.left]
      omega
  | respond held => simp [Conversation.left, Stage.left, held]
  | finish => simp [Conversation.left, Stage.left]
  | @release l todo heard s =>
    obtain ⟨inv, reached⟩ := sound
    cases reached with
    | finished serves rest held taken =>
      have lower := advances.release l _ inv held
      have free := (carries.release l _ inv held).2.2.2
      simp only [Conversation.left, Stage.left, free]
      simp
      omega

theorem Sound.idles_left (carries : line.Carries fits inv)
    (steady : ∀ l l', inv l → line.idles l l' → rank l' ≤ rank l)
    (sound : Sound line server inv rests busy s₀ requests c ks) (step : Idles line c d) :
    d.left line rank cost ≤ c.left line rank cost := by
  cases step with
  | @line l l' todo heard stage move =>
    have lower := steady l l' sound.inv move
    have same := stage.left_congr (carries.idles l l' sound.inv move).2.held
    simp only [Conversation.left, same]
    omega

/-- If idle moves cost nothing back, all runs do a bounded amount of work. -/
theorem Sound.run_left {n : Nat} (carries : line.Carries fits inv)
    (answers : server.Answers (fun k => fits (line.reads k)) rests busy)
    (advances : line.Advances inv rank cost)
    (steady : ∀ l l', inv l → line.idles l l' → rank l' ≤ rank l)
    (allFit : ∀ m ∈ requests, fits m)
    (sound : Sound line server inv rests busy s₀ requests c ks) (run : Run line server n c d) :
    n + d.left line rank cost ≤ c.left line rank cost := by
  induction run with
  | refl => exact Nat.le_of_eq (Nat.zero_add _)
  | works before step ih =>
    obtain ⟨ks', sound'⟩ := sound.run carries answers allFit before
    have lower := sound'.works_left carries advances allFit step
    have := ih sound
    omega
  | idles before step ih =>
    obtain ⟨ks', sound'⟩ := sound.run carries answers allFit before
    have lower : _ ≤ Conversation.left line rank cost _ := sound'.idles_left carries steady step
    have := ih sound
    omega

/-- Where no work can be done the requests are done, or the server does not return. -/
theorem Sound.stuck (advances : line.Advances inv rank cost)
    (sound : Sound line server inv rests busy s₀ requests c ks)
    (stuck : ∀ d, ¬Works line server c d) :
    c.Complete line server s₀ requests ∨ c.Hangs line server := by
  obtain ⟨l, todo, heard, stage⟩ := c
  obtain ⟨invs, reached, all, before, gate, lag⟩ := sound
  cases reached with
  | @listening s ks serves rest taken =>
    cases held : line.held l with
    | some k =>
      exact .inr ⟨k, held, .inl ⟨s, rfl, fun t responds => stuck _ (.respond held responds)⟩⟩
    | none =>
      have arrived : line.taken l = line.said l := by
        by_contra waiting
        obtain ⟨l', move⟩ := advances.ready l invs held waiting
        exact stuck _ (.line move)
      have answered : ks.map line.reads = line.said l := by
        rw [← arrived, taken, held]
        simp
      have open_ : heard < server.answers s := gate.mpr (by rw [← answered, List.length_map])
      cases todo with
      | cons m todo => exact absurd (.put open_) (stuck _)
      | nil =>
        exact .inl ⟨rfl, held, ks, s, by rw [answered, ← all, List.append_nil], serves, rfl⟩
  | @busy s t ks k serves responds work held taken =>
    exact .inr ⟨k, held, .inr ⟨t, rfl, fun s finishes => stuck _ (.finish held finishes)⟩⟩
  | finished => exact absurd .release (stuck _)

theorem Sound.not_hangs (carries : line.Carries fits inv)
    (returns : server.Returns line.reads s₀ requests)
    (sound : Sound line server inv rests busy s₀ requests c ks) : ¬ c.Hangs line server := by
  obtain ⟨l, todo, heard, stage⟩ := c
  have taken : line.taken l <+: requests :=
    (carries.order l sound.inv).trans (sound.all ▸ List.prefix_append _ _)
  rintro ⟨k, held, ⟨s, rfl, never⟩ | ⟨t, rfl, never⟩⟩
  · cases sound.reached with
    | listening serves rest was =>
      have first : (ks ++ [k]).map line.reads <+: requests := by
        rw [was, held] at taken
        simpa using taken
      obtain ⟨t, responds⟩ := returns.responds ks k s first serves
      exact never t responds
  · cases sound.reached with
    | busy serves responds work here was =>
      obtain rfl := Option.some.inj (held.symm.trans here)
      obtain ⟨s, finishes⟩ := returns.finishes _ _ _ _ (was ▸ taken) serves responds
      exact never s finishes

theorem Sound.exists_run (carries : line.Carries fits inv)
    (answers : server.Answers (fun k => fits (line.reads k)) rests busy)
    (advances : line.Advances inv rank cost) (allFit : ∀ m ∈ requests, fits m)
    (sound : Sound line server inv rests busy s₀ requests c ks) :
    ∃ n d, Run line server n c d ∧ ∀ e, ¬Works line server d e := by
  induction h : c.left line rank cost using Nat.strongRecOn generalizing c ks with
  | _ n ih =>
    by_cases works : ∃ d, Works line server c d
    · obtain ⟨d, step⟩ := works
      obtain ⟨ks', sound'⟩ := sound.works carries answers allFit step
      have lower := sound.works_left carries advances allFit step
      obtain ⟨m, e, run, done⟩ := ih _ (h ▸ lower) sound' rfl
      exact ⟨_, e, run.head step, done⟩
    · exact ⟨0, c, .refl c, not_exists.mp works⟩

end Progress

end Mailbox
