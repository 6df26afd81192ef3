import FlasherStub.RamKept

/-! RAM downloads over whole runs. MEM_BEGIN opens a download, each MEM_DATA that is accepted stores
its payload behind the ones before, and MEM_END closes it, whether or not it is complete. -/

namespace FlasherStub

open ByteMemory Budget

variable {W D H S C : Type} (env : Platform W D H S C)

/-- Bytes stored from `addr` on, each with its address. -/
def placed : Nat → List UInt8 → List (Nat × UInt8)
  | _, [] => []
  | addr, b :: bytes => (addr % 2 ^ 32, b) :: placed (addr + 1) bytes

theorem placed_append (addr : Nat) (xs ys : List UInt8) :
    placed addr (xs ++ ys) = placed addr xs ++ placed (addr + xs.length) ys := by
  induction xs generalizing addr with
  | nil => rfl
  | cons x xs ih =>
    rw [List.cons_append, placed, placed, ih, List.length_cons, Nat.add_right_comm addr 1,
      Nat.add_assoc, List.cons_append]

theorem length_placed (addr : Nat) (xs : List UInt8) : (placed addr xs).length = xs.length := by
  induction xs generalizing addr with
  | nil => rfl
  | cons x xs ih => rw [placed, List.length_cons, List.length_cons, ih]

theorem placed_mod (addr : Nat) (xs : List UInt8) : placed (addr % 2 ^ 32) xs = placed addr xs := by
  have same (i : Nat) : placed (addr % 2 ^ 32 + i) xs = placed (addr + i) xs := by
    induction xs generalizing i with
    | nil => rfl
    | cons x xs ih => rw [placed, placed, Nat.mod_add_mod, Nat.add_assoc, Nat.add_assoc, ih]
  exact same 0

theorem mem_placed {addr : Nat} {xs : List UInt8} {p : Nat × UInt8} (mem : p ∈ placed addr xs) :
    ∃ i < xs.length, p.1 = (addr + i) % 2 ^ 32 := by
  induction xs generalizing addr with
  | nil => cases mem
  | cons x xs ih =>
    obtain rfl | mem := List.mem_cons.mp mem
    · exact ⟨0, Nat.succ_pos _, rfl⟩
    · obtain ⟨i, less, at_⟩ := ih mem
      exact ⟨i + 1, Nat.succ_lt_succ less, by rw [at_, Nat.add_right_comm, Nat.add_assoc]⟩

def storedBytes (events : List Event) : List (Nat × UInt8) := events.flatMap fun
  | .store addr data => placed addr data
  | _ => []

theorem storedBytes_append (xs ys : List Event) :
    storedBytes (xs ++ ys) = storedBytes xs ++ storedBytes ys := List.flatMap_append

theorem storedBytes_other {events : List Event} (other : ∀ e ∈ events, ¬ e.IsStore) :
    storedBytes events = [] := by
  refine List.flatMap_eq_nil_iff.mpr fun e mem => ?_
  have := other e mem
  cases e <;> first | rfl | exact absurd trivial this

def CmdCtx.memTotal (ctx : CmdCtx) : Nat := getLeToU32 ctx.mem ctx.data

def CmdCtx.memOffset (ctx : CmdCtx) : Nat := getLeToU32 ctx.mem (ctx.data + 12)

def CmdCtx.memPayload (ctx : CmdCtx) : List UInt8 :=
  ctx.mem.read (ctx.data + memDataHeaderSize) (actualDataSize ctx)

/-- What a host that looks at the answers knows of the download that it has begun last. `base` is
what had happened before. -/
structure Download where
  total : Nat
  offset : Nat
  payloads : List (List UInt8)
  base : List Event

def Download.add (d : Download) (payload : List UInt8) : Download :=
  { d with payloads := d.payloads ++ [payload] }

inductive Download.Next (f : Frame) (s : StubState W D S C) :
    Option Download → Option Download → Prop where
  | begun (opcode : Opcode.ofByte f.ctx.command = .memBegin) (good : Succeeds env f s)
      (d : Option Download) : Next f s d (some ⟨f.ctx.memTotal, f.ctx.memOffset, [], s.trace⟩)
  | stored (opcode : Opcode.ofByte f.ctx.command = .memData) (good : Succeeds env f s)
      (d : Option Download) : Next f s d (d.map fun d => d.add f.ctx.memPayload)
  | other (none : Succeeds env f s → Opcode.ofByte f.ctx.command ≠ .memBegin ∧
      Opcode.ofByte f.ctx.command ≠ .memData) (d : Option Download) : Next f s d d

inductive MemRun (s₀ : StubState W D S C) :
    List Frame → Option Download → StubState W D S C → Prop where
  | start : MemRun s₀ [] none s₀
  | next {frames d t f d' u} (before : MemRun s₀ frames d t)
      (step : (handleCommand env f.buffer f.size).Returns t () u)
      (track : Download.Next env f t d d') : MemRun s₀ (frames ++ [f]) d' u

variable {env} {s₀ : StubState W D S C}

theorem MemRun.serve {frames : List Frame} {d : Option Download} {t : StubState W D S C}
    (run : MemRun env s₀ frames d t) : (serve env frames).Returns s₀ () t := by
  induction run with
  | start => exact (Prog.returns_pure _ _ _ _).mpr ⟨rfl, rfl⟩
  | next before step track ih => exact (returns_serve_snoc env _ _ _ _).mpr ⟨_, ih, step⟩

theorem Download.exists_next (f : Frame) (s : StubState W D S C) (d : Option Download) :
    ∃ d', Download.Next env f s d d' := by
  by_cases good : Succeeds env f s
  · by_cases begins : Opcode.ofByte f.ctx.command = .memBegin
    · exact ⟨_, .begun begins good d⟩
    by_cases stores : Opcode.ofByte f.ctx.command = .memData
    · exact ⟨_, .stored stores good d⟩
    · exact ⟨_, .other (fun _ => ⟨begins, stores⟩) d⟩
  · exact ⟨_, .other (fun h => absurd h good) d⟩

theorem memRun_of_serve {frames : List Frame} {t : StubState W D S C}
    (run : (serve env frames).Returns s₀ () t) : ∃ d, MemRun env s₀ frames d t := by
  induction frames using List.reverseRecOn generalizing t with
  | nil =>
    obtain ⟨-, rfl⟩ := (Prog.returns_pure _ _ _ _).mp run
    exact ⟨none, .start⟩
  | append_singleton frames f ih =>
    obtain ⟨u, first, last⟩ := (returns_serve_snoc env _ _ _ _).mp run
    obtain ⟨d, before⟩ := ih first
    obtain ⟨d', track⟩ : ∃ d', Download.Next env f u d d' := Download.exists_next f u d
    exact ⟨d', before.next last track⟩

/-! The three handlers. -/

section Handlers

variable {ctx : CmdCtx} {s t : StubState W D S C} {r : Int}

theorem returns_memBegin (run : (memBegin ctx).Returns s r t) : (r ≠ responseSuccess ∧ t = s) ∨
    r = responseSuccess ∧ t.trace = s.trace ∧ t.memory.totalRemaining = ctx.memTotal ∧
      t.memory.offset = ctx.memOffset := by
  unfold memBegin at run
  split_ifs at run
  · obtain ⟨rfl, rfl⟩ := (Prog.returns_pure _ _ _ _).mp run
    exact .inl ⟨by decide, rfl⟩
  · rw [Prog.returns_modify_bind] at run
    obtain ⟨rfl, rfl⟩ := (Prog.returns_pure _ _ _ _).mp run
    exact .inr ⟨rfl, rfl, rfl, rfl⟩

def StubState.stored (s : StubState W D S C) (lib : StubLib W) (data : List UInt8) :
    StubState W D S C :=
  { s with
    world := lib.memcpy s.memory.offset data s.world
    trace := s.trace ++ [.store s.memory.offset data]
    memory := { s.memory with
      offset := (s.memory.offset + data.length) % 2 ^ 32
      totalRemaining := sub32 s.memory.totalRemaining data.length } }

theorem checkMemoryInProgress_eq (s : StubState W D S C) :
    checkMemoryInProgress s = responseSuccess ↔ s.memory.inProgress = true := by
  unfold checkMemoryInProgress
  split_ifs with armed
  · exact ⟨fun _ => armed, fun _ => rfl⟩
  · exact ⟨fun h => absurd h (by decide), fun h => absurd h armed⟩

theorem returns_memData (run : (memData env ctx).Returns s r t) :
    (r ≠ responseSuccess ∧ t = s) ∨ r = responseSuccess ∧ s.memory.inProgress = true ∧
      ctx.memPayload.length ≤ s.memory.totalRemaining ∧ t = s.stored env.lib ctx.memPayload := by
  unfold memData at run
  rw [Prog.returns_get_bind] at run
  dsimp only at run
  split_ifs at run with short closed long other
  · obtain ⟨rfl, rfl⟩ := (Prog.returns_pure _ _ _ _).mp run
    exact .inl ⟨by decide, rfl⟩
  · obtain ⟨rfl, rfl⟩ := (Prog.returns_pure _ _ _ _).mp run
    exact .inl ⟨closed, rfl⟩
  · obtain ⟨rfl, rfl⟩ := (Prog.returns_pure _ _ _ _).mp run
    exact .inl ⟨by decide, rfl⟩
  · obtain ⟨rfl, rfl⟩ := (Prog.returns_pure _ _ _ _).mp run
    exact .inl ⟨by decide, rfl⟩
  · rw [Prog.returns_modify_bind] at run
    obtain ⟨rfl, rfl⟩ := (Prog.returns_pure _ _ _ _).mp run
    have length : ctx.memPayload.length = actualDataSize ctx := Memory.length_read _ _ _
    refine .inr ⟨rfl, (checkMemoryInProgress_eq s).mp (not_not.mp closed), ?_, ?_⟩
    · rw [length, ← not_not.mp other]
      exact not_lt.mp long
    · rw [StubState.stored, length]
      rfl

theorem returns_memEnd (run : (memEnd ctx).Returns s r t) : (r ≠ responseSuccess ∧ t = s) ∨
    r = responseSuccess ∧ ctx.packetSize = memEndSize ∧ s.memory.inProgress = true ∧
      t.trace = s.trace ∧ t.memory.inProgress = false := by
  unfold memEnd at run
  rw [Prog.returns_get_bind] at run
  split_ifs at run with size closed
  · obtain ⟨rfl, rfl⟩ := (Prog.returns_pure _ _ _ _).mp run
    exact .inl ⟨by decide, rfl⟩
  · obtain ⟨rfl, rfl⟩ := (Prog.returns_pure _ _ _ _).mp run
    exact .inl ⟨closed, rfl⟩
  · rw [setPendingPostProcess, Prog.returns_modify_bind, Prog.returns_modify_bind] at run
    obtain ⟨rfl, rfl⟩ := (Prog.returns_pure _ _ _ _).mp run
    exact .inr ⟨rfl, not_not.mp size, (checkMemoryInProgress_eq s).mp (not_not.mp closed), rfl, rfl⟩

theorem returns_withEmptyResponse {handler : Stub W D S C Int}
    {r : Int × CommandResponseData C} :
    (withEmptyResponse handler).Returns s r t ↔ handler.Returns s r.1 t ∧ r.2 = {} := by
  rw [withEmptyResponse, Prog.returns_bind]
  constructor
  · rintro ⟨code, u, run, done⟩
    obtain ⟨rfl, rfl⟩ := (Prog.returns_pure _ _ _ _).mp done
    exact ⟨run, rfl⟩
  · rintro ⟨run, empty⟩
    exact ⟨r.1, t, run, (Prog.returns_pure _ _ _ _).mpr ⟨by rw [← empty], rfl⟩⟩

end Handlers

section Command

variable {f : Frame} {t u : StubState W D S C}

theorem handleCommand_ram (run : (handleCommand env f.buffer f.size).Returns t () u) :
    (RamKept t u ∧ ¬ Succeeds env f t) ∨ ∃ r v, Handled env f t r v ∧ RamKept v u := by
  by_cases ok : f.HeaderOk
  · by_cases clear : t.accumulatedResult = responseSuccess
    · rw [returns_handleCommand_execute env ok clear] at run
      by_cases opcode : Opcode.ofByte f.ctx.command = .runUserCode
      · rw [execute, if_pos opcode, Prog.returns_pure] at run
        refine .inl ⟨.of_eq (by rw [run.2]) (by rw [run.2]), ?_⟩
        rintro ⟨_, _, handled, -⟩
        exact handled.opcode opcode
      · obtain ⟨r, v, dispatched, processed⟩ := returns_execute env opcode run
        have after := (keepsRam_postProcess env f.ctx (v.answered env f.ctx r)).2 () u processed
        exact .inr ⟨r, v, ⟨ok, clear, opcode, dispatched⟩,
          IsTrans.trans _ _ _ (ramKept_answered env f.ctx v r) after⟩
    · rw [returns_handleCommand_report env ok clear] at run
      exact .inl ⟨.of_eq (by rw [run]; rfl) (by rw [run]; rfl), not_succeeds_of_report clear⟩
  · rw [returns_handleCommand_reject env ok] at run
    exact .inl ⟨.of_eq (by rw [run]; rfl) (by rw [run]; rfl), not_succeeds_of_reject ok⟩

variable (env) in
inductive MemStep (f : Frame) (t u : StubState W D S C) : Prop where
  | other (kept : RamKept t u)
      (none : Succeeds env f t → ¬ (Opcode.ofByte f.ctx.command).IsMem) : MemStep f t u
  | begun {v : StubState W D S C} (opcode : Opcode.ofByte f.ctx.command = .memBegin)
      (good : Succeeds env f t) (trace : v.trace = t.trace)
      (total : v.memory.totalRemaining = f.ctx.memTotal)
      (offset : v.memory.offset = f.ctx.memOffset) (kept : RamKept v u) : MemStep f t u
  | stored (opcode : Opcode.ofByte f.ctx.command = .memData) (good : Succeeds env f t)
      (inProgress : t.memory.inProgress = true)
      (fits : f.ctx.memPayload.length ≤ t.memory.totalRemaining)
      (kept : RamKept (t.stored env.lib f.ctx.memPayload) u) : MemStep f t u
  | ended {v : StubState W D S C} (opcode : Opcode.ofByte f.ctx.command = .memEnd)
      (good : Succeeds env f t) (size : f.ctx.packetSize = memEndSize)
      (inProgress : t.memory.inProgress = true) (trace : v.trace = t.trace)
      (closed : v.memory.inProgress = false) (kept : RamKept v u) : MemStep f t u

theorem memStep_of_handled {r : Int × CommandResponseData C} {v : StubState W D S C}
    (handled : Handled env f t r v) (kept : RamKept v u) : MemStep env f t u := by
  have dispatched := handled.returns
  cases opcode : Opcode.ofByte f.ctx.command with
  | memBegin =>
    rw [opcode, dispatch, returns_withEmptyResponse] at dispatched
    obtain ⟨bad, rfl⟩ | ⟨good, trace, total, offset⟩ := returns_memBegin dispatched.1
    · exact .other kept fun good => absurd (handled.succeeds_iff.mp good) bad
    · exact .begun opcode (handled.succeeds_iff.mpr good) trace total offset kept
  | memData =>
    rw [opcode, dispatch, returns_withEmptyResponse] at dispatched
    obtain ⟨bad, rfl⟩ | ⟨good, inProgress, fits, rfl⟩ := returns_memData dispatched.1
    · exact .other kept fun good => absurd (handled.succeeds_iff.mp good) bad
    · exact .stored opcode (handled.succeeds_iff.mpr good) inProgress fits kept
  | memEnd =>
    rw [opcode, dispatch, returns_withEmptyResponse] at dispatched
    obtain ⟨bad, rfl⟩ | ⟨good, size, inProgress, trace, closed⟩ := returns_memEnd dispatched.1
    · exact .other kept fun good => absurd (handled.succeeds_iff.mp good) bad
    · exact .ended opcode (handled.succeeds_iff.mpr good) size inProgress trace closed kept
  | _ =>
    have other : ¬ (Opcode.ofByte f.ctx.command).IsMem := by
      rw [opcode]
      exact id
    have before := (keepsRam_dispatch env f.ctx other t).2 r v dispatched
    exact .other (IsTrans.trans _ _ _ before kept) fun _ => other

theorem memStep_of_run (run : (handleCommand env f.buffer f.size).Returns t () u) :
    MemStep env f t u := by
  obtain ⟨kept, fails⟩ | ⟨r, v, handled, kept⟩ := handleCommand_ram run
  · exact .other kept fun good => absurd good fails
  · exact memStep_of_handled handled kept

structure EndAdmitted (f : Frame) (t : StubState W D S C) : Prop where
  ok : f.HeaderOk
  clear : t.accumulatedResult = responseSuccess
  opcode : Opcode.ofByte f.ctx.command = .memEnd
  size : f.ctx.packetSize = memEndSize
  inProgress : t.memory.inProgress = true

theorem succeeds_memEnd_iff (opcode : Opcode.ofByte f.ctx.command = .memEnd) :
    Succeeds env f t ↔ EndAdmitted f t := by
  constructor
  · rintro ⟨r, v, handled, good⟩
    have dispatched := handled.returns
    rw [opcode, dispatch, returns_withEmptyResponse] at dispatched
    obtain ⟨bad, -⟩ | ⟨-, size, inProgress, -⟩ := returns_memEnd dispatched.1
    · exact absurd good bad
    · exact ⟨handled.ok, handled.clear, opcode, size, inProgress⟩
  · intro admitted
    have runs : (memEnd f.ctx : Stub W D S C Int).Returns t responseSuccess
        { t with memory := {}, pendingPostProcess := some .memEnd } := by
      have open_ := (checkMemoryInProgress_eq t).mpr admitted.inProgress
      simp [memEnd, Prog.returns_get_bind, admitted.size, open_, setPendingPostProcess,
        Prog.returns_modify_bind, Prog.returns_pure]
    have dispatched := (returns_withEmptyResponse (r := (responseSuccess, {}))).mpr ⟨runs, rfl⟩
    have other : Opcode.ofByte f.ctx.command ≠ .runUserCode := by
      rw [opcode]
      decide
    exact ⟨_, _, ⟨admitted.ok, admitted.clear, other, by rwa [opcode]⟩, rfl⟩

end Command

/-! The account of a run. -/

namespace Download

structure Account (d : Download) (t : StubState W D S C) : Prop where
  stored : ∃ new, t.trace = d.base ++ new ∧ storedBytes new = placed d.offset d.payloads.flatten
  fits : d.payloads.flatten.length ≤ d.total

structure Open (d : Download) (m : MemoryOperationState) : Prop where
  offset : m.offset = (d.offset + d.payloads.flatten.length) % 2 ^ 32
  remaining : m.totalRemaining + d.payloads.flatten.length = d.total
  total : d.total < 2 ^ 32

variable {d : Download} {t u : StubState W D S C}

theorem Account.grow (account : d.Account t) (logs : t.Logs (fun e => ¬ e.IsStore) u) :
    d.Account u := by
  obtain ⟨new, trace, bytes⟩ := account.stored
  obtain ⟨new', trace', other⟩ := logs
  refine ⟨⟨new ++ new', by rw [trace', trace, List.append_assoc], ?_⟩, account.fits⟩
  rw [storedBytes_append, bytes, storedBytes_other other, List.append_nil]

theorem flatten_add (d : Download) (payload : List UInt8) :
    (d.add payload).payloads.flatten = d.payloads.flatten ++ payload := by
  simp [add]

theorem Account.add (account : d.Account t) (counted : d.Open t.memory) (lib : StubLib W)
    {payload : List UInt8} (room : payload.length ≤ t.memory.totalRemaining) :
    (d.add payload).Account (t.stored lib payload) := by
  obtain ⟨new, trace, bytes⟩ := account.stored
  refine ⟨⟨new ++ [.store t.memory.offset payload], ?_, ?_⟩, ?_⟩
  · rw [StubState.stored, trace, List.append_assoc]
    rfl
  · have last : storedBytes [.store t.memory.offset payload] = placed t.memory.offset payload := by
      simp [storedBytes]
    rw [storedBytes_append, bytes, last, counted.offset, placed_mod, flatten_add]
    exact (placed_append _ _ _).symm
  · have := counted.remaining
    rw [flatten_add, List.length_append]
    change _ ≤ d.total
    omega

theorem Open.add (counted : d.Open t.memory) (lib : StubLib W) {payload : List UInt8}
    (room : payload.length ≤ t.memory.totalRemaining) :
    (d.add payload).Open (t.stored lib payload).memory := by
  have sum := counted.remaining
  have bound := counted.total
  have sub : sub32 t.memory.totalRemaining payload.length =
      t.memory.totalRemaining - payload.length := sub32_of_le room (by omega)
  refine ⟨?_, ?_, bound⟩
  · change (t.memory.offset + payload.length) % 2 ^ 32 = (d.offset + _) % 2 ^ 32
    rw [flatten_add, List.length_append, counted.offset, Nat.mod_add_mod, Nat.add_assoc]
  · change sub32 _ _ + _ = d.total
    rw [sub, flatten_add, List.length_append]
    omega

theorem account_begun {ctx : CmdCtx} (logs : t.Logs (fun e => ¬ e.IsStore) u) :
    Account ⟨ctx.memTotal, ctx.memOffset, [], t.trace⟩ u :=
  Account.grow ⟨⟨[], (List.append_nil _).symm, rfl⟩, Nat.zero_le _⟩ logs

theorem open_begun {ctx : CmdCtx} {m : MemoryOperationState} {base : List Event}
    (total : m.totalRemaining = ctx.memTotal) (offset : m.offset = ctx.memOffset) :
    Open ⟨ctx.memTotal, ctx.memOffset, [], base⟩ m := by
  refine ⟨?_, total, getLeToU32_lt _ _⟩
  rw [offset]
  exact (Nat.mod_eq_of_lt (getLeToU32_lt _ _)).symm

end Download

structure MemInv (s₀ : StubState W D S C) (d : Option Download) (t : StubState W D S C) :
    Prop where
  none : d = none → s₀.Logs (fun e => ¬ e.IsStore) t
  account : ∀ last ∈ d, last.Account t
  counted : t.memory.inProgress = true → ∃ last ∈ d, last.Open t.memory

namespace MemInv

variable {f : Frame} {d d' : Option Download} {t u : StubState W D S C}

theorem kept (inv : MemInv s₀ d t) (kept : RamKept t u) : MemInv s₀ d u where
  none h := (inv.none h).trans kept.logs
  account last mem := (inv.account last mem).grow kept.logs
  counted h := by
    rw [kept.memory] at h ⊢
    exact inv.counted h

theorem begun {v : StubState W D S C} (trace : v.trace = t.trace)
    (total : v.memory.totalRemaining = f.ctx.memTotal)
    (offset : v.memory.offset = f.ctx.memOffset) :
    MemInv s₀ (some ⟨f.ctx.memTotal, f.ctx.memOffset, [], t.trace⟩) v where
  none h := nomatch h
  account _ mem := Option.some.inj mem ▸
    Download.account_begun (.of_eq trace)
  counted _ := ⟨_, rfl, Download.open_begun total offset⟩

theorem stored (inv : MemInv s₀ d t) (lib : StubLib W) {payload : List UInt8}
    (inProgress : t.memory.inProgress = true) (fits : payload.length ≤ t.memory.totalRemaining) :
    MemInv s₀ (d.map fun d => d.add payload) (t.stored lib payload) := by
  obtain ⟨last, rfl, counted⟩ := inv.counted inProgress
  have account := (inv.account last rfl).add counted lib fits
  exact ⟨nofun, fun _ mem => Option.some.inj mem ▸ account, fun _ => ⟨_, rfl, counted.add lib fits⟩⟩

theorem ended {v : StubState W D S C} (inv : MemInv s₀ d t) (trace : v.trace = t.trace)
    (closed : v.memory.inProgress = false) : MemInv s₀ d v where
  none h := (inv.none h).trans (.of_eq trace)
  account last mem := (inv.account last mem).grow (.of_eq trace)
  counted h := by simp [closed] at h

theorem next (inv : MemInv s₀ d t) (step : MemStep env f t u)
    (track : Download.Next env f t d d') : MemInv s₀ d' u := by
  cases step with
  | other kept none =>
    cases track with
    | begun opcode good | stored opcode good =>
      have quiet := none good
      rw [opcode] at quiet
      exact absurd trivial quiet
    | other => exact inv.kept kept
  | begun opcode good trace total offset kept =>
    cases track with
    | begun => exact (begun trace total offset).kept kept
    | stored opcode' => simp [opcode] at opcode'
    | other none => exact absurd opcode (none good).1
  | stored opcode good inProgress fits kept =>
    cases track with
    | begun opcode' => simp [opcode] at opcode'
    | stored => exact (inv.stored env.lib inProgress fits).kept kept
    | other none => exact absurd opcode (none good).2
  | ended opcode good size inProgress trace closed kept =>
    cases track with
    | begun opcode' => simp [opcode] at opcode'
    | stored opcode' => simp [opcode] at opcode'
    | other => exact (inv.ended trace closed).kept kept

end MemInv

theorem MemRun.inv (idle : s₀.memory.inProgress = false) {frames : List Frame}
    {d : Option Download} {t : StubState W D S C} (run : MemRun env s₀ frames d t) :
    MemInv s₀ d t := by
  induction run with
  | start => exact ⟨fun _ => .refl _, nofun, fun h => by simp [idle] at h⟩
  | next before step track ih => exact ih.next (memStep_of_run step) track

variable (env) in
/-- `f` is answered with an error, or with the deferred error of an earlier command, and nothing
else happens. -/
def Refused (f : Frame) (t u : StubState W D S C) : Prop :=
  (∃ code ≠ responseSuccess, u = t.afterSend env (responseFrame f.ctx.command code none)) ∨
    t.accumulatedResult ≠ responseSuccess ∧
      u = { t.afterSend env (responseFrame f.ctx.command t.accumulatedResult none) with
        accumulatedResult := responseSuccess }

theorem refused_memData {f : Frame} {t u : StubState W D S C} (idle : t.pendingPostProcess = none)
    (opcode : Opcode.ofByte f.ctx.command = .memData) (fails : ¬ Succeeds env f t)
    (run : (handleCommand env f.buffer f.size).Returns t () u) : Refused env f t u := by
  by_cases ok : f.HeaderOk
  · by_cases clear : t.accumulatedResult = responseSuccess
    · rw [returns_handleCommand_execute env ok clear] at run
      have other : Opcode.ofByte f.ctx.command ≠ .runUserCode := by
        rw [opcode]
        decide
      obtain ⟨r, v, dispatched, processed⟩ := returns_execute env other run
      have bad : r.1 ≠ responseSuccess := fun good =>
        fails ⟨r, v, ⟨ok, clear, other, dispatched⟩, good⟩
      rw [opcode, dispatch, returns_withEmptyResponse] at dispatched
      obtain ⟨-, rfl⟩ | ⟨good, -⟩ := returns_memData dispatched.1
      · rw [StubState.answered, if_neg bad, returns_postProcess_none env rfl] at processed
        refine .inl ⟨r.1, bad, ?_⟩
        rw [processed, StubState.afterSend, idle, clear]
      · exact absurd good bad
    · rw [returns_handleCommand_report env ok clear] at run
      exact .inr ⟨clear, run⟩
  · rw [returns_handleCommand_reject env ok] at run
    exact .inl ⟨f.rejectCode, f.rejectCode_isCode.2, run⟩

variable (env) in
/-- A RAM download stores what its MEM_DATA carry from its offset on and no more than its total,
what is rejected changes nothing, and MEM_END succeeds once all has been stored. -/
structure DownloadsToRam (s₀ : StubState W D S C) (frames : List Frame) : Prop where
  stored : ∀ pre d t, pre <+: frames → MemRun env s₀ pre d t →
    (d = none → s₀.Logs (fun e => ¬ e.IsStore) t) ∧ ∀ last ∈ d, ∃ new,
      t.trace = last.base ++ new ∧
      storedBytes new = placed last.offset last.payloads.flatten ∧
      (storedBytes new).length ≤ last.total ∧
      ∀ p ∈ storedBytes new, ∃ i < last.total, p.1 = (last.offset + i) % 2 ^ 32
  rejected : ∀ pre f t u, pre ++ [f] <+: frames → (serve env pre).Returns s₀ () t →
    Opcode.ofByte f.ctx.command = .memData → ¬ Succeeds env f t →
    (handleCommand env f.buffer f.size).Returns t () u → Refused env f t u
  complete : ∀ pre f d t, pre ++ [f] <+: frames → MemRun env s₀ pre d t →
    Opcode.ofByte f.ctx.command = .memEnd → Succeeds env f t →
    ∃ last ∈ d, ∃ new, t.trace = last.base ++ new ∧ (storedBytes new).length = last.total

section Law

variable {frames : List Frame} {f : Frame} {d : Option Download} {t : StubState W D S C}

/-- MEM_END that succeeds has been admitted, and then `total_remaining` says what is missing. -/
theorem MemInv.complete_iff (inv : MemInv s₀ d t) (admitted : EndAdmitted f t) :
    (∃ last ∈ d, ∃ new, t.trace = last.base ++ new ∧ (storedBytes new).length = last.total) ↔
      t.memory.totalRemaining = 0 := by
  obtain ⟨last, rfl, counted⟩ := inv.counted admitted.inProgress
  obtain ⟨new, trace, bytes⟩ := (inv.account last rfl).stored
  have sum := counted.remaining
  have length : (storedBytes new).length = last.payloads.flatten.length := by
    rw [bytes, length_placed]
  constructor
  · rintro ⟨_, mem, new', trace', all⟩
    obtain rfl := Option.some.inj mem
    obtain rfl : new = new' := List.append_cancel_left (trace.symm.trans trace')
    omega
  · intro zero
    exact ⟨last, rfl, new, trace, by omega⟩

theorem MemRun.stored (idle : s₀.memory.inProgress = false) (run : MemRun env s₀ frames d t) :
    (d = none → s₀.Logs (fun e => ¬ e.IsStore) t) ∧ ∀ last ∈ d, ∃ new,
      t.trace = last.base ++ new ∧
      storedBytes new = placed last.offset last.payloads.flatten ∧
      (storedBytes new).length ≤ last.total ∧
      ∀ p ∈ storedBytes new, ∃ i < last.total, p.1 = (last.offset + i) % 2 ^ 32 := by
  have inv := run.inv idle
  refine ⟨inv.none, fun last mem => ?_⟩
  obtain ⟨⟨new, trace, bytes⟩, fits⟩ := inv.account last mem
  refine ⟨new, trace, bytes, by rwa [bytes, length_placed], fun p at_ => ?_⟩
  rw [bytes] at at_
  obtain ⟨i, less, addr⟩ := mem_placed at_
  exact ⟨i, less.trans_le fits, addr⟩

end Law

/-- A run downloads to RAM as it should when every MEM_END that is admitted in it finds no byte
missing, and only then. -/
theorem ram_download_iff (idle : s₀.memory.inProgress = false)
    (quiet : s₀.pendingPostProcess = none) (frames : List Frame) :
    DownloadsToRam env s₀ frames ↔ ∀ pre f t, pre ++ [f] <+: frames →
      (serve env pre).Returns s₀ () t → EndAdmitted f t → t.memory.totalRemaining = 0 := by
  constructor
  · intro law pre f t within run admitted
    obtain ⟨d, run⟩ := memRun_of_serve run
    have good : Succeeds env f t := (succeeds_memEnd_iff admitted.opcode).mpr admitted
    exact ((run.inv idle).complete_iff admitted).mp
      (law.complete pre f d t within run admitted.opcode good)
  · intro ends
    refine ⟨fun pre d t _ run => run.stored idle, ?_, ?_⟩
    · intro pre f t u _ run opcode fails last
      exact refused_memData (serve_pending quiet run) opcode fails last
    · intro pre f d t within run opcode good
      have admitted := (succeeds_memEnd_iff opcode).mp good
      exact ((run.inv idle).complete_iff admitted).mpr (ends pre f t within run.serve admitted)

/-- MEM_END of a host that stays in the loader. -/
def memEndFrame : Frame := mkFrame espMemEnd 0 (setU32ToLe 1 ++ setU32ToLe 0)

/-- Two bytes, up to the end of all addresses. -/
theorem ram_download_iff_two_bytes : DownloadsToRam (simPlatform 4096 []) (simStart fun _ => 0)
    [beginFrame espMemBegin 2 0xFFFFFFFE, dataFrame espMemData 0 [1, 2], memEndFrame] := by
  refine (ram_download_iff rfl rfl _).mpr fun pre f t within run admitted => ?_
  obtain _ | ⟨first, pre⟩ := pre
  · obtain ⟨rfl, -⟩ := List.cons_prefix_cons.mp within
    exact absurd admitted.opcode (by decide)
  obtain ⟨rfl, later⟩ := List.cons_prefix_cons.mp within
  obtain _ | ⟨second, pre⟩ := pre
  · obtain ⟨rfl, -⟩ := List.cons_prefix_cons.mp later
    exact absurd admitted.opcode (by decide)
  obtain ⟨rfl, last⟩ := List.cons_prefix_cons.mp later
  obtain _ | ⟨third, pre⟩ := pre
  · obtain ⟨-, rfl⟩ := run.unique ⟨20, _, rfl⟩
    rfl
  · have short := (List.cons_prefix_cons.mp last).2.length_le
    simp at short

/-- MEM_END right after the MEM_BEGIN of one byte. -/
theorem ram_download_incomplete : ¬ DownloadsToRam (simPlatform 4096 []) (simStart fun _ => 0)
    [beginFrame espMemBegin 1 0x3FFB0000, memEndFrame] := by
  intro law
  obtain ⟨t, run, clear, inProgress, left⟩ : ∃ t, (serve (simPlatform 4096 [])
      [beginFrame espMemBegin 1 0x3FFB0000]).Returns (simStart fun _ => 0) () t ∧
      t.accumulatedResult = responseSuccess ∧ t.memory.inProgress = true ∧
      t.memory.totalRemaining = 1 := ⟨_, ⟨20, _, rfl⟩, rfl, rfl, rfl⟩
  have admitted : EndAdmitted memEndFrame t := ⟨by decide, clear, by decide, by decide, inProgress⟩
  obtain ⟨d, run⟩ := memRun_of_serve run
  have all := law.complete [beginFrame espMemBegin 1 0x3FFB0000] memEndFrame d t
    (List.prefix_refl _) run admitted.opcode ((succeeds_memEnd_iff admitted.opcode).mpr admitted)
  have zero := ((run.inv rfl).complete_iff admitted).mp all
  omega

end FlasherStub
