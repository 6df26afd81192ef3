import FlasherStub.Dispatch
import FlasherStub.Interleaving
import FlasherStub.Lib.Mailbox

/-! The SLIP link as a line between a host and the main loop. While the host waits for answers
no byte that it sends is dropped, whenever the interrupt comes. -/

namespace FlasherStub

open ByteMemory
open Slip (Reception Underway)

def Frame.bytes (f : Frame) : List UInt8 := f.buffer.read 0 f.size

/-- `wire` are the bytes on their way and `said` the frames that the host has sent so far. -/
structure SlipLine where
  link : Link
  wire : List UInt8
  said : List (List UInt8)

def SlipLine.start : SlipLine := ⟨.start, [], []⟩

def framesOf (receptions : List Reception) : List (List UInt8) :=
  receptions.filterMap fun
    | .frame bytes => some bytes
    | .error => none

/-- A byte that arrives, a call of `slip_recv_poll` that gets on, or the release of an error. -/
inductive SlipLine.Works : SlipLine → SlipLine → Prop where
  | byte {link link' : Link} {b : UInt8} {wire : List UInt8} {said : List (List UInt8)}
      (perform : (LinkStep.byte b).perform link = some link') :
      Works ⟨link, b :: wire, said⟩ ⟨link', wire, said⟩
  | poll {link link' : Link} {wire : List UInt8} {said : List (List UInt8)} {s : LinkStep}
      (inside : s ∈ [.getState, .acquire, .rearm, .getData])
      (perform : s.perform link = some link') (moves : link'.main ≠ link.main) :
      Works ⟨link, wire, said⟩ ⟨link', wire, said⟩
  | error {link link' : Link} {wire : List UInt8} {said : List (List UInt8)} {i : Fin 2}
      (holds : link.main = .holding i none) (perform : LinkStep.release.perform link = some link') :
      Works ⟨link, wire, said⟩ ⟨link', wire, said⟩

inductive SlipLine.Idles : SlipLine → SlipLine → Prop where
  | poll {link link' : Link} {wire : List UInt8} {said : List (List UInt8)}
      (perform : LinkStep.getState.perform link = some link') (stays : link'.main = link.main) :
      Idles ⟨link, wire, said⟩ ⟨link', wire, said⟩

def slipLine : Mailbox.Line SlipLine (List UInt8) Frame where
  put p l := { l with wire := l.wire ++ slipSendFrame p, said := l.said ++ [p] }
  works := SlipLine.Works
  idles := SlipLine.Idles
  release l := { l with link := (LinkStep.release.perform l.link).getD l.link }
  said := SlipLine.said
  taken l := framesOf l.link.delivered
  held l := match l.link.main with
    | .holding i (some bytes) => some ⟨(l.link.receiver.frames.buffers i).buffer, bytes.length⟩
    | _ => none
  reads := Frame.bytes

def IsFrame (p : List UInt8) : Prop := p ≠ [] ∧ p.length ≤ frameBufferSize

instance (p : List UInt8) : Decidable (IsFrame p) := inferInstanceAs (Decidable (_ ∧ _))

/-- The last frame is on its way to an armed buffer, or all have arrived. -/
inductive SlipLine.Arrives (r : Receiver) (delivered : List Reception) (wire : List UInt8)
    (said : List (List UInt8)) : Prop where
  | travelling {before : List (List UInt8)} {p : List UInt8} (all : said = before ++ [p])
      (frame : IsFrame p) (log : r.frames.marked = before.map .frame)
      (caught : delivered = r.frames.marked) (underway : Underway p r.phase wire)
  | arrived (empty : wire = []) (log : r.frames.marked = said.map .frame)
      (rests : r.state = .noFrame) (lag : said.length ≤ delivered.length + 1)

/-- One frame at a time is on the line, and none is lost. -/
structure SlipLine.Turn (l : SlipLine) : Prop where
  ordered : l.link.Ordered
  cap : l.link.receiver.rxCap = frameBufferSize
  noError : ∀ i, l.link.main ≠ .holding i none
  arrives : Arrives l.link.receiver l.link.delivered l.wire l.said

@[simp] theorem framesOf_frames (ps : List (List UInt8)) : framesOf (ps.map .frame) = ps := by
  simp [framesOf, List.filterMap_map]

theorem framesOf_prefix {xs ys : List Reception} (h : xs <+: ys) : framesOf xs <+: framesOf ys :=
  h.filterMap _

theorem framesOf_length_le (xs : List Reception) : (framesOf xs).length ≤ xs.length :=
  List.length_filterMap_le _ xs

namespace Link

theorem perform_decoder {l l' : Link} {s : LinkStep} (main : ∀ b, s ≠ .byte b)
    (step : s.perform l = some l') : l'.receiver.state = l.receiver.state ∧
      (l.receiver.rxCap = frameBufferSize → l'.receiver.rxCap = frameBufferSize) := by
  obtain ⟨r, at_, delivered⟩ := l
  cases s with
  | byte b => exact absurd rfl (main b)
  | getState =>
    cases at_ with
    | between polled => exact Option.some.inj step ▸ ⟨rfl, id⟩
    | _ => cases step
  | acquire =>
    cases at_ with
    | selected state => exact Option.some.inj step ▸ ⟨rfl, id⟩
    | _ => cases step
  | rearm =>
    cases at_ with
    | acquired state buf => exact Option.some.inj step ▸ ⟨rfl, fun _ => rfl⟩
    | _ => cases step
  | getData =>
    cases at_ with
    | rearmed state =>
      rw [LinkStep.perform_getData] at step
      split_ifs at step <;> exact Option.some.inj step ▸ ⟨rfl, id⟩
    | _ => cases step
  | release =>
    cases at_ with
    | between polled =>
      cases polled with
      | false => cases step
      | true => exact Option.some.inj step ▸ ⟨rfl, id⟩
    | holding i frame => exact Option.some.inj step ▸ ⟨rfl, id⟩
    | _ => cases step

theorem Ordered.armed {l : Link} (inv : l.Ordered) (caught : l.delivered = l.receiver.frames.marked) :
    l.receiver.Armed ∧ l.Outside := by
  have settled {r : Receiver} {delivered pending : List Reception} (ready : r.Ready pending)
      (log : r.frames.marked = delivered ++ pending) (same : delivered = r.frames.marked) :
      r.Armed := by
    obtain ⟨rfl, armed⟩ | ⟨e, rfl, full⟩ := ready
    · exact armed
    · rw [← same] at log
      simp at log
  cases inv with
  | between ready log => exact ⟨settled ready log caught, .inl ⟨_, rfl⟩⟩
  | holding ready log => exact ⟨settled ready log caught, .inr ⟨_, _, rfl⟩⟩
  | selected _ log => exact absurd (caught.trans log) (by simp)
  | acquired _ _ _ _ log => exact absurd (caught.trans log) (by simp)
  | rearmed _ log => exact absurd (caught.trans log) (by simp)

theorem Ordered.poll_armed {r : Receiver} {polled : Bool} {delivered : List Reception}
    (inv : Ordered ⟨r, .between polled, delivered⟩) (armed : r.Armed) :
    LinkStep.getState.perform ⟨r, .between polled, delivered⟩ =
      some ⟨r, .between polled, delivered⟩ := by
  cases inv with
  | between ready log spare apart =>
    have idle := FrameBuffers.getState_clear spare armed.clear
    simp [LinkStep.perform_getState, idle]

end Link

theorem Receiver.state_of_idle {r : Receiver} (idle : r.phase = .idle) : r.state = .noFrame := by
  unfold Receiver.phase at idle
  split at idle
  · assumption
  · cases idle
  · cases idle

namespace SlipLine

variable {l : SlipLine}

theorem start_turn : Turn .start where
  ordered := .start
  cap := rfl
  noError i := by simp [SlipLine.start, Link.start]
  arrives := .arrived rfl rfl rfl (Nat.zero_le _)

theorem Turn.delivered (turn : l.Turn) :
    l.link.receiver.frames.marked <+: l.said.map .frame ∧
      l.link.delivered = (framesOf l.link.delivered).map .frame := by
  have order := turn.ordered.in_order
  have log : l.link.receiver.frames.marked <+: l.said.map .frame := by
    cases turn.arrives with
    | travelling all _ log => simp [log, all]
    | arrived _ log => exact log ▸ List.prefix_rfl
  refine ⟨log, ?_⟩
  obtain ⟨rest, all⟩ := order.trans log
  obtain ⟨firsts, _, split, first, _⟩ := List.append_eq_map_iff.mp all
  rw [← first, framesOf_frames]

theorem Turn.order (turn : l.Turn) : slipLine.taken l <+: slipLine.said l := by
  have order := framesOf_prefix (turn.ordered.in_order.trans turn.delivered.1)
  rwa [framesOf_frames] at order

theorem Turn.caught (turn : l.Turn) (taken : slipLine.taken l = slipLine.said l) :
    l.wire = [] ∧ l.link.receiver.phase = .idle ∧
      l.link.receiver.frames.marked = l.said.map .frame ∧
      l.link.delivered = l.link.receiver.frames.marked := by
  have count := congrArg List.length taken
  have fewer := framesOf_length_le l.link.delivered
  have order := turn.ordered.in_order
  change (framesOf l.link.delivered).length = l.said.length at count
  cases turn.arrives with
  | travelling all _ log caught =>
    rw [caught, log, framesOf_frames, all] at count
    simp at count
  | arrived empty log rests =>
    refine ⟨empty, by simp [Receiver.phase, rests], log, order.eq_of_length_le ?_⟩
    rw [log, List.length_map]
    omega

theorem Turn.put (turn : l.Turn) {p : List UInt8} (frame : IsFrame p)
    (taken : slipLine.taken l = slipLine.said l) : (slipLine.put p l).Turn := by
  obtain ⟨empty, phase, log, caught⟩ := turn.caught taken
  refine ⟨turn.ordered, turn.cap, turn.noError, .travelling rfl frame log caught ?_⟩
  change Underway p l.link.receiver.phase (l.wire ++ Slip.encode p)
  rw [empty, phase]
  exact .opening

theorem Turn.byte {link : Link} {b : UInt8} {wire : List UInt8} {said : List (List UInt8)}
    (turn : Turn ⟨link, b :: wire, said⟩) :
    Turn ⟨{ link with receiver := slipRecvByte b link.receiver }, wire, said⟩ := by
  obtain ⟨ordered, cap, noError, arrives⟩ := turn
  have next : Link.Ordered { link with receiver := slipRecvByte b link.receiver } := ordered.byte b
  cases arrives with
  | arrived empty => cases empty
  | @travelling before p all frame log caught underway =>
    have received := (ordered.armed caught).1.recvByte b
    refine ⟨next, received.rxCap.trans cap, noError, ?_⟩
    have step := underway.step frame.1 (cap ▸ frame.2)
    obtain ⟨quiet, onward⟩ | ⟨rfl, last⟩ := step
    · refine .travelling all frame ?_ ?_ (received.phase ▸ onward)
      · rw [received.marked, quiet, List.append_nil, log]
      · rw [caught, received.marked, quiet, List.append_nil]
    · refine .arrived rfl ?_ (Receiver.state_of_idle ?_) ?_
      · rw [received.marked, last, log, all, List.map_append]
        rfl
      · rw [received.phase, last]
      · dsimp only at all log caught
        simp [all, log, caught]

theorem Arrives.quiet {r r' : Receiver} {delivered : List Reception} {wire : List UInt8}
    {said : List (List UInt8)} (arrives : Arrives r delivered wire said)
    (marked : r'.frames.marked = r.frames.marked) (state : r'.state = r.state)
    (phase : delivered = r.frames.marked → r'.phase = r.phase) :
    Arrives r' delivered wire said := by
  cases arrives with
  | travelling all frame log caught underway =>
    exact .travelling all frame (marked.trans log) (caught.trans marked.symm)
      (phase caught ▸ underway)
  | arrived empty log rests lag =>
    exact .arrived empty (marked.trans log) (state.trans rests) lag

theorem Turn.poll {link link' : Link} {s : LinkStep} {wire : List UInt8} {said : List (List UInt8)}
    (turn : Turn ⟨link, wire, said⟩) (inside : s ∈ [.getState, .acquire, .rearm, .getData])
    (perform : s.perform link = some link') (moves : link'.main ≠ link.main) :
    wire = [] ∧ link.receiver.frames.marked = said.map .frame ∧ link.receiver.state = .noFrame ∧
      said.length ≤ link.delivered.length + 1 := by
  obtain ⟨ordered, cap, noError, arrives⟩ := turn
  cases arrives with
  | arrived empty log rests lag => exact ⟨empty, log, rests, lag⟩
  | travelling all frame log caught underway =>
    obtain ⟨armed, outside⟩ := ordered.armed caught
    obtain ⟨r, main, delivered⟩ := link
    obtain ⟨polled, here⟩ | ⟨i, held, here⟩ := outside
    · dsimp only at here
      subst here
      simp only [List.mem_cons, List.not_mem_nil, or_false] at inside
      obtain rfl | rfl | rfl | rfl := inside
      · rw [ordered.poll_armed armed] at perform
        exact absurd (Option.some.inj perform ▸ rfl) moves
      · cases perform
      · cases perform
      · cases perform
    · dsimp only at here
      subst here
      simp only [List.mem_cons, List.not_mem_nil, or_false] at inside
      obtain rfl | rfl | rfl | rfl := inside <;> cases perform

theorem Turn.getData {link link' : Link} {wire : List UInt8} {said : List (List UInt8)}
    (turn : Turn ⟨link, wire, said⟩) (perform : LinkStep.getData.perform link = some link')
    (log : link.receiver.frames.marked = said.map .frame) :
    ∃ i bytes, link'.main = .holding i (some bytes) ∧ link'.receiver = link.receiver ∧
      link'.delivered = link.delivered ++ [.frame bytes] := by
  obtain ⟨r, main, delivered⟩ := link
  cases main with
  | rearmed state =>
    have ordered := turn.ordered
    cases ordered with
    | @rearmed _ _ pending e ready all holds apart =>
      cases e with
      | error =>
        have lost : Reception.error ∈ said.map Reception.frame := by
          rw [← log]
          exact all ▸ List.mem_append_right _ (List.mem_cons_self ..)
        simp at lost
      | frame bytes =>
        obtain ⟨complete, noError, length, content⟩ := holds
        simp only [LinkStep.perform_getData, stateOf, reduceCtorEq, if_false, frameBufferGetData,
          length, content, Option.some.injEq] at perform
        exact perform ▸ ⟨_, _, rfl, rfl, rfl⟩
  | _ => cases perform

theorem perform_delivered {link link' : Link} {s : LinkStep}
    (inside : s ∈ [.getState, .acquire, .rearm]) (perform : s.perform link = some link') :
    link'.delivered = link.delivered ∧ (∀ i f, link.main ≠ .holding i f) ∧
      ∀ i f, link'.main ≠ .holding i f := by
  obtain ⟨r, main, delivered⟩ := link
  simp only [List.mem_cons, List.not_mem_nil, or_false] at inside
  obtain rfl | rfl | rfl := inside
  · cases main with
    | between polled =>
      refine Option.some.inj perform ▸ ⟨rfl, by simp, ?_⟩
      dsimp only
      split_ifs <;> simp
    | _ => cases perform
  · cases main with
    | selected state => exact Option.some.inj perform ▸ ⟨rfl, by simp, by simp⟩
    | _ => cases perform
  · cases main with
    | acquired state buf => exact Option.some.inj perform ▸ ⟨rfl, by simp, by simp⟩
    | _ => cases perform

theorem held_none {l : SlipLine} (free : ∀ i f, l.link.main ≠ .holding i f) :
    slipLine.held l = none := by
  obtain ⟨⟨r, main, delivered⟩, wire, said⟩ := l
  cases main with
  | holding i f => exact absurd rfl (free i f)
  | _ => rfl

theorem framesOf_append (xs ys : List Reception) :
    framesOf (xs ++ ys) = framesOf xs ++ framesOf ys := List.filterMap_append

theorem held_byte {link : Link} {b : UInt8} {wire wire' : List UInt8} {said : List (List UInt8)}
    (ordered : link.Ordered) :
    slipLine.held ⟨{ link with receiver := slipRecvByte b link.receiver }, wire', said⟩ =
      slipLine.held ⟨link, wire, said⟩ := by
  cases ordered with
  | @holding r i frame delivered pending ready log same holds apart =>
    obtain ⟨new, _, marks⟩ := ready.recvByte b
    have kept : (slipRecvByte b r).frames.buffers i = r.frames.buffers i := marks.spare i apart
    cases frame with
    | none => rfl
    | some bytes => simp [slipLine, kept]
  | _ => rfl

theorem Turn.works {l' : SlipLine} (turn : l.Turn) (move : l.Works l') :
    l'.Turn ∧ (slipLine.Same l l' ∨ ∃ f, slipLine.Takes l l' f) := by
  cases move with
  | @byte link link' b wire said perform =>
    obtain rfl := Option.some.inj perform
    exact ⟨turn.byte, .inl ⟨rfl, rfl, held_byte turn.ordered⟩⟩
  | @error link link' wire said i holds perform => exact absurd holds (turn.noError i)
  | @poll link link' wire said s inside perform moves =>
    obtain ⟨empty, log, rests, lag⟩ := turn.poll inside perform moves
    have noByte : ∀ b, s ≠ .byte b := by
      rintro b rfl
      simp at inside
    obtain ⟨state, cap⟩ := Link.perform_decoder noByte perform
    have marked := Link.perform_marked noByte perform
    have ordered := turn.ordered.perform perform
    by_cases last : s = .getData
    · subst last
      obtain ⟨i, bytes, main, receiver, delivered⟩ := turn.getData perform log
      have intact := ordered.intact main
      have free : slipLine.held ⟨link, wire, said⟩ = none := held_none fun j f at_ => by
        obtain ⟨r, main, _⟩ := link
        subst at_
        cases perform
      refine ⟨⟨ordered, cap turn.cap, by simp [main], .arrived empty (marked.trans log)
        (state.trans rests) ?_⟩, .inr ⟨⟨(link'.receiver.frames.buffers i).buffer, bytes.length⟩,
          rfl, free, by simp [slipLine, main], ?_⟩⟩
      · rw [delivered, List.length_append]
        exact Nat.le_trans lag (Nat.le_add_right _ 1)
      · simp only [slipLine, delivered, framesOf_append, Frame.bytes, intact.2]
        rfl
    · have before : s ∈ [.getState, .acquire, .rearm] := by simpa [last] using inside
      obtain ⟨delivered, outside, outside'⟩ := perform_delivered before perform
      refine ⟨⟨ordered, cap turn.cap, fun i => outside' i none, .arrived empty (marked.trans log)
        (state.trans rests) (delivered ▸ lag)⟩, .inl ⟨rfl, ?_, ?_⟩⟩
      · exact congrArg framesOf delivered
      · rw [held_none (l := ⟨link, wire, said⟩) outside,
          held_none (l := ⟨link', wire, said⟩) outside']

theorem Turn.idles {l' : SlipLine} (turn : l.Turn) (move : l.Idles l') : l' = l := by
  cases move with
  | @poll link link' wire said perform stays =>
    obtain ⟨r, main, delivered⟩ := link
    cases main with
    | between polled =>
      have ordered := turn.ordered
      cases ordered with
      | between ready log spare apart =>
        obtain ⟨rfl, armed⟩ | ⟨e, rfl, full⟩ := ready
        · rw [turn.ordered.poll_armed armed] at perform
          rw [← Option.some.inj perform]
        · rw [Link.Ordered.perform_full full spare] at perform
          rw [← Option.some.inj perform] at stays
          cases stays
    | _ => cases perform

theorem Turn.release {f : Frame} (turn : l.Turn) (held : slipLine.held l = some f) :
    (slipLine.release l).Turn ∧ slipLine.said (slipLine.release l) = slipLine.said l ∧
      slipLine.taken (slipLine.release l) = slipLine.taken l ∧
      slipLine.held (slipLine.release l) = none := by
  obtain ⟨⟨r, main, delivered⟩, wire, said⟩ := l
  cases main with
  | holding i frame =>
    have ordered := turn.ordered
    cases ordered with
    | holding ready log same holds apart =>
      subst same
      have step : LinkStep.release.perform ⟨r, .holding r.frames.procIdx frame, delivered⟩ =
        some ⟨recvRelease r, .between true, delivered⟩ := rfl
      have phase : (recvRelease r).phase = r.phase := by
        have kept : (recvRelease r).rxBuffer = r.rxBuffer := Function.update_of_ne apart.symm _ _
        simp only [Receiver.phase, Receiver.partialFrame, kept]
        rfl
      refine ⟨⟨turn.ordered.perform step, turn.cap, by simp [slipLine, step],
        turn.arrives.quiet rfl rfl fun _ => phase⟩, rfl, rfl, rfl⟩
  | _ => cases held

/-- The SLIP link carries the frames of a host that waits for its answers. -/
theorem carries_slipLine : slipLine.Carries IsFrame Turn where
  put l p turn frame taken := ⟨turn.put frame taken, rfl, rfl, rfl⟩
  works l l' turn move := turn.works move
  idles l l' turn move := by
    obtain rfl := turn.idles move
    exact ⟨turn, rfl, rfl, rfl⟩
  release l f turn held := turn.release held
  order l turn := turn.order

/-- The calls until a frame that has arrived is returned by a poll. -/
def pollsLeft (r : Receiver) : MainState → Nat
  | .between _ | .holding _ _ => if r.rxBuf.isNone then 4 else 0
  | .selected _ => 3
  | .acquired _ _ => 2
  | .rearmed _ => 1

def rank (l : SlipLine) : Nat := 5 * l.wire.length + pollsLeft l.link.receiver l.link.main

def cost (p : List UInt8) : Nat := 5 * (slipSendFrame p).length

theorem pollsLeft_le (r r' : Receiver) (main : MainState) :
    pollsLeft r' main ≤ pollsLeft r main + 4 := by
  cases main <;> simp [pollsLeft] <;> split_ifs <;> omega

theorem Turn.poll_rank {link link' : Link} {s : LinkStep} {wire : List UInt8}
    {said : List (List UInt8)} (turn : Turn ⟨link, wire, said⟩)
    (inside : s ∈ [.getState, .acquire, .rearm, .getData]) (perform : s.perform link = some link')
    (moves : link'.main ≠ link.main) :
    pollsLeft link'.receiver link'.main < pollsLeft link.receiver link.main := by
  obtain ⟨-, log, rests, lag⟩ := turn.poll inside perform moves
  have ordered := turn.ordered
  obtain ⟨r, main, delivered⟩ := link
  simp only [List.mem_cons, List.not_mem_nil, or_false] at inside
  obtain rfl | rfl | rfl | rfl := inside
  · cases ordered with
    | between ready _ spare apart =>
      obtain ⟨rfl, armed⟩ | ⟨e, rfl, full⟩ := ready
      · rw [turn.ordered.poll_armed armed] at perform
        exact absurd (Option.some.inj perform ▸ rfl) moves
      · rw [Link.Ordered.perform_full full spare] at perform
        rw [← Option.some.inj perform]
        simp [pollsLeft, full.buf]
    | _ => cases perform
  · cases main with
    | selected state =>
      rw [← Option.some.inj perform]
      simp [pollsLeft]
    | _ => cases perform
  · cases main with
    | acquired state buf =>
      rw [← Option.some.inj perform]
      simp [pollsLeft]
    | _ => cases perform
  · cases ordered with
    | @rearmed _ _ pending e ready all holds apart =>
      have none : pending = [] := by
        have count := congrArg List.length (all.symm.trans log)
        simp only [List.length_append, List.length_cons, List.length_map] at count
        rw [← List.length_eq_zero_iff]
        dsimp only at lag
        omega
      subst none
      obtain ⟨-, armed⟩ | ⟨_, none, -⟩ := ready
      · obtain ⟨i, bytes, main, receiver, -⟩ := turn.getData perform log
        rw [main, receiver]
        simp [pollsLeft, armed.buf]
      · cases none
    | _ => cases perform

theorem Turn.ready (turn : l.Turn) (free : slipLine.held l = none)
    (waiting : slipLine.taken l ≠ slipLine.said l) : ∃ l', l.Works l' := by
  obtain ⟨⟨r, main, delivered⟩, wire, said⟩ := l
  cases turn.arrives with
  | travelling all frame log caught underway =>
    cases wire with
    | nil => exact absurd rfl underway.ne_nil
    | cons b wire => exact ⟨_, .byte rfl⟩
  | arrived empty log rests lag =>
    have ordered := turn.ordered
    cases ordered with
    | between ready marked spare apart =>
      obtain ⟨rfl, armed⟩ | ⟨e, rfl, full⟩ := ready
      · rw [List.append_nil] at marked
        refine absurd ?_ waiting
        change framesOf delivered = said
        rw [← marked, log, framesOf_frames]
      · exact ⟨_, .poll (s := .getState) (by simp) (Link.Ordered.perform_full full spare) (by simp)⟩
    | selected => exact ⟨_, .poll (s := .acquire) (by simp) rfl (by simp)⟩
    | acquired => exact ⟨_, .poll (s := .rearm) (by simp) rfl (by simp)⟩
    | @rearmed _ _ pending e ready all holds apart =>
      obtain ⟨link', perform⟩ : ∃ link', LinkStep.getData.perform
          ⟨r, .rearmed (stateOf e), delivered⟩ = some link' := by
        rw [LinkStep.perform_getData]
        split_ifs <;> exact ⟨_, rfl⟩
      obtain ⟨i, bytes, main, -⟩ := turn.getData perform log
      exact ⟨_, .poll (s := .getData) (by simp) perform (by simp [main])⟩
    | @holding _ i frame =>
      cases frame with
      | none => exact absurd rfl (turn.noError i)
      | some bytes => cases free

theorem advances_slipLine : slipLine.Advances Turn rank cost where
  put l p := by
    simp only [rank, cost, slipLine, List.length_append]
    omega
  works l l' turn move := by
    cases move with
    | @byte link link' b wire said perform =>
      obtain rfl := Option.some.inj perform
      have more := pollsLeft_le link.receiver (slipRecvByte b link.receiver) link.main
      simp only [rank, List.length_cons]
      omega
    | @error link link' wire said i holds perform => exact absurd holds (turn.noError i)
    | poll inside perform moves =>
      exact Nat.add_lt_add_left (turn.poll_rank inside perform moves) _
  release l f turn held := by
    obtain ⟨⟨r, main, delivered⟩, wire, said⟩ := l
    cases main with
    | holding i frame => exact Nat.le_refl _
    | _ => cases held
  ready l turn free waiting := turn.ready free waiting

/-- Nothing that `sent` holds was dropped, damaged or reported as an error: bytes on their way
find a buffer armed, and a poll that found a frame gets the other buffer. -/
structure Lossless (l : SlipLine) (sent : List (List UInt8)) : Prop where
  received : l.link.receiver.frames.marked <+: sent.map .frame
  delivered : l.link.delivered <+: l.link.receiver.frames.marked
  armed : l.wire ≠ [] → l.link.receiver.Armed
  acquires : ∀ state buf, l.link.main = .acquired state buf → buf ≠ none

theorem Turn.lossless (turn : l.Turn) {sent : List (List UInt8)} (said : l.said <+: sent) :
    l.Lossless sent where
  received := turn.delivered.1.trans (said.map _)
  delivered := turn.ordered.in_order
  armed wire := by
    cases turn.arrives with
    | travelling _ _ _ caught => exact (turn.ordered.armed caught).1
    | arrived empty => exact absurd empty wire
  acquires := turn.ordered.safe.acquires

end SlipLine

end FlasherStub
