import FlasherStub.Sdio
import FlasherStub.SlipLine

/-! The SDIO link as a line between a host and the main loop. The driver takes a frame only
while it is armed; when it has disarmed by itself the next poll arms it again. -/

namespace FlasherStub

open ByteMemory

/-- `outbox` are the frames that the driver has not received yet, and `said` all of them. -/
structure SdioLine where
  link : SdioLink
  outbox : List (List UInt8)
  said : List (List UInt8)

def SdioLine.start : SdioLine := ⟨.start, [], []⟩

def SdioReturned.frames : List SdioReturned → List (List UInt8) :=
  List.filterMap fun
    | .frame _ bytes => some bytes
    | .error => none

/-- A frame that arrives, a poll that returns it or arms the driver, or the release of an
error. -/
inductive SdioLine.Works : SdioLine → SdioLine → Prop where
  | arrive {link link' : SdioLink} {p : List UInt8} {outbox said : List (List UInt8)}
      (perform : (SdioStep.arrive p).perform link = some link') :
      Works ⟨link, p :: outbox, said⟩ ⟨link', outbox, said⟩
  | poll {link link' : SdioLink} {outbox said : List (List UInt8)}
      (perform : SdioStep.poll.perform link = some link')
      (moves : link'.port.driver ≠ link.port.driver) :
      Works ⟨link, outbox, said⟩ ⟨link', outbox, said⟩
  | error {link link' : SdioLink} {outbox said : List (List UInt8)}
      (holds : link.main = .holding .error) (perform : SdioStep.release.perform link = some link') :
      Works ⟨link, outbox, said⟩ ⟨link', outbox, said⟩

/-- A poll that finds nothing, or a disarm of the driver. -/
inductive SdioLine.Idles : SdioLine → SdioLine → Prop where
  | poll {link link' : SdioLink} {outbox said : List (List UInt8)}
      (perform : SdioStep.poll.perform link = some link')
      (stays : link'.port.driver = link.port.driver) :
      Idles ⟨link, outbox, said⟩ ⟨link', outbox, said⟩
  | disarm {link link' : SdioLink} {outbox said : List (List UInt8)}
      (perform : SdioStep.disarm.perform link = some link') :
      Idles ⟨link, outbox, said⟩ ⟨link', outbox, said⟩

def sdioLine : Mailbox.Line SdioLine (List UInt8) Frame where
  put p l := { l with outbox := l.outbox ++ [p], said := l.said ++ [p] }
  works := SdioLine.Works
  idles := SdioLine.Idles
  release l := { l with link := (SdioStep.release.perform l.link).getD l.link }
  said := SdioLine.said
  taken l := SdioReturned.frames l.link.returned
  held l := match l.link.main with
    | .holding (.frame data bytes) =>
      some ⟨(l.link.port.frames.buffers data).buffer, bytes.length⟩
    | _ => none
  reads := Frame.bytes

structure SdioLine.Turn (l : SdioLine) : Prop where
  ordered : l.link.Ordered
  noError : l.link.main ≠ .holding .error
  all : l.said = l.link.received.map Prod.snd ++ l.outbox
  frames : ∀ p ∈ l.said, IsFrame p

namespace SdioLine

variable {l : SdioLine}

theorem start_turn : Turn .start := ⟨.start, by simp [SdioLine.start, SdioLink.start], rfl, by
  simp [SdioLine.start]⟩

theorem frames_append (xs ys : List SdioReturned) :
    SdioReturned.frames (xs ++ ys) = SdioReturned.frames xs ++ SdioReturned.frames ys :=
  List.filterMap_append

theorem sdioOutcome_frame {x : Fin 2 × List UInt8} (frame : IsFrame x.2) :
    sdioOutcome x = .frame x.1 x.2 := if_pos frame.2

theorem frames_outcomes {xs : List (Fin 2 × List UInt8)} (frames : ∀ x ∈ xs, IsFrame x.2) :
    SdioReturned.frames (xs.map sdioOutcome) = xs.map Prod.snd := by
  induction xs with
  | nil => rfl
  | cons x xs ih =>
    rw [List.forall_mem_cons] at frames
    simp only [List.map_cons, SdioReturned.frames, sdioOutcome_frame frames.1,
      List.filterMap_cons]
    exact congrArg _ (ih frames.2)

theorem Turn.received (turn : l.Turn) : ∀ x ∈ l.link.received, IsFrame x.2 := fun x mem =>
  turn.frames x.2 (turn.all ▸ List.mem_append_left _ (List.mem_map_of_mem mem))

theorem eq_of_outcomes {xs ys : List (Fin 2 × List UInt8)} (frames : ∀ y ∈ ys, IsFrame y.2)
    (same : xs.map sdioOutcome = ys.map sdioOutcome) : xs = ys := by
  induction ys generalizing xs with
  | nil => simpa using same
  | cons y ys ih =>
    rw [List.forall_mem_cons] at frames
    cases xs with
    | nil => cases same
    | cons x xs =>
      obtain ⟨first, rest⟩ := List.cons.inj same
      rw [sdioOutcome_frame frames.1, sdioOutcome] at first
      split_ifs at first
      injection first with buf bytes
      rw [Prod.ext buf bytes, ih frames.2 rest]

theorem Turn.returned (turn : l.Turn) {waiting : List (Fin 2 × List UInt8)}
    (log : l.link.received.map sdioOutcome = l.link.returned ++ waiting.map sdioOutcome) :
    (∀ x ∈ waiting, IsFrame x.2) ∧
      l.link.received.map Prod.snd = sdioLine.taken l ++ waiting.map Prod.snd := by
  obtain ⟨before, last, split, first, rest⟩ := List.map_eq_append_iff.mp log
  have frames := turn.received
  rw [split] at frames
  have lasts : ∀ x ∈ last, IsFrame x.2 := fun x mem => frames x (List.mem_append_right _ mem)
  obtain rfl := eq_of_outcomes lasts rest.symm
  have firsts := frames_outcomes fun x mem => frames x (List.mem_append_left _ mem)
  refine ⟨lasts, ?_⟩
  rw [split, List.map_append, ← firsts, first]
  rfl

theorem Turn.order (turn : l.Turn) : sdioLine.taken l <+: sdioLine.said l := by
  have said : sdioLine.said l = l.link.received.map Prod.snd ++ l.outbox := turn.all
  rw [said]
  have ordered := turn.ordered
  obtain ⟨link, outbox, all⟩ := l
  cases ordered with
  | between _ log | holding _ log =>
    rw [(turn.returned log).2, List.append_assoc]
    exact List.prefix_append _ _

theorem Turn.arrive {link link' : SdioLink} {p : List UInt8} {outbox said : List (List UInt8)}
    (turn : Turn ⟨link, p :: outbox, said⟩)
    (perform : (SdioStep.arrive p).perform link = some link') :
    Turn ⟨link', outbox, said⟩ ∧
      sdioLine.Same ⟨link, p :: outbox, said⟩ ⟨link', outbox, said⟩ := by
  have ordered := turn.ordered.arrive perform
  have before := turn.ordered
  simp only [SdioStep.perform] at perform
  split at perform
  case h_2 => cases perform
  case h_1 buf driver =>
    obtain rfl := Option.some.inj perform
    refine ⟨⟨ordered, turn.noError, ?_, turn.frames⟩, ⟨rfl, rfl, ?_⟩⟩
    · have all := turn.all
      dsimp only at all ⊢
      rw [all, List.map_append, List.append_assoc]
      rfl
    · cases before with
      | between => rfl
      | @holding q held _ _ _ linked log clear holds apart =>
        obtain ⟨rfl, rfl⟩ := linked.armed driver
        cases held with
        | error => rfl
        | frame data bytes =>
          have kept := dma_buffers q p (holds.1 ▸ apart)
          simp [sdioLine, kept]

theorem Turn.poll {link link' : SdioLink} {outbox said : List (List UInt8)}
    (turn : Turn ⟨link, outbox, said⟩) (perform : SdioStep.poll.perform link = some link') :
    Turn ⟨link', outbox, said⟩ ∧ link'.port.driver = .armed link'.port.frames.rxIdx ∧
      (∀ buf, link.port.driver = .armed buf → link'.port.driver = .armed buf) ∧
      (sdioLine.Same ⟨link, outbox, said⟩ ⟨link', outbox, said⟩ ∧
          (∀ buf len, link.port.driver ≠ .pending buf len) ∨
        (∃ buf len, link.port.driver = .pending buf len) ∧
          ∃ f, sdioLine.Takes ⟨link, outbox, said⟩ ⟨link', outbox, said⟩ f) := by
  have ordered := turn.ordered.poll perform
  have before := turn.ordered
  have all := turn.all
  simp only [SdioStep.perform] at perform
  cases before with
  | holding => cases perform
  | @between p polled received waiting returned linked log clear spare apart =>
    obtain rfl := Option.some.inj perform
    obtain _ | ⟨⟨buf, bytes⟩, _ | ⟨next, more⟩⟩ := waiting
    · rw [sdioRecvPoll_none linked clear spare] at ordered ⊢
      refine ⟨⟨ordered, by simp [SdioLink.polled], all, turn.frames⟩, rfl, fun buf armed => ?_,
        .inl ⟨⟨rfl, rfl, rfl⟩, fun buf len => ?_⟩⟩
      · rw [(linked.armed armed).2]
        rfl
      · obtain disarmed | armed := linked
        · simp [disarmed]
        · simp [armed]
    · obtain ⟨frames, result, proc, apart', clear', holds⟩ := sdioRecvPoll_some linked clear spare
      have frame : IsFrame bytes := (turn.returned log).1 (buf, bytes) (by simp)
      have short : ¬frameBufferSize < bytes.length := Nat.not_lt.mpr frame.2
      rw [completion_linked linked, if_neg short] at holds
      have content : (frames.buffers buf).buffer.read 0 bytes.length = bytes := proc ▸ holds.2.2.2
      rw [result, if_neg short] at ordered ⊢
      refine ⟨⟨ordered, by simp [SdioLink.polled], all, turn.frames⟩, rfl,
        fun other armed => ?_,
        .inr ⟨⟨buf, _, linked.1⟩, ⟨(frames.buffers buf).buffer, bytes.length⟩, rfl, rfl, ?_, ?_⟩⟩
      · cases linked.1.symm.trans armed
      · simp [sdioLine, SdioLink.polled]
      · simp [sdioLine, SdioLink.polled, frames_append, Frame.bytes, content]
        rfl
    · exact linked.elim

theorem Turn.disarm {link link' : SdioLink} {outbox said : List (List UInt8)}
    (turn : Turn ⟨link, outbox, said⟩) (perform : SdioStep.disarm.perform link = some link') :
    Turn ⟨link', outbox, said⟩ ∧ sdioLine.Same ⟨link, outbox, said⟩ ⟨link', outbox, said⟩ := by
  have ordered := turn.ordered.disarm perform
  simp only [SdioStep.perform] at perform
  split at perform
  case h_2 => cases perform
  case h_1 buf driver =>
    obtain rfl := Option.some.inj perform
    exact ⟨⟨ordered, turn.noError, turn.all, turn.frames⟩, rfl, rfl, rfl⟩

theorem Turn.release {f : Frame} (turn : l.Turn) (held : sdioLine.held l = some f) :
    (sdioLine.release l).Turn ∧ sdioLine.said (sdioLine.release l) = sdioLine.said l ∧
      sdioLine.taken (sdioLine.release l) = sdioLine.taken l ∧
      sdioLine.held (sdioLine.release l) = none := by
  obtain ⟨⟨p, main, received, returned⟩, outbox, said⟩ := l
  cases main with
  | between => cases held
  | holding frame =>
    have step : SdioStep.release.perform ⟨p, .holding frame, received, returned⟩ =
      some ⟨{ p with frames := frameBufferReset p.frames }, .between true, received, returned⟩ := rfl
    have ordered := turn.ordered.release step
    exact ⟨⟨ordered, by simp [sdioLine, step], turn.all, turn.frames⟩, rfl, rfl, rfl⟩

/-- The SDIO link carries the frames of a host, however often its driver disarms. -/
theorem carries_sdioLine : sdioLine.Carries IsFrame Turn where
  put l p turn frame _ := by
    refine ⟨⟨turn.ordered, turn.noError, ?_, ?_⟩, rfl, rfl, rfl⟩
    · simp [sdioLine, turn.all]
    · exact List.forall_mem_append.mpr ⟨turn.frames, by simpa using frame⟩
  works l l' turn move := by
    cases move with
    | arrive perform =>
      obtain ⟨turn, same⟩ := turn.arrive perform
      exact ⟨turn, .inl same⟩
    | poll perform moves =>
      obtain ⟨turn, -, -, ⟨same, -⟩ | ⟨-, taken⟩⟩ := turn.poll perform
      · exact ⟨turn, .inl same⟩
      · exact ⟨turn, .inr taken⟩
    | error holds => exact absurd holds turn.noError
  idles l l' turn move := by
    cases move with
    | poll perform stays =>
      obtain ⟨turn, armed, -, ⟨same, -⟩ | ⟨⟨buf, len, pending⟩, -⟩⟩ := turn.poll perform
      · exact ⟨turn, same⟩
      · cases armed.symm.trans (stays.trans pending)
    | disarm perform => exact turn.disarm perform
  release l f turn held := turn.release held
  order l turn := turn.order

def driverLeft : SdioDriver → Nat
  | .disarmed | .pending _ _ => 1
  | .armed _ => 0

def rank (l : SdioLine) : Nat := 2 * l.outbox.length + driverLeft l.link.port.driver

theorem Turn.ready (turn : l.Turn) (free : sdioLine.held l = none)
    (waiting : sdioLine.taken l ≠ sdioLine.said l) : ∃ l', l.Works l' := by
  have all := turn.all
  have ordered := turn.ordered
  obtain ⟨⟨p, main, received, returned⟩, outbox, said⟩ := l
  cases ordered with
  | @holding _ held =>
    cases held with
    | error => exact absurd rfl turn.noError
    | frame => cases free
  | @between _ polled _ waits _ linked log =>
    have perform : SdioStep.poll.perform ⟨p, .between polled, received, returned⟩ = some _ := rfl
    have armed := (turn.poll perform).2.1
    by_cases here : p.driver = .armed p.frames.rxIdx
    · obtain ⟨rfl, -⟩ := linked.armed here
      have taken := (turn.returned log).2
      simp only [List.map_nil, List.append_nil] at taken
      cases outbox with
      | nil =>
        rw [List.append_nil] at all
        exact absurd (taken.symm.trans all.symm) waiting
      | cons q outbox =>
        obtain ⟨link', arrives⟩ : ∃ link', (SdioStep.arrive q).perform
            ⟨p, .between polled, received, returned⟩ = some link' := by
          simp [SdioStep.perform, here]
        exact ⟨_, .arrive arrives⟩
    · refine ⟨_, .poll perform fun same => here ?_⟩
      have same := same.symm.trans armed
      exact (linked.armed same).2 ▸ same

theorem advances_sdioLine : sdioLine.Advances Turn rank fun _ => 2 where
  put l p := by simp [rank, sdioLine]; omega
  works l l' turn move := by
    cases move with
    | @arrive link link' p outbox said perform =>
      simp only [SdioStep.perform] at perform
      split at perform
      case h_2 => cases perform
      case h_1 buf driver =>
        obtain rfl := Option.some.inj perform
        simp only [rank, driver, driverLeft, SdioPort.dma, List.length_cons]
        omega
    | @poll link link' outbox said perform moves =>
      obtain ⟨-, armed, kept, -⟩ := turn.poll perform
      have before : driverLeft link.port.driver = 1 := by
        cases driver : link.port.driver with
        | armed buf => exact absurd ((kept buf driver).trans driver.symm) moves
        | disarmed | pending => rfl
      change 2 * outbox.length + driverLeft link'.port.driver <
        2 * outbox.length + driverLeft link.port.driver
      rw [armed, before]
      simp [driverLeft]
    | error holds => exact absurd holds turn.noError
  release l f turn held := by
    obtain ⟨⟨p, main, received, returned⟩, outbox, said⟩ := l
    cases main with
    | between => cases held
    | holding frame => exact Nat.le_refl _
  ready l turn free waiting := turn.ready free waiting

theorem Turn.intact (turn : l.Turn) : .error ∉ l.link.returned ∧
    SdioReturned.frames l.link.returned <+: l.said := by
  refine ⟨fun lost => ?_, turn.order⟩
  have received : .error ∈ l.link.received.map sdioOutcome := by
    have ordered := turn.ordered
    obtain ⟨link, outbox, said⟩ := l
    cases ordered with
    | between _ log | holding _ log => exact log ▸ List.mem_append_left _ lost
  obtain ⟨x, mem, outcome⟩ := List.mem_map.mp received
  rw [sdioOutcome_frame (turn.received x mem)] at outcome
  cases outcome

end SdioLine

end FlasherStub
