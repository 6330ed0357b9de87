import Marginalia.Session.Controller
import Marginalia.Proofs.SessionFrames
import Marginalia.Proofs.OrderedItems
import Marginalia.Proofs.TicketPasses

namespace Marginalia

/-- What can be done with a controller and its session. Queued workers run by their places, at any time. -/
inductive Move
  | submit
  | runNow
  | runQueued (place : Nat)
  | event (event : Event)
  | request (base : Option (List Span))
deriving DecidableEq, Repr

/-- Whether a move asks for a pass. -/
def Move.asks : Move → Bool
  | .submit | .runNow | .request _ => true
  | .runQueued _ | .event _ => false

/-- A signal, with the ticket of the pass that it tells of and the generation of the session at that moment. -/
structure Notice where
  ticket : Ticket
  signal : Signal
  generation : Nat
deriving DecidableEq, Repr

def Controller.notices (controller : Controller) (ticket : Ticket) (signals : List Signal) : List Notice :=
  signals.map fun signal => ⟨ticket, signal, controller.session.generation⟩

theorem Controller.signals_notices (controller : Controller) (ticket : Ticket) (signals : List Signal) :
    (controller.notices ticket signals).map (·.signal) = signals := by
  unfold notices
  rw [List.map_map]
  exact List.map_id signals

def Controller.move (controller : Controller) : Move → Controller × List Notice
  | .submit => (controller.submit.1, [])
  | .runNow =>
    let (after, _, signals) := controller.runNow
    (after, after.notices (controller.session.requestPass none).2 signals)
  | .runQueued place =>
    match controller.queue[place]? with
    | some worker =>
      let (after, signals) := controller.runQueued place
      (after, after.notices worker.ticket signals)
    | none => (controller, [])
  | .event event => ({ controller with session := (controller.session.step event).1 }, [])
  | .request base => ({ controller with session := (controller.session.requestPass base).1 }, [])

def Controller.moves (controller : Controller) : List Move → Controller × List Notice
  | [] => (controller, [])
  | move :: rest =>
    let (after, notices) := controller.move move
    let (last, later) := after.moves rest
    (last, notices ++ later)

/-- What there is to tell of a pass. -/
def Ticket.signal (ticket : Ticket) : Signal :=
  match ticket.run with
  | .ok pass => .highlighted pass
  | .error fault => .failed fault.kind (fault.message?.getD "")

/-- The generations that wait in the queue. -/
def Controller.waiting (controller : Controller) : List Nat :=
  controller.queue.map (·.ticket.generation)

/-- A notice tells of a current pass what there is to tell of it. -/
structure Notice.Sound (notice : Notice) : Prop where
  current : notice.ticket.generation = notice.generation
  signal : notice.signal = notice.ticket.signal

/-- No generation waits twice or after it was told of, and only a stale pass is cancelled. -/
structure Controller.Sound (controller : Controller) (told : List Notice) : Prop where
  waiting : ∀ generation ∈ controller.waiting, generation ≤ controller.session.generation
  apart : controller.waiting.Nodup
  cancelled : ∀ worker ∈ controller.queue, worker.cancelled = true →
    worker.ticket.generation < controller.session.generation
  sound : ∀ notice ∈ told, notice.Sound
  past : ∀ notice ∈ told, notice.generation ≤ controller.session.generation ∧
    notice.generation ∉ controller.waiting
  rising : told.Pairwise fun earlier later => earlier.generation < later.generation

/-- The ticket is the latest one; it waits, or it was told of. -/
structure Controller.Owes (controller : Controller) (told : List Notice) (ticket : Ticket) : Prop where
  current : ticket.generation = controller.session.generation
  pending : ⟨ticket, false⟩ ∈ controller.queue ∨ ∃ notice ∈ told, notice.ticket = ticket

variable {controller after : Controller} {told : List Notice}

theorem Ticket.signal_of_ok {ticket : Ticket} {pass : Pass} (made : ticket.run = .ok pass) :
    ticket.signal = .highlighted pass := by
  rw [signal, made]

theorem Ticket.eq_of_signal {ticket : Ticket} {pass : Pass} (told : ticket.signal = .highlighted pass) :
    pass.ticket = ticket := by
  unfold signal at told
  split at told
  · rename_i made
    cases told
    exact (Ticket.run_eq_ok made).1
  · cases told

/-- Handing a pass over tells of it exactly if it is current. -/
theorem Controller.deliver_spec (controller : Controller) (pass : Pass) :
    (controller.deliver pass).1.queue = controller.queue ∧
    (controller.deliver pass).1.session.generation = controller.session.generation ∧
    (controller.deliver pass).2 = (controller.session.isCurrent pass.ticket,
      if controller.session.isCurrent pass.ticket then [.highlighted pass] else []) := by
  obtain ⟨cache, frame⟩ := controller.session.accept_frame pass
  have answer : (controller.session.accept pass).2 = controller.session.isCurrent pass.ticket := rfl
  unfold deliver
  cases current : controller.session.isCurrent pass.ticket with
  | true => simp only [answer, current, if_true, frame, and_self]
  | false => simp only [answer, current, Bool.false_eq_true, if_false, frame, and_self]

/-- A worker tells of its pass exactly if that is current, as long as only stale ones are cancelled. -/
theorem Controller.runWorker_spec (controller : Controller) {worker : Worker}
    (stale : worker.cancelled = true → worker.ticket.generation < controller.session.generation) :
    (controller.runWorker worker).1.queue = controller.queue ∧
    (controller.runWorker worker).1.session.generation = controller.session.generation ∧
    (controller.runWorker worker).2 =
      if controller.session.isCurrent worker.ticket then [worker.ticket.signal] else [] := by
  unfold runWorker
  cases made : worker.ticket.run with
  | error fault =>
    have signal : worker.ticket.signal = .failed fault.kind (fault.message?.getD "") := by
      rw [Ticket.signal, made]
    rw [signal]
    unfold reject
    dsimp only
    split
    · exact ⟨rfl, rfl, rfl⟩
    · exact ⟨rfl, rfl, rfl⟩
  | ok pass =>
    rw [Ticket.signal_of_ok made]
    have ticket := (Ticket.run_eq_ok made).1
    dsimp only
    split
    · rename_i dropped
      have old : controller.session.isCurrent worker.ticket = false :=
        beq_eq_false_iff_ne.mpr (stale dropped).ne
      rw [old]
      exact ⟨rfl, rfl, rfl⟩
    · obtain ⟨queue, generation, signals⟩ := controller.deliver_spec pass
      rw [ticket] at signals
      exact ⟨queue, generation, congrArg Prod.snd signals⟩

/-- A pass that runs at once is current, so that its result is told of; its fault is raised. -/
theorem Controller.runNow_spec (controller : Controller) :
    let ticket := (controller.session.requestPass none).2
    controller.runNow.1.queue = controller.queue ∧
    controller.runNow.1.session.generation = controller.session.generation + 1 ∧
    controller.runNow.2 = match ticket.run with
      | .ok pass => (.ok true, [.highlighted pass])
      | .error fault => (.error fault, []) := by
  intro ticket
  cases made : ticket.run with
  | error fault =>
    unfold runNow
    dsimp only
    rw [made]
    exact ⟨rfl, rfl, rfl⟩
  | ok pass =>
    obtain ⟨queue, generation, told⟩ :=
      Controller.deliver_spec { controller with session := (controller.session.requestPass none).1 } pass
    have current : (controller.session.requestPass none).1.isCurrent pass.ticket = true := by
      rw [(Ticket.run_eq_ok made).1]
      exact beq_self_eq_true _
    rw [current] at told
    unfold runNow
    dsimp only
    rw [made]
    exact ⟨queue, generation, congrArg (fun told => (Except.ok told.1, told.2)) told⟩

theorem Controller.Sound.of_eq (sound : controller.Sound told) (queue : after.queue = controller.queue)
    (generation : after.session.generation = controller.session.generation) : after.Sound told := by
  have waiting : after.waiting = controller.waiting := congrArg (List.map _) queue
  refine ⟨?_, waiting ▸ sound.apart, ?_, sound.sound, ?_, sound.rising⟩
  · rw [waiting, generation]
    exact sound.waiting
  · rw [queue, generation]
    exact sound.cancelled
  · rw [waiting, generation]
    exact sound.past

/-- When a pass is asked for, all that waits or was told of is stale. -/
theorem Controller.Sound.request (sound : controller.Sound told) (base : Option (List Span)) :
    Controller.Sound { controller with session := (controller.session.requestPass base).1 } told :=
  { waiting := fun generation waits => Nat.le_succ_of_le (sound.waiting generation waits)
    apart := sound.apart
    cancelled := fun worker queued cancelled => Nat.lt_succ_of_lt (sound.cancelled worker queued cancelled)
    sound := sound.sound
    past := fun notice member => ⟨Nat.le_succ_of_le (sound.past notice member).1, (sound.past notice member).2⟩
    rising := sound.rising }

/-- A pass that is current, that does not wait, and that was not told of can be told of. -/
theorem Controller.Sound.tell (sound : controller.Sound told) {notice : Notice} (tells : notice.Sound)
    (current : notice.generation = controller.session.generation) (left : notice.generation ∉ controller.waiting)
    (fresh : ∀ earlier ∈ told, earlier.generation < notice.generation) : controller.Sound (told ++ [notice]) where
  waiting := sound.waiting
  apart := sound.apart
  cancelled := sound.cancelled
  sound := by
    intro other member
    rcases List.mem_append.mp member with old | new
    · exact sound.sound other old
    · rw [List.mem_singleton.mp new]
      exact tells
  past := by
    intro other member
    rcases List.mem_append.mp member with old | new
    · exact sound.past other old
    · rw [List.mem_singleton.mp new]
      exact ⟨current.le, left⟩
  rising := by
    refine List.pairwise_append.mpr ⟨sound.rising, List.pairwise_singleton _ _, fun earlier old later new => ?_⟩
    rw [List.mem_singleton.mp new]
    exact fresh earlier old

theorem Controller.waiting_cancelActive (controller : Controller) :
    controller.cancelActive.waiting = controller.waiting := by
  unfold cancelActive waiting
  rw [List.map_map]
  refine List.map_congr_left fun worker _ => ?_
  simp only [Function.comp_apply]
  split <;> rfl

theorem Controller.waiting_submit (controller : Controller) :
    controller.submit.1.waiting = controller.waiting ++ [controller.session.generation + 1] := by
  rw [← controller.waiting_cancelActive]
  exact List.map_append

theorem Controller.Sound.submit (sound : controller.Sound told) : controller.submit.1.Sound told where
  waiting := by
    intro generation waits
    rw [controller.waiting_submit] at waits
    rcases List.mem_append.mp waits with old | new
    · exact Nat.le_succ_of_le (sound.waiting generation old)
    · exact (List.mem_singleton.mp new).le
  apart := by
    rw [controller.waiting_submit]
    refine List.nodup_append'.mpr ⟨sound.apart, List.nodup_singleton _, ?_⟩
    rintro generation old new
    have waits := sound.waiting generation old
    have latest := List.mem_singleton.mp new
    omega
  cancelled := by
    intro worker queued cancelled
    rcases List.mem_append.mp queued with old | new
    · have waits := List.mem_map_of_mem (f := (·.ticket.generation)) old
      rw [← Controller.waiting, controller.waiting_cancelActive] at waits
      exact Nat.lt_succ_of_le (sound.waiting _ waits)
    · rw [List.mem_singleton.mp new] at cancelled
      cases cancelled
  sound := sound.sound
  past := by
    intro notice member
    obtain ⟨bound, left⟩ := sound.past notice member
    refine ⟨Nat.le_succ_of_le bound, ?_⟩
    rw [controller.waiting_submit]
    intro waits
    rcases List.mem_append.mp waits with old | new
    · exact left old
    · have latest := List.mem_singleton.mp new
      omega
  rising := sound.rising

/-- A controller with a queue that one of its workers has left. -/
def Controller.without (controller : Controller) (place : Nat) : Controller :=
  { controller with queue := controller.queue.eraseIdx place }

theorem Controller.Sound.without (sound : controller.Sound told) (place : Nat) :
    (controller.without place).Sound told := by
  have kept : ((controller.without place).waiting).Sublist controller.waiting :=
    (List.eraseIdx_sublist ..).map _
  exact
    { waiting := fun generation waits => sound.waiting generation (kept.subset waits)
      apart := sound.apart.sublist kept
      cancelled := fun worker queued => sound.cancelled worker (List.mem_of_mem_eraseIdx queued)
      sound := sound.sound
      past := fun notice member =>
        ⟨(sound.past notice member).1, fun waits => (sound.past notice member).2 (kept.subset waits)⟩
      rising := sound.rising }

/-- A worker that leaves the queue was the only one of its generation. -/
theorem Controller.Sound.not_mem_without (sound : controller.Sound told) {place : Nat} {worker : Worker}
    (queued : controller.queue[place]? = some worker) :
    worker.ticket.generation ∉ (controller.without place).waiting := by
  have waits : controller.waiting[place]? = some worker.ticket.generation := by
    unfold Controller.waiting
    rw [List.getElem?_map, queued]
    rfl
  obtain ⟨inside, same⟩ := List.getElem?_eq_some_iff.mp waits
  have left : (controller.without place).waiting = controller.waiting.erase controller.waiting[place] := by
    rw [sound.apart.erase_getElem place inside]
    exact (List.eraseIdx_map ..).symm
  rw [left, ← same]
  exact sound.apart.not_mem_erase

theorem Controller.move_runQueued_of_none {place : Nat} (empty : controller.queue[place]? = none) :
    controller.move (.runQueued place) = (controller, []) := by
  unfold move
  dsimp only
  rw [empty]

theorem Controller.move_runQueued_of_some {place : Nat} {worker : Worker}
    (queued : controller.queue[place]? = some worker) :
    let ran := (controller.without place).runWorker worker
    controller.move (.runQueued place) = (ran.1, ran.1.notices worker.ticket ran.2) := by
  unfold move runQueued
  dsimp only
  rw [queued]
  rfl

/-- A worker that runs leaves the queue, and it is told of exactly if it is current. -/
theorem Controller.Sound.move_runQueued_spec (sound : controller.Sound told) {place : Nat} {worker : Worker}
    (queued : controller.queue[place]? = some worker) :
    (controller.move (.runQueued place)).1.queue = controller.queue.eraseIdx place ∧
    (controller.move (.runQueued place)).1.session.generation = controller.session.generation ∧
    (controller.move (.runQueued place)).2 = if controller.session.isCurrent worker.ticket then
      [⟨worker.ticket, worker.ticket.signal, controller.session.generation⟩] else [] := by
  obtain ⟨queue, generation, signals⟩ :=
    (controller.without place).runWorker_spec (sound.cancelled worker (List.mem_of_getElem? queued))
  rw [Controller.move_runQueued_of_some queued]
  refine ⟨queue, generation, ?_⟩
  dsimp only
  rw [Controller.notices, signals, generation, apply_ite (List.map _)]
  rfl

theorem Controller.Sound.move_runQueued (sound : controller.Sound told) (place : Nat) :
    (controller.move (.runQueued place)).1.Sound (told ++ (controller.move (.runQueued place)).2) := by
  cases queued : controller.queue[place]? with
  | none =>
    rw [Controller.move_runQueued_of_none queued, List.append_nil]
    exact sound
  | some worker =>
    obtain ⟨queue, generation, notices⟩ := sound.move_runQueued_spec queued
    refine Controller.Sound.of_eq (?_ : (controller.without place).Sound _) queue generation
    rw [notices]
    split
    · rename_i current
      have generations := beq_iff_eq.mp current
      have left := sound.not_mem_without queued
      refine (sound.without place).tell ⟨generations, rfl⟩ rfl (generations ▸ left) fun earlier member => ?_
      obtain ⟨bound, past⟩ := sound.past earlier member
      refine lt_of_le_of_ne bound fun same => past ?_
      rw [same, ← generations]
      exact List.mem_map_of_mem (List.mem_of_getElem? queued)
    · rw [List.append_nil]
      exact sound.without place

theorem Controller.Sound.move_runNow (sound : controller.Sound told) :
    (controller.move .runNow).1.Sound (told ++ (controller.move .runNow).2) := by
  obtain ⟨queue, generation, outcome⟩ := controller.runNow_spec
  have notices : (controller.move .runNow).2 =
      controller.runNow.1.notices (controller.session.requestPass none).2 controller.runNow.2.2 := rfl
  have asked := sound.request none
  refine Controller.Sound.of_eq
    (?_ : Controller.Sound { controller with session := (controller.session.requestPass none).1 } _) queue generation
  rw [notices, Controller.notices, outcome, generation]
  cases made : (controller.session.requestPass none).2.run with
  | error fault =>
    rw [List.map_nil, List.append_nil]
    exact asked
  | ok pass =>
    refine asked.tell ⟨rfl, (Ticket.signal_of_ok made).symm⟩ rfl (fun waits => ?_) fun earlier member => ?_
    · exact absurd (sound.waiting _ waits) (Nat.not_succ_le_self _)
    · exact Nat.lt_succ_of_le (sound.past earlier member).1

/-- Whatever is done with a controller, it stays sound. -/
theorem Controller.Sound.move (sound : controller.Sound told) (move : Move) :
    (controller.move move).1.Sound (told ++ (controller.move move).2) := by
  cases move with
  | submit =>
    rw [Controller.move, List.append_nil]
    exact sound.submit
  | runNow => exact sound.move_runNow
  | runQueued place => exact sound.move_runQueued place
  | event event =>
    rw [Controller.move, List.append_nil]
    exact sound.of_eq rfl (controller.session.generation_step event)
  | request base =>
    rw [Controller.move, List.append_nil]
    exact sound.request base

theorem Controller.Sound.moves (sound : controller.Sound told) (moves : List Move) :
    (controller.moves moves).1.Sound (told ++ (controller.moves moves).2) := by
  induction moves generalizing controller told with
  | nil =>
    rw [Controller.moves, List.append_nil]
    exact sound
  | cons move rest ih =>
    have next := ih (sound.move move)
    rw [List.append_assoc] at next
    exact next

/-- A submitted pass waits. -/
theorem Controller.owes_submit (controller : Controller) (told : List Notice) :
    controller.submit.1.Owes told controller.submit.2 :=
  ⟨rfl, Or.inl (List.mem_append_right _ (List.mem_singleton_self _))⟩

/-- A pass that is not made stale is told of when it has run. -/
theorem Controller.Owes.move {ticket : Ticket} (sound : controller.Sound told) (owes : controller.Owes told ticket)
    {move : Move} (silent : move.asks = false) :
    (controller.move move).1.Owes (told ++ (controller.move move).2) ticket := by
  cases move with
  | event event =>
    rw [Controller.move, List.append_nil]
    exact ⟨owes.current.trans (controller.session.generation_step event).symm, owes.pending⟩
  | runQueued place =>
    cases queued : controller.queue[place]? with
    | none =>
      rw [Controller.move_runQueued_of_none queued, List.append_nil]
      exact owes
    | some worker =>
      obtain ⟨queue, generation, notices⟩ := sound.move_runQueued_spec queued
      refine ⟨owes.current.trans generation.symm, ?_⟩
      rcases owes.pending with waits | ⟨notice, member, tells⟩
      · rw [queue, notices]
        by_cases mine : worker.ticket = ticket
        · have current : controller.session.isCurrent worker.ticket = true :=
            beq_iff_eq.mpr (mine ▸ owes.current)
          rw [if_pos current]
          exact Or.inr ⟨_, List.mem_append_right _ (List.mem_singleton_self _), mine⟩
        · obtain ⟨other, found⟩ := List.mem_iff_getElem?.mp waits
          refine Or.inl (List.mem_eraseIdx_iff_getElem?.mpr ⟨other, ?_, found⟩)
          rintro rfl
          rw [queued] at found
          exact mine (congrArg Worker.ticket (Option.some.inj found))
      · exact Or.inr ⟨notice, List.mem_append_left _ member, tells⟩
  | _ => cases silent

theorem Controller.Owes.moves {ticket : Ticket} (sound : controller.Sound told) (owes : controller.Owes told ticket)
    {moves : List Move} (silent : ∀ move ∈ moves, move.asks = false) :
    (controller.moves moves).1.Owes (told ++ (controller.moves moves).2) ticket := by
  induction moves generalizing controller told with
  | nil =>
    rw [Controller.moves, List.append_nil]
    exact owes
  | cons move rest ih =>
    have here := owes.move sound (silent move (List.mem_cons_self ..))
    have next := ih (sound.move move) here fun later member => silent later (List.mem_cons_of_mem _ member)
    rw [List.append_assoc] at next
    exact next

theorem Controller.moves_append (controller : Controller) (before after : List Move) :
    controller.moves (before ++ after) =
      (((controller.moves before).1.moves after).1,
        (controller.moves before).2 ++ ((controller.moves before).1.moves after).2) := by
  induction before generalizing controller with
  | nil => rfl
  | cons move rest ih =>
    simp only [List.cons_append, moves, ih, List.append_assoc]

/-- Of a ticket that is owed, and no longer waits, exactly one notice was given. -/
theorem Controller.Owes.filter_eq {ticket : Ticket} (sound : controller.Sound told)
    (owes : controller.Owes told ticket) (drained : controller.queue = []) :
    ∃ notice, told.filter (fun notice => notice.generation == controller.session.generation) = [notice] ∧
      notice.ticket = ticket := by
  rcases owes.pending with waits | ⟨notice, member, tells⟩
  · rw [drained] at waits
    cases waits
  · have current : notice.generation = controller.session.generation := by
      rw [← (sound.sound notice member).current, tells, owes.current]
    rw [← current]
    exact ⟨notice, filter_key_eq Notice.generation sound.rising member, tells⟩

/-- Whatever is done with a controller and in whichever order its workers run: only current passes are told of, each one
at most once and in the order of the requests; and when the queue is empty and the latest pass was submitted, exactly
this one has been told of under the current generation. -/
theorem Controller.notices_moves (session : Session) (moves : List Move) :
    let (controller, notices) := Controller.moves { session := session } moves
    (∀ notice ∈ notices, notice.ticket.generation = notice.generation ∧ notice.signal = notice.ticket.signal ∧
      ∀ pass, notice.signal = .highlighted pass → pass.ticket = notice.ticket) ∧
    (notices.Pairwise fun earlier later => earlier.generation < later.generation) ∧
    ∀ before after, moves = before ++ .submit :: after → (∀ move ∈ after, move.asks = false) →
      controller.queue = [] →
      ∃ notice, notices.filter (fun notice => notice.generation == controller.session.generation) = [notice] ∧
        notice.ticket = (Controller.moves { session := session } before).1.submit.2 := by
  have started : Controller.Sound { session := session } [] :=
    { waiting := fun generation none => absurd none List.not_mem_nil
      apart := List.nodup_nil
      cancelled := fun worker none => absurd none List.not_mem_nil
      sound := fun notice none => absurd none List.not_mem_nil
      past := fun notice none => absurd none List.not_mem_nil
      rising := List.Pairwise.nil }
  have sound := started.moves moves
  rw [List.nil_append] at sound
  refine ⟨fun notice member => ?_, sound.rising, ?_⟩
  · obtain ⟨current, signal⟩ := sound.sound notice member
    exact ⟨current, signal, fun pass highlighted => Ticket.eq_of_signal (signal ▸ highlighted)⟩
  · rintro before after rfl silent drained
    have asked := (started.moves before).move .submit
    have owes := (Controller.owes_submit _ _).moves asked silent
    have run := Controller.moves_append { session := session } before (.submit :: after)
    rw [run] at sound drained ⊢
    rw [List.append_assoc, List.nil_append] at owes
    exact owes.filter_eq sound drained

/-- What follows a first submission that is run at once: a second one, and then its worker before the older one. -/
def overtakingMoves : List Move :=
  [.event .refreshClock, .runQueued 1, .runQueued 0]

/-- The newest submission is told of once, and the worker that it overtook says nothing. -/
theorem Controller.notices_moves_overtaking :
    ∃ session, Session.ofConfig { clock := ⟨0⟩ } = .ok session ∧
      let (controller, notices) :=
        Controller.moves { session := session } ([.submit, .runNow] ++ .submit :: overtakingMoves)
      controller.queue = [] ∧ notices.map (·.generation) = [2, 3] ∧
      ∃ notice, notices.filter (fun notice => notice.generation == controller.session.generation) = [notice] ∧
        notice.ticket = (Controller.moves { session := session } [.submit, .runNow]).1.submit.2 := by
  have seen : ((Session.ofConfig { clock := ⟨0⟩ }).toOption.any fun session =>
      let (controller, notices) :=
        Controller.moves { session := session } ([.submit, .runNow] ++ .submit :: overtakingMoves)
      decide (controller.queue = [] ∧ notices.map (·.generation) = [2, 3])) = true := by
    decide +kernel
  obtain ⟨session, built, drained⟩ := exists_ok_of_any seen
  obtain ⟨empty, generations⟩ := of_decide_eq_true drained
  have newest := (Controller.notices_moves session ([.submit, .runNow] ++ .submit :: overtakingMoves)).2.2
  exact ⟨session, built, empty, generations, newest _ overtakingMoves rfl (by decide) empty⟩

/-- The work of a worker does not depend on what waits besides it. -/
theorem Controller.runWorker_queue (controller : Controller) (queue : List Worker) (worker : Worker) :
    Controller.runWorker { controller with queue := queue } worker =
      ({ (controller.runWorker worker).1 with queue := queue }, (controller.runWorker worker).2) := by
  unfold runWorker
  cases worker.ticket.run with
  | error fault =>
    unfold reject
    dsimp only
    split <;> rfl
  | ok pass =>
    dsimp only
    split
    · rfl
    · unfold deliver
      dsimp only
      split <;> rfl

/-- Running all queued workers in the order of submission is one of the orders. -/
theorem Controller.drain_eq_moves (controller : Controller) :
    let (after, notices) := controller.moves (List.replicate controller.queue.length (.runQueued 0))
    controller.drain = (after, notices.map (·.signal)) := by
  unfold drain
  generalize waits : controller.queue = queue
  induction queue generalizing controller with
  | nil =>
    obtain ⟨session, active, queue⟩ := controller
    cases waits
    rfl
  | cons worker rest ih =>
    have queued : controller.queue[0]? = some worker := by
      rw [waits]
      rfl
    have left : controller.without 0 = { controller with queue := rest } := by
      unfold without
      rw [waits]
      rfl
    have moved := Controller.move_runQueued_of_some queued
    rw [left, controller.runWorker_queue] at moved
    have next := ih { (controller.runWorker worker).1 with queue := rest } rfl
    rw [List.length_cons, List.replicate_succ]
    unfold moves runAll
    rw [controller.runWorker_queue, moved]
    dsimp only at next ⊢
    rw [next, List.map_append, Controller.signals_notices]

end Marginalia
