import Marginalia.Session.Highlight

namespace Marginalia

/-- A pass that waits for its turn. A cancelled one still runs, and tells nothing of its result. -/
structure Worker where
  ticket : Ticket
  cancelled : Bool := false
deriving DecidableEq, Repr

inductive Signal
  | highlighted (pass : Pass)
  | failed (kind text : String)
deriving DecidableEq, Repr

/-- Runs passes of one viewer in the background and passes on only results that are still current. The
active pass is known by its generation. -/
structure Controller where
  session : Session
  active : Option Nat := none
  queue : List Worker := []
deriving DecidableEq, Repr

/-- Cancels the active pass, wherever it waits. -/
def Controller.cancelActive (controller : Controller) : Controller :=
  { controller with
      queue := controller.queue.map fun worker =>
        if controller.active = some worker.ticket.generation then { worker with cancelled := true } else worker }

/-- Queues a pass for the current state. -/
def Controller.submit (controller : Controller) : Controller × Ticket :=
  let (session, ticket) := controller.session.requestPass none
  let controller := controller.cancelActive
  ({ session := session, active := some ticket.generation, queue := controller.queue ++ [⟨ticket, false⟩] }, ticket)

/-- Takes a finished pass, and tells of it if it is current. -/
def Controller.deliver (controller : Controller) (pass : Pass) : Controller × Bool × List Signal :=
  let (session, accepted) := controller.session.accept pass
  if accepted then ({ controller with session := session, active := none }, true, [.highlighted pass])
  else ({ controller with session := session }, false, [])

/-- Tells of a pass that failed, if it is current. -/
def Controller.reject (controller : Controller) (ticket : Ticket) (kind text : String) :
    Controller × List Signal :=
  if controller.session.isCurrent ticket then ({ controller with active := none }, [.failed kind text])
  else (controller, [])

/-- Does the work of a worker that has left the queue. -/
def Controller.runWorker (controller : Controller) (worker : Worker) : Controller × List Signal :=
  match worker.ticket.run with
  | .error fault => controller.reject worker.ticket fault.kind (fault.message?.getD "")
  | .ok pass =>
    if worker.cancelled then (controller, [])
    else
      let (controller, _, signals) := controller.deliver pass
      (controller, signals)

def Controller.runQueued (controller : Controller) (place : Nat) : Controller × List Signal :=
  match controller.queue[place]? with
  | some worker => Controller.runWorker { controller with queue := controller.queue.eraseIdx place } worker
  | none => (controller, [])

def Controller.runAll (controller : Controller) : List Worker → Controller × List Signal
  | [] => (controller, [])
  | worker :: rest =>
    let (controller, signals) := controller.runWorker worker
    let (controller, later) := controller.runAll rest
    (controller, signals ++ later)

/-- Runs all queued workers in the order of submission. -/
def Controller.drain (controller : Controller) : Controller × List Signal :=
  Controller.runAll { controller with queue := [] } controller.queue

/-- Runs a pass at once. Answers whether it was delivered. -/
def Controller.runNow (controller : Controller) : Controller × Except Fault Bool × List Signal :=
  let (session, ticket) := controller.session.requestPass none
  let controller := { controller with session := session }
  match ticket.run with
  | .error fault => (controller, .error fault, [])
  | .ok pass =>
    let (controller, delivered, signals) := controller.deliver pass
    (controller, .ok delivered, signals)

/-- Runs a new pass that only reports its result, and nothing when it was cancelled before. -/
def Controller.runDetached (controller : Controller) (cancelled : Bool) : Controller × List Signal :=
  let (session, ticket) := controller.session.requestPass none
  let controller := { controller with session := session }
  match ticket.run with
  | .error _ => (controller, [])
  | .ok pass =>
    if cancelled then (controller, [])
    else
      let (controller, _, signals) := controller.deliver pass
      (controller, signals)

end Marginalia
