import Marginalia.Proofs.FrozenTickets

namespace Marginalia

variable {session : Session} {desk : Desk}

theorem Desk.generation_use (desk : Desk) (use : Use) :
    (desk.use use).session.generation = desk.session.generation + use.asks.toNat := by
  rcases use.kinds with ⟨event, rfl⟩ | ⟨registry, rfl⟩ | ⟨eventless, unstyled⟩
  · exact desk.session.generation_step event
  · rfl
  · obtain ⟨cache, frame⟩ := desk.use_frame eventless unstyled
    rw [frame]

/-- The generation counts the passes that were asked for. -/
theorem Desk.generation_run (desk : Desk) (uses : List Use) :
    (desk.run uses).session.generation = desk.session.generation + uses.countP Use.asks := by
  induction uses generalizing desk with
  | nil => rfl
  | cons use rest ih =>
    have counted : (use :: rest).countP Use.asks = use.asks.toNat + rest.countP Use.asks := by
      cases asks : use.asks <;> simp [asks, Nat.add_comm]
    change ((desk.use use).run rest).session.generation = _
    rw [ih, desk.generation_use, counted, Nat.add_assoc]

/-- What a viewer shows changes with a content only. -/
theorem Desk.shown_use (desk : Desk) {use : Use} (contentless : use.content? = none) :
    (desk.use use).session.version = desk.session.version ∧
      (desk.use use).session.source.content = desk.session.source.content := by
  rcases use.kinds with ⟨event, rfl⟩ | ⟨registry, rfl⟩ | ⟨eventless, unstyled⟩
  · have continued := desk.session.continues_step contentless
    exact ⟨continued.version, continued.content⟩
  · exact ⟨rfl, rfl⟩
  · obtain ⟨cache, frame⟩ := desk.use_frame eventless unstyled
    rw [frame]
    exact ⟨rfl, rfl⟩

theorem Desk.shown_run (desk : Desk) {uses : List Use} (contentless : ∀ use ∈ uses, use.content? = none) :
    (desk.run uses).session.version = desk.session.version ∧
      (desk.run uses).session.source.content = desk.session.source.content := by
  induction uses generalizing desk with
  | nil => exact ⟨rfl, rfl⟩
  | cons use rest ih =>
    obtain ⟨contentless, later⟩ := List.forall_mem_cons.mp contentless
    obtain ⟨version, content⟩ := desk.shown_use contentless
    obtain ⟨laterVersion, laterContent⟩ := ih (desk.use use) later
    exact ⟨laterVersion.trans version, laterContent.trans content⟩

theorem Use.asks_eq_true_iff {use : Use} : use.asks = true ↔ ∃ base, use = .request base := by
  cases use <;> simp [asks]

/-- A ticket is current until another pass is asked for. -/
theorem Desk.isCurrent_run (desk : Desk) (base : Option (List Span)) (later : List Use) :
    ((desk.request base).run later).session.isCurrent (desk.session.requestPass base).2 = true ↔
      ∀ base, .request base ∉ later := by
  have counted : ((desk.request base).run later).session.generation =
      (desk.session.requestPass base).2.generation + later.countP Use.asks := Desk.generation_run ..
  rw [Session.isCurrent, beq_iff_eq, counted, Nat.left_eq_add, List.countP_eq_zero]
  constructor
  · intro silent base member
    exact silent _ member rfl
  · intro silent use member asks
    obtain ⟨base, rfl⟩ := Use.asks_eq_true_iff.mp asks
    exact silent base member

/-- Versions of two shown contents differ as the contents do. -/
theorem Ticket.Anchored.version_eq_iff {contents : List Content} {ticket : Ticket} (shown : ticket.Anchored contents)
    (anchored : session.Anchored contents) (apart : FingerprintsApart contents) :
    ticket.version = session.version ↔ ticket.source.content = session.source.content := by
  rw [shown.version, anchored.version]
  exact ⟨apart _ shown.shown _ anchored.shown, congrArg fingerprint⟩

/-- However the viewer goes on, a pass is accepted exactly if no other one was asked for after it. Its version is the
current one as long as no content comes; when contents come, it is exactly if the viewer shows the content of the
request. -/
theorem Desk.accept_run {config : SessionConfig} (built : Session.ofConfig config = .ok session) (uses : List Use)
    (base : Option (List Span)) (later : List Use) :
    let desk := Desk.run { session := session } uses
    let ticket := (desk.session.requestPass base).2
    let viewer := ((desk.request base).run later).session
    ∀ pass, ticket.run = .ok pass → pass.ticket = ticket ∧
      ((viewer.accept pass).2 = true ↔ ∀ base, .request base ∉ later) ∧
      ((∀ use ∈ later, use.content? = none) →
        ticket.version = viewer.version ∧ ticket.source.content = viewer.source.content) ∧
      (Desk.takesAll { session := session } (uses ++ .request base :: later) = true →
        FingerprintsApart (usedContents (uses ++ .request base :: later)) →
        (ticket.version = viewer.version ↔ ticket.source.content = viewer.source.content)) := by
  intro desk ticket viewer pass made
  obtain ⟨same, _⟩ := Ticket.run_eq_ok made
  refine ⟨same, ?_, fun contentless => ?_, fun taken apart => ?_⟩
  · rw [Session.accept, same]
    exact desk.isCurrent_run base later
  · obtain ⟨version, content⟩ := (desk.request base).shown_run contentless
    exact ⟨version.symm, content.symm⟩
  · have runs : Desk.run { session := session } (uses ++ .request base :: later) = (desk.request base).run later :=
      List.foldl_append
    have anchored := Desk.anchored_run built taken
    rw [runs] at anchored
    have given := List.mem_of_getElem? (desk.getElem?_tickets_request base later)
    exact (anchored.tickets _ given).version_eq_iff anchored.session apart

def shownUses : List Use :=
  [.event (.setContent "a".toList (some "python"))]

/-- The pass is handed back after the filetype and a family changed, and then once more. -/
def quietUses : List Use :=
  [.event (.setFiletype "css"), .event (.toggleFamily .bracket), .run 0, .accept 0]

theorem Desk.accept_run_quiet :
    ∃ session, Session.ofConfig { clock := ⟨0⟩ } = .ok session ∧
      let desk := Desk.run { session := session } shownUses
      let viewer := ((desk.request none).run quietUses).session
      ∃ pass, (desk.session.requestPass none).2.run = .ok pass ∧ (viewer.accept pass).2 = true ∧
        pass.ticket.version = viewer.version ∧ pass.ticket.source.content = viewer.source.content := by
  have seen : ((Session.ofConfig { clock := ⟨0⟩ }).toOption.any fun session =>
      let desk := Desk.run { session := session } shownUses
      Desk.takesAll { session := session } (shownUses ++ .request none :: quietUses) &&
        (desk.session.requestPass none).2.run.toOption.any fun _ => true) = true := by decide +kernel
  have apart : FingerprintsApart (usedContents (shownUses ++ .request none :: quietUses)) := by
    unfold FingerprintsApart
    decide +kernel
  obtain ⟨session, built, seen⟩ := Session.exists_of_any seen
  obtain ⟨taken, runs⟩ := Bool.and_eq_true_iff.mp seen
  obtain ⟨pass, made, _⟩ := exists_ok_of_any runs
  obtain ⟨same, accepted, quiet, returns⟩ := Desk.accept_run built shownUses none quietUses pass made
  obtain ⟨version, _⟩ := quiet (by decide)
  refine ⟨session, built, pass, made, accepted.mpr (by simp [quietUses]), ?_⟩
  rw [same]
  exact ⟨version, (returns taken apart).mp version⟩

/-- A pass over a content is accepted although another content came after it. -/
theorem Desk.accept_run_replaced :
    ∃ session, Session.ofConfig { clock := ⟨0⟩ } = .ok session ∧
      let desk := Desk.run { session := session } shownUses
      let viewer := ((desk.request none).run [.event (.setContent "b".toList none), .run 0]).session
      ∃ pass, (desk.session.requestPass none).2.run = .ok pass ∧ (viewer.accept pass).2 = true ∧
        pass.ticket.version ≠ viewer.version := by
  have seen : ((Session.ofConfig { clock := ⟨0⟩ }).toOption.any fun session =>
      let desk := Desk.run { session := session } shownUses
      let viewer := ((desk.request none).run [.event (.setContent "b".toList none), .run 0]).session
      (desk.session.requestPass none).2.run.toOption.any fun pass =>
        decide ((viewer.accept pass).2 = true ∧ pass.ticket.version ≠ viewer.version)) = true := by decide +kernel
  obtain ⟨session, built, runs⟩ := Session.exists_of_any seen
  obtain ⟨pass, made, accepted⟩ := exists_ok_of_any runs
  exact ⟨session, built, pass, made, of_decide_eq_true accepted⟩

end Marginalia
