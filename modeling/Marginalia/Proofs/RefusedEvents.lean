import Marginalia.Proofs.AttributionStyles

namespace Marginalia

/-- What is left of an event that meets a fault: the session as it was, or, where records bring an author whose id is
known with another style, new styles of the authors in front of that one. -/
inductive Session.Leaves (session : Session) (event : Event) (fault : Fault) (after : Session) : Prop
  | whole (kept : after = session)
  | upTo {records front name proposed rest known} (brought : event = .setAttribution records)
      (split : recordStyles session.tints records = front ++ (name, proposed) :: rest)
      (found : session.registry.get? name = some known) (different : known ≠ proposed)
      (fault : fault = .styleConflict name known proposed) (new : session.registry.unknown front ≠ [])
      (kept : after = { session with registry := session.registry.withPermanent (session.registry.unknown front) })

variable {sheet : Sheet} {config : SessionConfig} {given : List (List Record)} {session : Session}
  {records : List Record} {event : Event} {fault : Fault}

theorem Session.leaves_setAttribution (met : (session.setAttribution records).2 = .error fault) :
    session.Leaves (.setAttribution records) fault (session.setAttribution records).1 := by
  cases session.attributes_setAttribution records with
  | broken _ kept => exact .whole kept
  | refused _ kept => exact .whole kept
  | @conflict front _ _ _ _ split _ found different kept conflict =>
    by_cases new : session.registry.unknown front = []
    · rw [new, Registry.withPermanent, List.append_nil] at kept
      exact .whole kept
    · exact .upTo rfl split found different (Except.error.inj (met.symm.trans conflict)) new kept
  | installed _ _ _ installed => cases met.symm.trans installed

/-- A content meets no fault, records do as the styles of their authors do, and every other event is refused whole. -/
theorem Session.Dressed.leaves_step (dressed : session.Dressed sheet config given)
    (met : (session.step event).2 = .error fault) : session.Leaves event fault (session.step event).1 := by
  cases event with
  | setContent content filetype =>
    obtain ⟨after, changed, taken, _⟩ := dressed.setContent content filetype
    rw [Session.step, taken] at met
    cases met
  | setAttribution records => exact Session.leaves_setAttribution met
  | _ => exact .whole ((Session.proceeds_step dressed.selection rfl rfl).kept met)

/-- However a viewer with a shipped sheet was used, an event that meets a fault leaves it as it was, except that records
may leave new styles of the authors in front of the one whose id is known with another style. -/
theorem Desk.step_refused (shipped : config.styles = sheet.styles) (built : Session.ofConfig config = .ok session)
    {uses : List Use} (unstyled : ∀ registry, Use.restyle registry ∉ uses) :
    let viewer := (Desk.run { session := session } uses).session
    (viewer.step event).2 = .error fault →
      (viewer.step event).1 = viewer ∨
      ∃ records front name proposed rest known, event = .setAttribution records ∧
        fault = .styleConflict name known proposed ∧ known ≠ proposed ∧
        recordStyles config.tints records = front ++ (name, proposed) :: rest ∧
        viewer.registry.get? name = some known ∧ viewer.registry.unknown front ≠ [] ∧
        (viewer.step event).1 =
          { viewer with registry := viewer.registry.withPermanent (viewer.registry.unknown front) } := by
  intro viewer met
  have dressed : viewer.Dressed sheet config (uses.filterMap Use.records?) :=
    Desk.dressed_of_ofConfig built shipped unstyled
  rw [← dressed.tints]
  cases dressed.leaves_step met with
  | whole kept => exact Or.inl kept
  | upTo brought split found different conflict new kept =>
    exact Or.inr ⟨_, _, _, _, _, _, brought, conflict, different, split, found, new, kept⟩

/-- Records are refused halfway, and a content of two lines comes. -/
def refusingUses : List Use :=
  [.event (.setAttribution (linesOf ["alice", "unknown"])), .event (.setContent "a\nb".toList none)]

/-- A line outside the content changes nothing. -/
theorem Desk.step_refused_line :
    ∃ session, Session.ofConfig { clock := ⟨0⟩ } = .ok session ∧
      let viewer := (Desk.run { session := session } refusingUses).session
      (viewer.step (.jumpToLine 2)).2 = .error (.lineOutOfRange 2 2) ∧ (viewer.step (.jumpToLine 2)).1 = viewer := by
  have seen : ((Session.ofConfig { clock := ⟨0⟩ }).toOption.any fun session =>
      let viewer := (Desk.run { session := session } refusingUses).session
      decide ((viewer.step (.jumpToLine 2)).2 = .error (.lineOutOfRange 2 2))) = true := by decide +kernel
  have shipped : SessionConfig.styles { clock := ⟨0⟩ } = Sheet.githubDark.styles := rfl
  have unstyled : ∀ registry, Use.restyle registry ∉ refusingUses := by simp [refusingUses]
  obtain ⟨session, built, refused⟩ := Session.exists_of_any seen
  have met := of_decide_eq_true refused
  refine ⟨session, built, met, ?_⟩
  rcases Desk.step_refused shipped built unstyled met with kept | ⟨_, _, _, _, _, _, never, _⟩
  · exact kept
  · cases never

/-- An author with the id that the sheet has a style for is refused, and the author in front keeps the new style. -/
theorem Desk.step_refused_unknown :
    ∃ session, Session.ofConfig { clock := ⟨0⟩ } = .ok session ∧
      let outcome := session.step (.setAttribution (linesOf ["alice", "unknown"]))
      outcome.2 = .error (.styleConflict unknownAuthorStyle (.paper "#2a2a2a") (.paper "#1a4d1a")) ∧
      session.registry.get? "blame.author.alice" = none ∧
      outcome.1.registry.get? "blame.author.alice" = some (.paper "#1a1a4d") := by
  have seen : ((Session.ofConfig { clock := ⟨0⟩ }).toOption.any fun session =>
      let outcome := session.step (.setAttribution (linesOf ["alice", "unknown"]))
      decide (outcome.2 = .error (.styleConflict unknownAuthorStyle (.paper "#2a2a2a") (.paper "#1a4d1a")) ∧
        session.registry.get? "blame.author.alice" = none ∧
        outcome.1.registry.get? "blame.author.alice" = some (.paper "#1a1a4d"))) = true := by decide +kernel
  obtain ⟨session, built, shown⟩ := Session.exists_of_any seen
  exact ⟨session, built, of_decide_eq_true shown⟩

end Marginalia
