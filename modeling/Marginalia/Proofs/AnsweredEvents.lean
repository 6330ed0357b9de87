import Marginalia.Proofs.ColorlessSheets

namespace Marginalia

/-- The records that an event brings. -/
def Event.records? : Event → Option (List Record)
  | .setAttribution records => some records
  | _ => none

/-- A session that goes on with the styles and the settings of another one; where the selection of that one stands,
its own does. -/
structure Session.Retains (before after : Session) : Prop where
  registry : after.registry = before.registry
  tints : after.tints = before.tints
  strict : after.strict = before.strict
  selection : before.search.selection.Stands → after.search.selection.Stands

/-- An event is refused, and nothing happens, or it is answered. -/
inductive Session.Proceeds (session : Session) (outcome : Outcome) : Prop
  | refused (kept : outcome.1 = session) {fault : Fault} (met : outcome.2 = .error fault)
  | answered (retained : session.Retains outcome.1) {reply : Reply} (given : outcome.2 = .ok reply)

variable {session before after : Session} {selection : Selection}

theorem Session.Proceeds.kept {outcome : Outcome} (proceeds : session.Proceeds outcome) {fault : Fault}
    (met : outcome.2 = .error fault) : outcome.1 = session := by
  cases proceeds with
  | refused kept => exact kept
  | answered _ given => cases met.symm.trans given

theorem Session.Retains.report (retained : before.Retains after) (stands : before.search.selection.Stands)
    (family : Family) (reply : Reply) : before.Proceeds (after.report family reply) := by
  have shown : ∃ message, (after.annotator family).status = .ok message := by
    cases family with
    | search => exact (retained.selection stands).summary
    | _ => exact ⟨_, rfl⟩
  obtain ⟨message, shown⟩ := shown
  unfold Session.report
  rw [shown]
  exact .answered ⟨retained.registry, retained.tints, retained.strict, retained.selection⟩ rfl

theorem Session.retains_withSelection (session : Session) (stands : selection.Stands) :
    session.Retains (session.withSelection selection) :=
  ⟨rfl, rfl, rfl, fun _ => stands⟩

/-- Beside a content and an attribution, an event that meets a fault is refused. -/
theorem Session.proceeds_step (stands : session.search.selection.Stands) {event : Event}
    (contentless : event.content? = none) (recordless : event.records? = none) :
    session.Proceeds (session.step event) := by
  cases event with
  | setContent content filetype => cases contentless
  | setAttribution records => cases recordless
  | setFiletype filetype => exact .answered ⟨rfl, rfl, rfl, id⟩ rfl
  | toggleFamily family =>
    have switched : session.Retains (session.withAnnotator ((session.annotator family).withEnabled
        !(session.annotator family).enabled)) := by
      cases family <;> exact ⟨rfl, rfl, rfl, id⟩
    exact switched.report stands ..
  | toggleBracket name =>
    unfold Session.step toggleBracket
    dsimp only
    split
    · exact .refused rfl rfl
    · rename_i annotator _
      have switched : session.Retains { session with bracket := annotator } := ⟨rfl, rfl, rfl, id⟩
      exact switched.report stands ..
  | toggleKeyword word =>
    unfold Session.step toggleKeyword
    dsimp only
    split
    · exact .refused rfl rfl
    · rename_i annotator _
      have switched : session.Retains { session with lint := annotator } := ⟨rfl, rfl, rfl, id⟩
      exact switched.report stands ..
  | cycleBlameMode =>
    have cycled : session.Retains { session with blame := { session.blame with mode := session.blame.mode.next } } :=
      ⟨rfl, rfl, rfl, id⟩
    exact cycled.report stands .blame (.mode session.blame.mode.next)
  | setClock now => exact .answered ⟨rfl, rfl, rfl, id⟩ rfl
  | refreshClock => exact .answered ⟨rfl, rfl, rfl, id⟩ rfl
  | setSearchTerm term => exact (session.retains_withSelection (Selection.stands_ofTerm ..)).report stands ..
  | clearSearch => exact (session.retains_withSelection Selection.stands_empty).report stands .search .done
  | nextMatch => exact (session.retains_withSelection (stands.jump _)).report stands ..
  | previousMatch => exact (session.retains_withSelection (stands.jump _)).report stands ..
  | jumpToMatch index => exact (session.retains_withSelection (stands.jump index)).report stands ..
  | jumpToLine line =>
    unfold Session.step jumpToLine
    dsimp only
    split
    · exact .answered ⟨rfl, rfl, rfl, id⟩ rfl
    · exact .refused rfl rfl

theorem Session.retains_showing (session : Session) (source : Source) (registry : Registry) :
    Session.Retains { session with registry := registry } (session.showing source registry) := by
  rw [showing_eq]
  exact ⟨rfl, rfl, rfl, fun stands => stands.again _⟩

end Marginalia
