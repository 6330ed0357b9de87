import Marginalia.Proofs.StalePasses

namespace Marginalia

/-- The line that a use focuses: that of a jump, if the content has it. -/
def Desk.focus? (desk : Desk) : Use → Option Nat
  | .event (.jumpToLine line) =>
    if 0 ≤ line ∧ line < lineCount desk.session.source.content then some line.toNat else none
  | _ => none

/-- The lines that some uses focus in turn. -/
def Desk.focuses (desk : Desk) : List Use → List Nat
  | [] => []
  | use :: rest => (desk.focus? use).toList ++ (desk.use use).focuses rest

/-- Of some uses, one focuses a line and none behind it focuses another one. -/
structure Desk.FocusesLast (desk : Desk) (line : Nat) (before : List Use) (use : Use) (after : List Use) : Prop where
  focuses : (desk.run before).focus? use = some line
  last : ((desk.run before).use use).focuses after = []

variable {session : Session} {desk : Desk} {uses before after : List Use} {use : Use} {line : Nat}

theorem Desk.run_split (desk : Desk) (before : List Use) (use : Use) (after : List Use) :
    desk.run (before ++ use :: after) = ((desk.run before).use use).run after :=
  List.foldl_append

/-- A content that is brought is shown, whether or not it meets a fault. -/
theorem Desk.content_use (desk : Desk) (use : Use) :
    (desk.use use).session.source.content = use.content?.getD desk.session.source.content := by
  cases brought : use.content? with
  | none => exact (desk.shown_use brought).2
  | some content =>
    obtain ⟨filetype, rfl⟩ : ∃ filetype, use = .event (.setContent content filetype) := by
      cases use with
      | event event =>
        cases event with
        | setContent given filetype => exact ⟨filetype, by rw [Option.some.inj brought]⟩
        | _ => cases brought
      | _ => cases brought
    rcases desk.session.setContent_cases content filetype with ⟨registry, _, shown⟩ | ⟨_, _, refused⟩
    · rw [Desk.use, Session.step, shown, Session.showing_eq]
      rfl
    · rw [Desk.use, Session.step, refused]
      rfl

theorem Desk.content_run (desk : Desk) (uses : List Use) : (desk.run uses).session.source.content =
    (uses.filterMap Use.content?).getLast?.getD desk.session.source.content := by
  induction uses generalizing desk with
  | nil => rfl
  | cons use rest ih =>
    change ((desk.use use).run rest).session.source.content = _
    rw [ih, desk.content_use]
    cases brought : use.content? with
    | none => rw [List.filterMap_cons_none brought]; rfl
    | some content => rw [List.filterMap_cons_some brought, List.getLast?_cons]; rfl

theorem Session.Moves.focused_eq {event : Event} {after : Session} {family : Family}
    (moved : session.Moves event after) (owner : event.family? = some family) : after.focused = session.focused := by
  cases moved with
  | beside unowned => cases owner.symm.trans unowned
  | @within own annotator => cases annotator <;> rfl

theorem Session.focused_step (session : Session) {event : Event} (jumpless : ∀ line, event ≠ .jumpToLine line) :
    (session.step event).1.focused = session.focused := by
  cases event with
  | setContent content filetype =>
    rcases session.setContent_cases content filetype with ⟨registry, _, shown⟩ | ⟨_, _, refused⟩
    · rw [Session.step, shown, showing_eq]
    · rw [Session.step, refused]
  | setFiletype filetype => rfl
  | setClock now => rfl
  | jumpToLine line => exact absurd rfl (jumpless line)
  | _ => exact (session.moves_step rfl).focused_eq rfl

/-- Nothing else than a jump within the content changes which line is focused. -/
theorem Desk.focused_use (desk : Desk) (use : Use) :
    (desk.use use).session.focused = (desk.focus? use).or desk.session.focused := by
  rcases use.kinds with ⟨event, rfl⟩ | ⟨registry, rfl⟩ | ⟨eventless, unstyled⟩
  · by_cases jumps : ∃ line, event = .jumpToLine line
    · obtain ⟨line, rfl⟩ := jumps
      unfold Desk.use Session.step Session.jumpToLine focus?
      dsimp only
      split <;> rfl
    · have jumpless : ∀ line, event ≠ .jumpToLine line := not_exists.mp jumps
      have none : desk.focus? (.event event) = none := by
        cases event with
        | jumpToLine line => exact absurd rfl (jumpless line)
        | _ => rfl
      rw [none]
      exact desk.session.focused_step jumpless
  · rfl
  · obtain ⟨cache, frame⟩ := desk.use_frame eventless unstyled
    have none : desk.focus? use = none := by
      cases use with
      | event event => exact absurd rfl (eventless event)
      | _ => rfl
    rw [frame, none]
    rfl

theorem Desk.spec_of_focus? (focuses : desk.focus? use = some line) :
    line < lineCount desk.session.source.content ∧ use.content? = none := by
  unfold focus? at focuses
  split at focuses
  · obtain ⟨⟨_, within⟩, found⟩ := Option.ite_none_right_eq_some.mp focuses
    have same := Option.some.inj found
    exact ⟨by omega, rfl⟩
  · cases focuses

theorem Session.focused_of_ofConfig {config : SessionConfig} (built : Session.ofConfig config = .ok session) :
    session.focused = none := by
  obtain ⟨initial, starts, _, opened⟩ := Session.ofConfig_eq_ok built
  obtain ⟨registry, rfl⟩ := Session.setContent_eq_ok opened
  rw [Session.showing_eq]
  exact starts.focused

theorem Desk.focused_run_eq (desk : Desk) (uses : List Use) :
    (desk.run uses).session.focused = (desk.focuses uses).getLast?.or desk.session.focused := by
  induction uses generalizing desk with
  | nil => rfl
  | cons use rest ih =>
    change ((desk.use use).run rest).session.focused = _
    rw [ih, focused_use, focuses, List.getLast?_append, Option.or_assoc]
    cases desk.focus? use <;> rfl

theorem Desk.FocusesLast.getLast? (focusesLast : desk.FocusesLast line before use after) :
    (desk.focuses (before ++ use :: after)).getLast? = some line := by
  induction before generalizing desk with
  | nil =>
    have focuses : desk.focus? use = some line := focusesLast.focuses
    have last : (desk.use use).focuses after = [] := focusesLast.last
    rw [List.nil_append, Desk.focuses, focuses, last]
    rfl
  | cons first rest ih =>
    rw [List.cons_append, Desk.focuses, List.getLast?_append, ih ⟨focusesLast.focuses, focusesLast.last⟩]
    rfl

/-- The line that is focused at the end, some use has focused last. -/
theorem Desk.exists_focusesLast (focused : (desk.focuses uses).getLast? = some line) :
    ∃ before use after, uses = before ++ use :: after ∧ desk.FocusesLast line before use after := by
  induction uses generalizing desk with
  | nil => cases focused
  | cons use rest ih =>
    rw [focuses, List.getLast?_append] at focused
    cases later : ((desk.use use).focuses rest).getLast? with
    | some last =>
      rw [later] at focused
      obtain ⟨before, last, after, rfl, focusesLast⟩ := ih (later.trans focused)
      exact ⟨use :: before, last, after, rfl, focusesLast.focuses, focusesLast.last⟩
    | none =>
      have one : (desk.focus? use).toList.getLast? = desk.focus? use := by cases desk.focus? use <;> rfl
      rw [later, Option.none_or, one] at focused
      exact ⟨[], use, rest, rfl, focused, List.getLast?_eq_none_iff.mp later⟩

/-- However a viewer was used, no line is focused as long as no jump went within the content; then it is the one of the
last such jump, whether or not the content that is shown meanwhile has it. It is a line of that content if the content of
the jump is still shown, or else just if the last content that came has so many lines. -/
theorem Desk.focused_run {config : SessionConfig} (built : Session.ofConfig config = .ok session) (uses : List Use) :
    let desk : Desk := { session := session }
    let viewer := (desk.run uses).session
    (viewer.focused = none ↔ desk.focuses uses = []) ∧
    (∀ line, viewer.focused = some line ↔
      ∃ before use after, uses = before ++ use :: after ∧ desk.FocusesLast line before use after) ∧
    ∀ before use after line, uses = before ++ use :: after → desk.FocusesLast line before use after →
      line < lineCount (desk.run before).session.source.content ∧
      (line < lineCount viewer.source.content ↔
        ∀ content ∈ (after.filterMap Use.content?).getLast?, line < lineCount content) := by
  intro desk viewer
  have focused : viewer.focused = (desk.focuses uses).getLast? := by
    rw [desk.focused_run_eq, Session.focused_of_ofConfig built, Option.or_none]
  refine ⟨?_, fun line => ⟨fun found => exists_focusesLast (focused.symm.trans found), ?_⟩, ?_⟩
  · rw [focused, List.getLast?_eq_none_iff]
  · rintro ⟨before, use, after, rfl, focusesLast⟩
    exact focused.trans focusesLast.getLast?
  · rintro before use after line rfl focusesLast
    obtain ⟨within, contentless⟩ := Desk.spec_of_focus? focusesLast.focuses
    have kept := ((desk.run before).shown_use contentless).2
    have shown : viewer.source.content =
        (after.filterMap Use.content?).getLast?.getD (desk.run before).session.source.content := by
      rw [← kept, ← Desk.content_run, ← desk.run_split]
    refine ⟨within, ?_⟩
    rw [shown]
    cases (after.filterMap Use.content?).getLast? <;> simp [within]

/-- The last line is gone to, and the content is replaced by a shorter one and by a longer one. A jump behind its end is
refused. -/
def refocusingUses : List Use :=
  [.event (.setContent "a\nb\nc".toList none), .event (.jumpToLine 2), .event (.setContent "x".toList none),
    .event (.setContent "1\n2\n3\n4".toList none), .event (.jumpToLine 4)]

theorem Desk.focused_run_refocusing : ∃ session, Session.ofConfig { clock := ⟨0⟩ } = .ok session ∧
    let viewer := (Desk.run { session := session } refocusingUses).session
    viewer.focused = some 2 ∧ 2 < lineCount viewer.source.content := by
  let before : List Use := [.event (.setContent "a\nb\nc".toList none)]
  let after : List Use := [.event (.setContent "x".toList none), .event (.setContent "1\n2\n3\n4".toList none),
    .event (.jumpToLine 4)]
  have seen : ((Session.ofConfig { clock := ⟨0⟩ }).toOption.any fun session =>
      let desk := Desk.run { session := session } before
      decide (desk.focus? (.event (.jumpToLine 2)) = some 2) &&
        decide ((desk.use (.event (.jumpToLine 2))).focuses after = [])) = true := by decide +kernel
  obtain ⟨session, built, shown⟩ := Session.exists_of_any seen
  obtain ⟨focuses, last⟩ := Bool.and_eq_true_iff.mp shown
  have focusesLast : Desk.FocusesLast { session := session } 2 before (.event (.jumpToLine 2)) after :=
    ⟨of_decide_eq_true focuses, of_decide_eq_true last⟩
  obtain ⟨_, stays, within⟩ := Desk.focused_run built refocusingUses
  have enough : ∀ content ∈ (after.filterMap Use.content?).getLast?, 2 < lineCount content := by decide
  exact ⟨session, built, (stays 2).mpr ⟨_, _, _, rfl, focusesLast⟩, (within _ _ _ 2 rfl focusesLast).2.mpr enough⟩

/-- The content has become too short for the line that is still focused. -/
theorem Desk.focused_run_shortened : ∃ session, Session.ofConfig { clock := ⟨0⟩ } = .ok session ∧
    let viewer := (Desk.run { session := session } (refocusingUses.take 3)).session
    viewer.focused = some 2 ∧ lineCount viewer.source.content = 1 := by
  have seen : ((Session.ofConfig { clock := ⟨0⟩ }).toOption.any fun session =>
      let viewer := (Desk.run { session := session } (refocusingUses.take 3)).session
      decide (viewer.focused = some 2 ∧ lineCount viewer.source.content = 1)) = true := by decide +kernel
  obtain ⟨session, built, shown⟩ := Session.exists_of_any seen
  exact ⟨session, built, of_decide_eq_true shown⟩

end Marginalia
