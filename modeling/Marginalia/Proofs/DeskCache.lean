import Mathlib
import Marginalia.Proofs.BaseCache

namespace Marginalia

/-- A viewer in use: the tickets that it gave out, and the passes that were made of them. -/
structure Desk where
  session : Session
  tickets : List Ticket := []
  passes : List Pass := []
deriving DecidableEq, Repr

/-- What can be done with a viewer. Its styles may be changed from outside; tickets are run and passes are handed
back by their places, at any time and as often as one likes. -/
inductive Use
  | event (event : Event)
  | restyle (registry : Registry)
  | baseSpans
  | highlight (base : Option (List Span))
  | request (base : Option (List Span))
  | run (place : Nat)
  | accept (place : Nat)
deriving DecidableEq, Repr

def Desk.request (desk : Desk) (base : Option (List Span)) : Desk :=
  let (session, ticket) := desk.session.requestPass base
  { desk with session := session, tickets := desk.tickets ++ [ticket] }

def Desk.runTicket (desk : Desk) (place : Nat) : Desk :=
  match desk.tickets[place]?.map Ticket.run with
  | some (.ok pass) => { desk with passes := desk.passes ++ [pass] }
  | _ => desk

def Desk.acceptPass (desk : Desk) (place : Nat) : Desk :=
  match desk.passes[place]? with
  | some pass => { desk with session := (desk.session.accept pass).1 }
  | none => desk

def Desk.use (desk : Desk) : Use → Desk
  | .event event => { desk with session := (desk.session.step event).1 }
  | .restyle registry => { desk with session := { desk.session with registry := registry } }
  | .baseSpans => { desk with session := desk.session.baseSpans.1 }
  | .highlight base => { desk with session := (desk.session.highlight base).1 }
  | .request base => desk.request base
  | .run place => desk.runTicket place
  | .accept place => desk.acceptPass place

def Desk.run (desk : Desk) (uses : List Use) : Desk :=
  uses.foldl Desk.use desk

/-- The content that a use brings. -/
def Use.content? : Use → Option Content
  | .event given => given.content?
  | _ => none

/-- Everything that a viewer shows: the empty content at first, then what its uses bring. -/
def usedContents (uses : List Use) : List Content :=
  [] :: uses.filterMap Use.content?

/-- Whether a use that brings a content meets no fault. -/
def Desk.takes (desk : Desk) : Use → Bool
  | .event (.setContent content filetype) => (desk.session.setContent content filetype).2.isOk
  | _ => true

/-- Whether no content on the way meets a fault. -/
def Desk.takesAll (desk : Desk) : List Use → Bool
  | [] => true
  | use :: rest => desk.takes use && (desk.use use).takesAll rest

/-- Whether a use asks for a pass. -/
def Use.asks : Use → Bool
  | .request _ => true
  | _ => false

/-- The version of a ticket is that of its content, which was shown. -/
structure Ticket.Anchored (contents : List Content) (ticket : Ticket) : Prop where
  shown : ticket.source.content ∈ contents
  version : ticket.version = fingerprint ticket.source.content

structure Desk.Anchored (contents : List Content) (desk : Desk) : Prop where
  session : desk.session.Anchored contents
  tickets : ∀ ticket ∈ desk.tickets, ticket.Anchored contents
  passes : ∀ pass ∈ desk.passes, pass.ticket.Anchored contents ∧ pass.ticket.run = .ok pass

variable {contents : List Content} {session : Session} {desk : Desk}

theorem Use.kinds (use : Use) : (∃ event, use = .event event) ∨ (∃ registry, use = .restyle registry) ∨
    ((∀ event, use ≠ .event event) ∧ ∀ registry, use ≠ .restyle registry) := by
  cases use <;> simp

/-- What every use keeps, all of them keep. -/
theorem Desk.run_keeps {motive : Desk → Prop} {uses : List Use}
    (each : ∀ desk, ∀ use ∈ uses, motive desk → motive (desk.use use)) (started : motive desk) :
    motive (desk.run uses) :=
  List.foldlRecOn uses Desk.use started fun desk kept use member => each desk use member kept

/-- What every use keeps that meets no fault over a content, all of them keep. -/
theorem Desk.run_keeps_of_takesAll {motive : Desk → Prop} {uses : List Use}
    (each : ∀ desk, ∀ use ∈ uses, desk.takes use = true → motive desk → motive (desk.use use))
    (taken : desk.takesAll uses = true) (started : motive desk) : motive (desk.run uses) := by
  induction uses generalizing desk with
  | nil => exact started
  | cons use rest ih =>
    obtain ⟨here, later⟩ := Bool.and_eq_true_iff.mp taken
    obtain ⟨first, others⟩ := List.forall_mem_cons.mp fun use member desk => each desk use member
    exact ih (fun desk use member => others use member desk) later (first desk here started)

theorem mem_usedContents {uses : List Use} {use : Use} {content : Content} (member : use ∈ uses)
    (brings : content ∈ use.content?) : content ∈ usedContents uses :=
  List.mem_cons_of_mem _ (List.mem_filterMap.mpr ⟨use, member, brings⟩)

theorem Desk.runTicket_cases (desk : Desk) (place : Nat) : desk.runTicket place = desk ∨
    ∃ pass, pass.ticket ∈ desk.tickets ∧ pass.ticket.run = .ok pass ∧
      desk.runTicket place = { desk with passes := desk.passes ++ [pass] } := by
  unfold Desk.runTicket
  split
  · rename_i pass found
    obtain ⟨ticket, found, made⟩ := Option.map_eq_some_iff.mp found
    obtain rfl := (Ticket.run_eq_ok made).1
    exact Or.inr ⟨pass, List.mem_of_getElem? found, made, rfl⟩
  · exact Or.inl rfl

theorem Desk.acceptPass_cases (desk : Desk) (place : Nat) : desk.acceptPass place = desk ∨
    ∃ pass ∈ desk.passes, desk.acceptPass place = { desk with session := (desk.session.accept pass).1 } := by
  unfold Desk.acceptPass
  split
  · rename_i pass found
    exact Or.inr ⟨pass, List.mem_of_getElem? found, rfl⟩
  · exact Or.inl rfl

/-- Beside events and changes of the styles, a viewer only counts passes and keeps base spans. -/
theorem Desk.use_frame (desk : Desk) {use : Use} (eventless : ∀ event, use ≠ .event event)
    (unstyled : ∀ registry, use ≠ .restyle registry) :
    ∃ cache, (desk.use use).session = { desk.session with
      generation := desk.session.generation + use.asks.toNat, baseCache := cache } := by
  cases use with
  | event event => exact absurd rfl (eventless event)
  | restyle registry => exact absurd rfl (unstyled registry)
  | baseSpans => exact desk.session.baseSpans_frame
  | highlight base =>
    cases base with
    | none => exact desk.session.baseSpans_frame
    | some base => exact ⟨desk.session.baseCache, rfl⟩
  | request base => exact ⟨desk.session.baseCache, rfl⟩
  | run place =>
    refine ⟨desk.session.baseCache, ?_⟩
    rcases desk.runTicket_cases place with same | ⟨pass, _, _, same⟩
    · rw [Desk.use, same]
      rfl
    · rw [Desk.use, same]
      rfl
  | accept place =>
    rcases desk.acceptPass_cases place with same | ⟨pass, _, same⟩
    · rw [Desk.use, same]
      exact ⟨desk.session.baseCache, rfl⟩
    · rw [Desk.use, same]
      exact desk.session.accept_frame pass

theorem Session.Anchored.ticket (anchored : session.Anchored contents) (base : Option (List Span)) :
    (session.requestPass base).2.Anchored contents :=
  ⟨anchored.shown, anchored.version⟩

/-- A pass that read its base itself leaves base spans of the content of its ticket, and every other pass leaves
none. -/
theorem Session.Anchored.accept (anchored : session.Anchored contents) {pass : Pass}
    (ticket : pass.ticket.Anchored contents) (made : pass.ticket.run = .ok pass) :
    (session.accept pass).1.Anchored contents := by
  rcases session.accept_cases pass with same | ⟨own, same⟩
  · rw [same]
    exact anchored
  · rw [same]
    refine ⟨anchored.shown, anchored.version, fun cache kept => ?_⟩
    cases kept
    exact ⟨pass.ticket.source.content, ticket.shown, ticket.version, Ticket.base_run made own⟩

theorem Desk.exists_showing_of_takes {content : Content} {filetype : Option String}
    (taken : desk.takes (.event (.setContent content filetype)) = true) :
    ∃ registry, (desk.session.step (.setContent content filetype)).1 =
      desk.session.showing ⟨content, filetype.getD desk.session.source.filetype⟩ registry := by
  rcases desk.session.setContent_cases content filetype with ⟨registry, _, shown⟩ | ⟨_, _, refused⟩
  · exact ⟨registry, congrArg Prod.fst shown⟩
  · rw [takes, refused] at taken
    cases taken

theorem Desk.Anchored.event (anchored : desk.Anchored contents) {event : Event}
    (brought : ∀ content ∈ event.content?, content ∈ contents) (taken : desk.takes (.event event) = true) :
    (desk.session.step event).1.Anchored contents := by
  cases event with
  | setContent content filetype =>
    obtain ⟨registry, shown⟩ := Desk.exists_showing_of_takes taken
    rw [shown]
    exact Session.anchored_showing anchored.session.cache (brought content rfl) registry
  | _ => exact anchored.session.of_continues (desk.session.continues_step rfl)

theorem Desk.Anchored.request (anchored : desk.Anchored contents) (base : Option (List Span)) :
    (desk.request base).Anchored contents := by
  refine ⟨⟨anchored.session.shown, anchored.session.version, anchored.session.cache⟩, ?_, anchored.passes⟩
  intro ticket member
  rcases List.mem_append.mp member with old | new
  · exact anchored.tickets ticket old
  · rw [List.mem_singleton.mp new]
    exact anchored.session.ticket base

theorem Desk.Anchored.runTicket (anchored : desk.Anchored contents) (place : Nat) :
    (desk.runTicket place).Anchored contents := by
  rcases desk.runTicket_cases place with same | ⟨pass, given, made, same⟩
  · rw [same]
    exact anchored
  · rw [same]
    refine ⟨anchored.session, anchored.tickets, fun other member => ?_⟩
    rcases List.mem_append.mp member with old | new
    · exact anchored.passes other old
    · rw [List.mem_singleton.mp new]
      exact ⟨anchored.tickets _ given, made⟩

theorem Desk.Anchored.acceptPass (anchored : desk.Anchored contents) (place : Nat) :
    (desk.acceptPass place).Anchored contents := by
  rcases desk.acceptPass_cases place with same | ⟨pass, held, same⟩
  · rw [same]
    exact anchored
  · rw [same]
    obtain ⟨ticket, made⟩ := anchored.passes pass held
    exact ⟨anchored.session.accept ticket made, anchored.tickets, anchored.passes⟩

/-- Whatever is done with a viewer, it stays anchored, unless a content meets a fault. -/
theorem Desk.Anchored.use (anchored : desk.Anchored contents) {use : Use}
    (brought : ∀ content ∈ use.content?, content ∈ contents) (taken : desk.takes use = true) :
    (desk.use use).Anchored contents := by
  cases use with
  | event event => exact ⟨anchored.event brought taken, anchored.tickets, anchored.passes⟩
  | restyle registry =>
    exact ⟨⟨anchored.session.shown, anchored.session.version, anchored.session.cache⟩, anchored.tickets,
      anchored.passes⟩
  | baseSpans => exact ⟨anchored.session.of_baseSpans, anchored.tickets, anchored.passes⟩
  | highlight base => exact ⟨anchored.session.of_highlight base, anchored.tickets, anchored.passes⟩
  | request base => exact anchored.request base
  | run place => exact anchored.runTicket place
  | accept place => exact anchored.acceptPass place

theorem Desk.anchored_run {config : SessionConfig} (built : Session.ofConfig config = .ok session) {uses : List Use}
    (taken : Desk.takesAll { session := session } uses = true) :
    (Desk.run { session := session } uses).Anchored (usedContents uses) := by
  have started : Desk.Anchored (usedContents uses) { session := session } :=
    { session := Session.anchored_of_ofConfig built (List.mem_cons_self ..)
      tickets := fun ticket none => absurd none List.not_mem_nil
      passes := fun pass none => absurd none List.not_mem_nil }
  refine Desk.run_keeps_of_takesAll (motive := Desk.Anchored (usedContents uses)) ?_ taken started
  exact fun desk use member here anchored => anchored.use (fun content => mem_usedContents member) here

/-- As long as no content meets a fault, the base spans that are kept are those of the current content, so that
reading them and drawing over them do not depend on what happened before; and a base from outside is never kept. -/
theorem Desk.baseSpans_run {config : SessionConfig} (built : Session.ofConfig config = .ok session) {uses : List Use}
    (taken : Desk.takesAll { session := session } uses = true) (apart : FingerprintsApart (usedContents uses)) :
    let viewer := (Desk.run { session := session } uses).session
    let base := tokenize viewer.source.content viewer.source.filetype
    (viewer.cachedBase? = none ∨ viewer.cachedBase? = some base) ∧
    viewer.baseSpans.2 = base ∧
    (viewer.highlight none).2 = compose viewer.registry viewer.source base viewer.annotators ∧
    ∀ given, (viewer.highlight (some given)).1 = viewer ∧
      (viewer.requestPass (some given)).1.baseCache = viewer.baseCache ∧
      ∀ pass, (viewer.requestPass (some given)).2.run = .ok pass →
        ∀ later : Session, (later.accept pass).1 = later := by
  intro viewer base
  have anchored : viewer.Anchored (usedContents uses) := (Desk.anchored_run built taken).session
  obtain ⟨cache, read⟩ := anchored.baseSpans apart
  refine ⟨?_, ?_, ?_, fun given => ⟨rfl, rfl, fun pass made later => ?_⟩⟩
  · cases kept : viewer.cachedBase? with
    | none => exact Or.inl rfl
    | some spans =>
      rw [anchored.cachedBase? apart kept]
      exact Or.inr rfl
  · rw [read]
  · unfold Session.highlight
    dsimp only
    rw [read]
    rfl
  · refine later.accept_of_isSome ?_
    rw [(Ticket.run_eq_ok made).1]
    rfl

/-- What a new session can be seen to meet. -/
theorem Session.exists_of_any {config : SessionConfig} {holds : Session → Bool}
    (seen : (Session.ofConfig config).toOption.any holds = true) :
    ∃ session, Session.ofConfig config = .ok session ∧ holds session = true :=
  exists_ok_of_any seen

/-- A pass over the first content is handed back twice: while the filetype is another one, and when both have changed
away and back. A pass over a base from outside is handed back in between. -/
def revisitingUses : List Use :=
  [.event (.setContent "x = 1".toList (some "python")), .request none, .run 0, .event (.setFiletype "css"),
    .baseSpans, .accept 0, .event (.setContent "#fff TODO".toList none), .highlight none, .request (some []), .run 1,
    .accept 1, .event (.setContent "x = 1".toList (some "python")), .accept 0]

theorem Desk.baseSpans_run_revisiting :
    ∃ session, Session.ofConfig { clock := ⟨0⟩ } = .ok session ∧
      Desk.takesAll { session := session } revisitingUses = true ∧
      FingerprintsApart (usedContents revisitingUses) ∧
      let viewer := (Desk.run { session := session } revisitingUses).session
      let base := tokenize viewer.source.content viewer.source.filetype
      (viewer.cachedBase? = none ∨ viewer.cachedBase? = some base) ∧ viewer.baseSpans.2 = base := by
  have apart : FingerprintsApart (usedContents revisitingUses) := by
    unfold FingerprintsApart
    decide +kernel
  have seen : ((Session.ofConfig { clock := ⟨0⟩ }).toOption.any fun session =>
      Desk.takesAll { session := session } revisitingUses) = true := by decide +kernel
  obtain ⟨session, built, taken⟩ := Session.exists_of_any seen
  obtain ⟨kept, read, _⟩ := Desk.baseSpans_run built taken apart
  exact ⟨session, built, taken, apart, kept, read⟩

/-- A sheet with a style under the id of a color literal. -/
def literalStyles : StyleList :=
  [("color.f00", { bold := true })]

/-- The last content has that literal, so that it is refused; it is shown all the same, under the version of the
content before it. -/
def refusedUses : List Use :=
  [.event (.setFiletype "python"), .baseSpans, .event (.setContent "#f00".toList none)]

theorem fingerprintsApart_refusedUses : FingerprintsApart (usedContents refusedUses) := by
  unfold FingerprintsApart
  decide +kernel

theorem tokenize_literal : tokenize "#f00".toList "python" = [⟨0, 4, "comment", none⟩] := by cbv

/-- After a refused content the base spans are those of the content before it. -/
theorem Desk.baseSpans_run_refused :
    FingerprintsApart (usedContents refusedUses) ∧
    ∃ session, Session.ofConfig { styles := literalStyles, clock := ⟨0⟩ } = .ok session ∧
      let viewer := (Desk.run { session := session } refusedUses).session
      let base := tokenize viewer.source.content viewer.source.filetype
      viewer.cachedBase? ≠ none ∧ viewer.cachedBase? ≠ some base ∧ viewer.baseSpans.2 ≠ base := by
  have seen : ((Session.ofConfig { styles := literalStyles, clock := ⟨0⟩ }).toOption.any fun session =>
      let viewer := (Desk.run { session := session } refusedUses).session
      decide (viewer.cachedBase? = some [] ∧ viewer.baseSpans.2 = [] ∧
        viewer.source = ⟨"#f00".toList, "python"⟩)) = true := by decide +kernel
  obtain ⟨session, built, shown⟩ := Session.exists_of_any seen
  obtain ⟨kept, read, source⟩ := of_decide_eq_true shown
  refine ⟨fingerprintsApart_refusedUses, session, built, ?_⟩
  dsimp only
  rw [kept, read, source, tokenize_literal]
  decide

end Marginalia
