import Marginalia.Proofs.DeskCache

namespace Marginalia

variable {session : Session}

/-- A ticket makes of the session what drawing it at that moment does, whether its base spans are given, kept or
not yet read. -/
theorem Session.run_requestPass (session : Session) (base : Option (List Span)) :
    (session.requestPass base).2.run.map (·.spans) = (session.highlight base).2 := by
  rw [Ticket.spans_run]
  unfold requestPass
  dsimp only
  rw [compose_snapshot]
  cases base with
  | some base => rfl
  | none =>
    change compose session.registry session.source
      (session.cachedBase?.getD (tokenize session.source.content session.source.filetype)) session.annotators = _
    unfold highlight baseSpans
    cases session.cachedBase? <;> rfl

theorem Session.Anchored.base_requestPass {contents : List Content} (anchored : session.Anchored contents)
    (apart : FingerprintsApart contents) :
    (session.requestPass none).2.base = none ∨ (session.requestPass none).2.base =
      some (tokenize session.source.content session.source.filetype) := by
  cases kept : session.cachedBase? with
  | none => exact Or.inl kept
  | some spans =>
    rw [anchored.cachedBase? apart kept] at kept
    exact Or.inr kept

theorem Desk.tickets_use (desk : Desk) (use : Use) : desk.tickets <+: (desk.use use).tickets := by
  cases use with
  | request base => exact List.prefix_append ..
  | run place =>
    rcases desk.runTicket_cases place with same | ⟨_, _, _, same⟩
    · rw [Desk.use, same]
    · rw [Desk.use, same]
  | accept place =>
    rcases desk.acceptPass_cases place with same | ⟨_, _, same⟩
    · rw [Desk.use, same]
    · rw [Desk.use, same]
  | _ => exact List.prefix_rfl

/-- A ticket once given out stays as it is. -/
theorem Desk.tickets_run (desk : Desk) (uses : List Use) : desk.tickets <+: (desk.run uses).tickets := by
  induction uses generalizing desk with
  | nil => exact List.prefix_rfl
  | cons use rest ih => exact (desk.tickets_use use).trans (ih _)

theorem Desk.getElem?_tickets_request (desk : Desk) (base : Option (List Span)) (later : List Use) :
    ((desk.request base).run later).tickets[desk.tickets.length]? = some (desk.session.requestPass base).2 := by
  have given : (desk.request base).tickets[desk.tickets.length]? = some (desk.session.requestPass base).2 :=
    List.getElem?_concat_length
  obtain ⟨_, extended⟩ := (desk.request base).tickets_run later
  rw [← extended, List.getElem?_append_left (List.getElem?_eq_some_iff.mp given).1]
  exact given

/-- However the viewer goes on, a ticket makes what drawing the viewer at the time of the request would have made; and
as long as no content met a fault before, the base it reads itself is that of the content of that time. -/
theorem Desk.ticket_run {config : SessionConfig} (built : Session.ofConfig config = .ok session) (uses : List Use)
    (base : Option (List Span)) (later : List Use) :
    let desk := Desk.run { session := session } uses
    let read := tokenize desk.session.source.content desk.session.source.filetype
    ∃ ticket, ((desk.request base).run later).tickets[desk.tickets.length]? = some ticket ∧
      ticket.run.map (·.spans) = (desk.session.highlight base).2 ∧
      (base = none → Desk.takesAll { session := session } uses = true → FingerprintsApart (usedContents uses) →
        (ticket.base = none ∨ ticket.base = some read) ∧ ∀ pass, ticket.run = .ok pass → pass.base = read) := by
  intro desk read
  refine ⟨_, desk.getElem?_tickets_request base later, desk.session.run_requestPass base, ?_⟩
  rintro rfl taken apart
  have bases := (Desk.anchored_run built taken).session.base_requestPass apart
  refine ⟨bases, fun pass made => ?_⟩
  rw [(Ticket.run_eq_ok made).2]
  rcases bases with unread | kept
  · rw [unread]
    rfl
  · rw [kept]
    rfl

/-- The base spans are read before the request. After it the styles are taken away, the content changes, and a family
is switched off. -/
def cachedUses : List Use :=
  [.event (.setContent "x = 1".toList (some "python")), .baseSpans]

def restyledUses : List Use :=
  [.restyle {}, .event (.setContent "#fff TODO".toList (some "css")), .event (.toggleFamily .bracket), .run 0,
    .accept 0]

theorem Desk.ticket_run_cached :
    ∃ session, Session.ofConfig { clock := ⟨0⟩ } = .ok session ∧
      Desk.takesAll { session := session } cachedUses = true ∧
      FingerprintsApart (usedContents cachedUses) ∧
      let desk := Desk.run { session := session } cachedUses
      let read := tokenize desk.session.source.content desk.session.source.filetype
      ∃ ticket, ((desk.request none).run restyledUses).tickets[desk.tickets.length]? = some ticket ∧
        ticket.run.map (·.spans) = (desk.session.highlight none).2 ∧
        (ticket.base = none ∨ ticket.base = some read) ∧ ∀ pass, ticket.run = .ok pass → pass.base = read := by
  have apart : FingerprintsApart (usedContents cachedUses) := by
    unfold FingerprintsApart
    decide +kernel
  have seen : ((Session.ofConfig { clock := ⟨0⟩ }).toOption.any fun session =>
      Desk.takesAll { session := session } cachedUses) = true := by decide +kernel
  obtain ⟨session, built, taken⟩ := Session.exists_of_any seen
  obtain ⟨ticket, given, drawn, bases⟩ := Desk.ticket_run built cachedUses none restyledUses
  exact ⟨session, built, taken, apart, ticket, given, drawn, bases rfl taken apart⟩

/-- After a refused content a ticket starts from the base spans of the content before it. -/
theorem Desk.ticket_run_refused :
    FingerprintsApart (usedContents refusedUses) ∧
    ∃ session, Session.ofConfig { styles := literalStyles, clock := ⟨0⟩ } = .ok session ∧
      let viewer := (Desk.run { session := session } refusedUses).session
      let ticket := (viewer.requestPass none).2
      ∃ pass, ticket.run = .ok pass ∧ pass.base ≠ tokenize viewer.source.content viewer.source.filetype := by
  have seen : ((Session.ofConfig { styles := literalStyles, clock := ⟨0⟩ }).toOption.any fun session =>
      let viewer := (Desk.run { session := session } refusedUses).session
      decide (((viewer.requestPass none).2.run.toOption.map (·.base)) = some [] ∧
        viewer.source = ⟨"#f00".toList, "python"⟩)) = true := by decide +kernel
  obtain ⟨session, built, shown⟩ := Session.exists_of_any seen
  obtain ⟨runs, source⟩ := of_decide_eq_true shown
  refine ⟨fingerprintsApart_refusedUses, session, built, ?_⟩
  dsimp only
  cases made : ((Desk.run { session := session } refusedUses).session.requestPass none).2.run with
  | error fault =>
    rw [made] at runs
    cases runs
  | ok pass =>
    rw [made] at runs
    have base : pass.base = [] := Option.some.inj runs
    refine ⟨pass, rfl, ?_⟩
    rw [base, source, tokenize_literal]
    exact (List.cons_ne_nil _ _).symm

end Marginalia
