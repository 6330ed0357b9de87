import Marginalia.Proofs.StyleConflicts
import Marginalia.Style.Sheet
import Mathlib.Data.List.Nodup

namespace Marginalia

/-- What is asked of a registry. Behind `snapshot` one goes on with the copy. -/
inductive Registry.Call
  | register (name : String) (style : Style) (scope : Scope)
  | registerAll (styles : StyleList) (scope : Scope)
  | beginVersion (version : String)
  | close
  | format (name : String)
  | snapshot
deriving DecidableEq, Repr

/-- The registry after a call, and the fault that the call met. -/
def Registry.perform (registry : Registry) : Registry.Call → Registry × Except Fault Unit
  | .register name style scope =>
    match registry.register name style scope with
    | .ok after => (after, .ok ())
    | .error fault => (registry, .error fault)
  | .registerAll styles scope => registry.registerAll scope styles
  | .beginVersion version => ((registry.beginVersion version).1, .ok ())
  | .close => (registry.seal, .ok ())
  | .format name => ((registry.format name).1, (registry.format name).2.map fun _ => ())
  | .snapshot => (registry.snapshot, .ok ())

/-- Calls one after the other, whether or not they meet faults. -/
def Registry.run (registry : Registry) (calls : List Registry.Call) : Registry :=
  calls.foldl (fun registry call => (registry.perform call).1) registry

/-- No call starts another version. -/
def Registry.StaysFor (registry : Registry) (calls : List Registry.Call) : Prop :=
  ∀ version, .beginVersion version ∈ calls → registry.version = some version

/-- All that can come of registering a style. -/
inductive Registry.Registering (registry : Registry) (name : String) (style : Style) :
    Scope → Except Fault Registry → Prop
  | known {scope} (found : registry.get? name = some style) : Registering registry name style scope (.ok registry)
  | conflict {scope known} (found : registry.get? name = some known) (different : known ≠ style) :
      Registering registry name style scope (.error (.styleConflict name known style))
  | permanent (missing : registry.get? name = none) :
      Registering registry name style .permanent (.ok (registry.withPermanent [(name, style)]))
  | versioned (missing : registry.get? name = none) (opened : registry.isSealed = false) :
      Registering registry name style .versioned
        (.ok { registry with versioned := registry.versioned ++ [(name, style)] })
  | closed (missing : registry.get? name = none) (closed : registry.isSealed = true) :
      Registering registry name style .versioned (.error (.sealedRegistry name registry.version))

/-- A registry of the same version that knows all that an earlier one knew. When that one was sealed, it is sealed
too and its versioned styles are the same. -/
structure Registry.Extends (before after : Registry) : Prop where
  version : after.version = before.version
  known : ∀ name style, before.get? name = some style → after.get? name = some style
  closed : before.isSealed = true → after.isSealed = true ∧ after.versioned = before.versioned

variable {registry before after : Registry} {name version : String} {style : Style} {scope : Scope}
  {styles : StyleList} {calls : List Registry.Call}

theorem lookupKey?_of_initial {κ α : Type} [DecidableEq κ] {key : κ} {value : α} {front whole : List (κ × α)}
    (initial : front <+: whole) (found : lookupKey? key front = some value) : lookupKey? key whole = some value := by
  obtain ⟨back, rfl⟩ := initial
  rw [lookupKey?_append, found, Option.some_or]

theorem Registry.get?_eq_none_iff : registry.get? name = none ↔ name ∉ registry.names := by
  rw [names, List.mem_append, ← contains_iff, contains, Bool.not_eq_true, Option.isSome_eq_false_iff,
    Option.isNone_iff_eq_none]

theorem Registry.get?_of_permanent (found : lookupKey? name registry.permanent = some style) :
    registry.get? name = some style := by
  rw [get?_eq_or, found, Option.some_or]

theorem Registry.registering_register (registry : Registry) (name : String) (style : Style) (scope : Scope) :
    registry.Registering name style scope (registry.register name style scope) := by
  cases found : registry.get? name with
  | some known =>
    rw [register_of_some found]
    by_cases same : known = style
    · rw [if_pos same]
      exact .known (same ▸ found)
    · rw [if_neg same]
      exact .conflict found same
  | none =>
    cases scope with
    | permanent =>
      rw [register_permanent_of_none found]
      exact .permanent found
    | versioned =>
      cases state : registry.isSealed with
      | true =>
        have refused : registry.register name style .versioned = .error (.sealedRegistry name registry.version) := by
          simp [register, found, state]
        rw [refused]
        exact .closed found state
      | false =>
        rw [register_new (by rw [contains, found]; rfl) state]
        exact .versioned found state

/-- What a registration that succeeds keeps, registering many styles keeps, also when it meets a fault. -/
theorem Registry.registerAll_keeps {motive : Registry → Prop}
    (each : ∀ registry name style after, motive registry → registry.register name style scope = .ok after → motive after)
    (started : motive registry) : motive (registry.registerAll scope styles).1 := by
  induction styles generalizing registry with
  | nil => exact started
  | cons entry rest ih =>
    obtain ⟨name, style⟩ := entry
    rw [registerAll]
    cases registered : registry.register name style scope with
    | ok after => exact ih (each registry name style after started registered)
    | error fault => exact started

theorem Registry.format_cases (registry : Registry) (name : String) :
    (registry.format name).1 = registry ∨
      ∃ formats, (registry.format name).1 = { registry with formats := formats } := by
  unfold Registry.format
  cases lookupKey? name registry.formats with
  | some format => exact Or.inl rfl
  | none =>
    cases registry.require name with
    | ok style => exact Or.inr ⟨_, rfl⟩
    | error fault => exact Or.inl rfl

/-- A call registers styles, starts another version, or changes neither styles nor version. -/
theorem Registry.perform_keeps {motive : Registry → Prop} {call : Registry.Call}
    (registers : ∀ registry name style scope after, motive registry →
      registry.register name style scope = .ok after → motive after)
    (renews : ∀ version, call = .beginVersion version → registry.version ≠ some version →
      motive (registry.beginVersion version).1)
    (rests : ∀ isSealed formats, (registry.isSealed = true → isSealed = true) →
      motive { registry with isSealed := isSealed, formats := formats }) : motive (registry.perform call).1 := by
  have started : motive registry := rests registry.isSealed registry.formats id
  cases call with
  | register name style scope =>
    rw [perform]
    cases registered : registry.register name style scope with
    | ok after => exact registers registry name style scope after started registered
    | error fault => exact started
  | registerAll styles scope =>
    exact registerAll_keeps (fun registry name style => registers registry name style scope) started
  | beginVersion version =>
    by_cases same : registry.version = some version
    · rw [perform, beginVersion_of_eq same]
      exact started
    · exact renews version rfl same
  | close => exact rests true registry.formats fun _ => rfl
  | format name =>
    rcases registry.format_cases name with same | ⟨formats, same⟩
    · rw [perform, same]
      exact started
    · rw [perform, same]
      exact rests registry.isSealed formats id
  | snapshot => exact rests registry.isSealed [] id

theorem Registry.run_keeps {motive : Registry → Prop}
    (each : ∀ registry, ∀ call ∈ calls, motive registry → motive (registry.perform call).1)
    (started : motive registry) : motive (registry.run calls) :=
  List.foldlRecOn calls _ started fun registry kept call member => each registry call member kept

theorem Registry.Extends.trans {middle : Registry} (first : before.Extends middle) (second : middle.Extends after) :
    before.Extends after := by
  refine ⟨second.version.trans first.version, fun name style found => ?_, fun closed => ?_⟩
  · exact second.known name style (first.known name style found)
  · obtain ⟨stillClosed, same⟩ := first.closed closed
    obtain ⟨closedAfter, sameAfter⟩ := second.closed stillClosed
    exact ⟨closedAfter, sameAfter.trans same⟩

theorem Registry.extends_register (registered : before.register name style scope = .ok after) :
    before.Extends after := by
  have outcome := before.registering_register name style scope
  rw [registered] at outcome
  cases outcome with
  | known => exact ⟨rfl, fun _ _ found => found, fun closed => ⟨closed, rfl⟩⟩
  | permanent missing =>
    refine ⟨rfl, fun other known found => ?_, fun closed => ⟨closed, rfl⟩⟩
    have different : name ≠ other := by
      rintro rfl
      cases missing.symm.trans found
    rwa [get?_withPermanent_of_ne different]
  | versioned missing opened =>
    refine ⟨rfl, fun other known found => ?_, fun closed => ?_⟩
    · rw [get?_eq_or] at found ⊢
      rw [lookupKey?_append, ← Option.or_assoc, found, Option.some_or]
    · cases opened.symm.trans closed

theorem Registry.extends_perform {call : Registry.Call} (stays : registry.StaysFor [call]) :
    registry.Extends (registry.perform call).1 := by
  refine perform_keeps (motive := registry.Extends) ?_ ?_ ?_
  · intro current name style scope after extended registered
    exact extended.trans (extends_register registered)
  · rintro version rfl stale
    exact absurd (stays version (List.mem_singleton_self _)) stale
  · intro isSealed formats closes
    exact ⟨rfl, fun _ _ found => found, fun closed => ⟨closes closed, rfl⟩⟩

theorem Registry.extends_run (stays : registry.StaysFor calls) : registry.Extends (registry.run calls) := by
  refine run_keeps (motive := registry.Extends) ?_ ⟨rfl, fun _ _ found => found, fun closed => ⟨closed, rfl⟩⟩
  intro current call member extended
  refine extended.trans (extends_perform fun version asked => ?_)
  rw [extended.version]
  exact stays version (List.mem_singleton.mp asked ▸ member)

theorem Registry.permanent_register (registered : before.register name style scope = .ok after) :
    before.permanent <+: after.permanent := by
  have outcome := before.registering_register name style scope
  rw [registered] at outcome
  cases outcome with
  | known => exact List.prefix_rfl
  | permanent => exact List.prefix_append ..
  | versioned => exact List.prefix_rfl

theorem Registry.permanent_perform (registry : Registry) (call : Registry.Call) :
    registry.permanent <+: (registry.perform call).1.permanent := by
  refine perform_keeps (motive := fun after => registry.permanent <+: after.permanent) ?_ ?_ ?_
  · intro current name style scope after kept registered
    exact kept.trans (permanent_register registered)
  · intro version _ stale
    obtain ⟨opened, begun, permanent, _⟩ := beginVersion_of_ne stale
    have same : registry.permanent = (registry.beginVersion version).1.permanent := by rw [begun, permanent]
    exact same ▸ List.prefix_rfl
  · intro _ _ _
    exact List.prefix_rfl

theorem Registry.permanent_run (registry : Registry) (calls : List Registry.Call) :
    registry.permanent <+: (registry.run calls).permanent :=
  run_keeps (motive := fun current => registry.permanent <+: current.permanent)
    (fun current call _ kept => kept.trans (current.permanent_perform call)) List.prefix_rfl

theorem Registry.nodup_register (distinct : before.names.Nodup)
    (registered : before.register name style scope = .ok after) : after.names.Nodup := by
  have outcome := before.registering_register name style scope
  rw [registered] at outcome
  cases outcome with
  | known => exact distinct
  | permanent missing =>
    have moved : (before.withPermanent [(name, style)]).names.Perm (name :: before.names) := by
      rw [names, names, withPermanent, List.map_append, List.append_assoc]
      exact List.perm_middle
    exact moved.nodup_iff.mpr (List.nodup_cons.mpr ⟨get?_eq_none_iff.mp missing, distinct⟩)
  | versioned missing =>
    have grown : Registry.names { before with versioned := before.versioned ++ [(name, style)] } =
        before.names ++ [name] := by
      rw [names, names, List.map_append, ← List.append_assoc]
      rfl
    rw [grown]
    exact List.concat_eq_append ▸ distinct.concat (get?_eq_none_iff.mp missing)

theorem Registry.nodup_perform (distinct : registry.names.Nodup) (call : Registry.Call) :
    (registry.perform call).1.names.Nodup := by
  refine perform_keeps (motive := fun after => after.names.Nodup) ?_ ?_ ?_
  · intro current name style scope after kept registered
    exact nodup_register kept registered
  · intro version _ stale
    obtain ⟨opened, begun, permanent, versioned, _⟩ := beginVersion_of_ne stale
    rw [begun, names, permanent, versioned, List.map_nil, List.append_nil]
    exact (List.nodup_append'.mp distinct).1
  · intro _ _ _
    exact distinct

/-- However a registry came about, each id is defined once, in one of the two scopes. -/
theorem Registry.nodup_run (styles : StyleList) (calls : List Registry.Call) :
    ((Registry.ofStyles styles).1.run calls).names.Nodup := by
  have started : (Registry.ofStyles styles).1.names.Nodup :=
    registerAll_keeps (motive := fun registry => registry.names.Nodup)
      (fun _ _ _ _ distinct registered => nodup_register distinct registered) .nil
  exact run_keeps (motive := fun registry => registry.names.Nodup)
    (fun _ call _ distinct => nodup_perform distinct call) started

/-- Another version forgets the versioned styles, and nothing else. -/
theorem Registry.get?_beginVersion (distinct : registry.names.Nodup) (stale : registry.version ≠ some version)
    (name : String) : (registry.beginVersion version).1.get? name =
      if name ∈ registry.versioned.map (·.1) then none else registry.get? name := by
  obtain ⟨opened, begun, permanent, versioned, _⟩ := beginVersion_of_ne stale
  have left : opened.get? name = lookupKey? name registry.permanent := by
    rw [get?_of_unversioned (by simp [versioned]), permanent]
  rw [begun, left]
  split
  · rename_i member
    exact lookupKey?_eq_none_iff.mpr fun fixed => (List.nodup_append'.mp distinct).2.2 fixed member
  · rename_i absent
    exact (get?_of_unversioned absent).symm

/-- However a registry came about from permanent styles, no id is in both scopes, and a registration that meets a fault
changes nothing. A definition stays until the version changes, and for ever when it is permanent; in a sealed registry
versioned styles neither come nor go until then. Another version takes away just the versioned styles and opens the
registry; the current one changes nothing. -/
theorem Registry.run_scopes (styles : StyleList) (calls : List Registry.Call) :
    let registry := (Registry.ofStyles styles).1.run calls
    registry.names.Nodup ∧
    (∀ name ∈ registry.permanent.map (·.1), name ∉ registry.versioned.map (·.1)) ∧
    (∀ name style scope fault, (registry.perform (.register name style scope)).2 = .error fault →
      (registry.perform (.register name style scope)).1 = registry) ∧
    (∀ later, registry.StaysFor later →
      (∀ name style, registry.get? name = some style → (registry.run later).get? name = some style) ∧
      (registry.isSealed = true →
        (registry.run later).isSealed = true ∧ (registry.run later).versioned = registry.versioned)) ∧
    (∀ later name style, lookupKey? name registry.permanent = some style →
      lookupKey? name (registry.run later).permanent = some style ∧ (registry.run later).get? name = some style) ∧
    (∀ version, registry.version ≠ some version →
      ∃ opened, registry.beginVersion version = (opened, true) ∧ opened.permanent = registry.permanent ∧
        opened.versioned = [] ∧ opened.version = some version ∧ opened.isSealed = false ∧
        ∀ name, opened.get? name = if name ∈ registry.versioned.map (·.1) then none else registry.get? name) ∧
    (∀ version, registry.version = some version → registry.beginVersion version = (registry, false)) := by
  intro registry
  have distinct : registry.names.Nodup := nodup_run styles calls
  refine ⟨distinct, fun name fixed => (List.nodup_append'.mp distinct).2.2 fixed, ?_, ?_, ?_, ?_, ?_⟩
  · intro name style scope fault met
    rw [perform] at met ⊢
    cases registered : registry.register name style scope with
    | ok after =>
      rw [registered] at met
      cases met
    | error fault => rfl
  · intro later stays
    have extended : registry.Extends (registry.run later) := extends_run stays
    exact ⟨extended.known, extended.closed⟩
  · intro later name style fixed
    have kept := lookupKey?_of_initial (registry.permanent_run later) fixed
    exact ⟨kept, get?_of_permanent kept⟩
  · intro version stale
    obtain ⟨opened, begun, permanent, versioned, current, unsealed⟩ := beginVersion_of_ne stale
    refine ⟨opened, begun, permanent, versioned, current, unsealed, fun name => ?_⟩
    rw [← get?_beginVersion distinct stale, begun]
  · intro version same
    exact beginVersion_of_eq same

/-- A version is begun, filled and closed. -/
def closingCalls : List Registry.Call :=
  [.beginVersion "v1", .register "color.fff" (.paper "#ffffff") .versioned, .close]

/-- What is asked then: a new versioned style, other definitions, new permanent styles, and the same version again. -/
def refusedCalls : List Registry.Call :=
  [.register "color.abc" (.paper "#aabbcc") .versioned, .format "color.fff", .format "color.abc",
    .registerAll [("blame.author.a", .paper "#111111"), ("keyword", .paper "#111111")] .permanent,
    .beginVersion "v1", .snapshot, .register "color.fff" (.paper "#111111") .permanent]

theorem Registry.run_scopes_closed :
    let registry := (Registry.ofStyles darkStyles).1.run closingCalls
    registry.isSealed = true ∧ (registry.run refusedCalls).versioned = [("color.fff", .paper "#ffffff")] ∧
    (registry.run refusedCalls).get? "keyword" = some (Style.ink "#FF7B72").heavy ∧
    ∃ opened, registry.beginVersion "v2" = (opened, true) ∧ opened.get? "color.fff" = none := by
  intro registry
  have isSealed : registry.isSealed = true := by decide +kernel
  have versioned : registry.versioned = [("color.fff", .paper "#ffffff")] := by decide +kernel
  have fixed : lookupKey? "keyword" registry.permanent = some (Style.ink "#FF7B72").heavy := by decide +kernel
  have stays : registry.StaysFor refusedCalls := by
    intro version asked
    have same : version = "v1" := by simpa [refusedCalls] using asked
    rw [same]
    decide +kernel
  obtain ⟨_, _, _, keeps, forever, renewed, _⟩ := Registry.run_scopes darkStyles closingCalls
  obtain ⟨opened, begun, _, _, _, _, left⟩ := renewed "v2" (by decide +kernel)
  refine ⟨isSealed, ?_, (forever refusedCalls _ _ fixed).2, opened, begun, ?_⟩
  · rw [← versioned]
    exact ((keeps refusedCalls stays).2 isSealed).2
  · rw [left, if_pos]
    change "color.fff" ∈ registry.versioned.map (·.1)
    rw [versioned]
    exact List.mem_singleton_self _

end Marginalia
