import Marginalia.Proofs.DeskCache
import Marginalia.Proofs.SwatchedSessions

namespace Marginalia

variable {session : Session}

theorem Session.Colorless.event (colorless : session.Colorless) (event : Event) :
    Desk.takes { session := session } (.event event) = true ∧ (session.step event).1.Colorless := by
  cases event with
  | setContent content filetype =>
    obtain ⟨after, changed, taken, kept⟩ := colorless.setContent content filetype
    have shows : (session.step (.setContent content filetype)).1 = after := congrArg Prod.fst taken
    have outcome : (session.setContent content filetype).2 = .ok changed := congrArg Prod.snd taken
    rw [shows, Desk.takes, outcome]
    exact ⟨rfl, kept⟩
  | _ => exact ⟨rfl, colorless.of_continues (session.continues_step rfl)⟩

theorem Desk.colorless_use {desk : Desk} (colorless : desk.session.Colorless) {use : Use}
    (unstyled : ∀ registry, use ≠ .restyle registry) :
    desk.takes use = true ∧ (desk.use use).session.Colorless := by
  cases use with
  | event event => exact colorless.event event
  | restyle registry => exact absurd rfl (unstyled registry)
  | _ =>
    obtain ⟨cache, frame⟩ := desk.use_frame (by simp) unstyled
    rw [frame]
    exact ⟨rfl, colorless⟩

/-- A viewer whose styles are left alone takes every content, unless its sheet defines ids of color literals. -/
theorem Desk.takesAll_of_colorless {desk : Desk} (colorless : desk.session.Colorless) {uses : List Use}
    (unstyled : ∀ registry, Use.restyle registry ∉ uses) : desk.takesAll uses = true := by
  induction uses generalizing desk with
  | nil => rfl
  | cons use rest ih =>
    have here : ∀ registry, use ≠ .restyle registry := fun registry same =>
      unstyled registry (same ▸ List.mem_cons_self ..)
    obtain ⟨taken, next⟩ := Desk.colorless_use colorless here
    exact Bool.and_eq_true_iff.mpr ⟨taken, ih next fun registry member =>
      unstyled registry (List.mem_cons_of_mem _ member)⟩

end Marginalia
