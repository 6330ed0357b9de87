import Marginalia.Text.LowerCase

namespace Marginalia

/-- Lower-case letters that share a capital with an earlier lower-case letter, and that letter. -/
def caseTwins : List (Nat × Nat) := [
  (0x131, 0x69), (0x17F, 0x73), (0x3B9, 0x345), (0x3BC, 0xB5), (0x3C3, 0x3C2), (0x3D0, 0x3B2),
  (0x3D1, 0x3B8), (0x3D5, 0x3C6), (0x3D6, 0x3C0), (0x3F0, 0x3BA), (0x3F1, 0x3C1), (0x3F5, 0x3B5),
  (0x1C80, 0x432), (0x1C81, 0x434), (0x1C82, 0x43E), (0x1C83, 0x441), (0x1C84, 0x442),
  (0x1C85, 0x442), (0x1C86, 0x44A), (0x1C87, 0x463), (0x1E9B, 0x1E61), (0x1FBE, 0x345),
  (0x1FD3, 0x390), (0x1FE3, 0x3B0), (0xA64B, 0x1C88), (0xFB06, 0xFB05)]

/-- The representative of all characters that differ from `char` in case only. -/
def foldChar (char : Char) : Char :=
  let lowered := lowerChar char
  match caseTwins.find? fun (twin, _) => twin == lowered.toNat with
  | some (_, first) => Char.ofNat first
  | none => lowered

/-- Two characters are the same letter when they differ in case at most. -/
def sameLetter (left right : Char) : Bool :=
  foldChar left == foldChar right

theorem sameLetter_refl (char : Char) : sameLetter char char = true := by
  simp [sameLetter]

theorem sameLetter_comm (left right : Char) : sameLetter left right = sameLetter right left := by
  simp only [sameLetter]
  exact Bool.beq_comm

/-- Whether `text` starts with `term`, letter case aside. -/
def startsWithFold : List Char → List Char → Bool
  | [], _ => true
  | _ :: _, [] => false
  | wanted :: term, char :: text => sameLetter wanted char && startsWithFold term text

theorem startsWithFold_length_le {term text : List Char} (starts : startsWithFold term text = true) :
    term.length ≤ text.length := by
  induction term generalizing text with
  | nil => simp
  | cons wanted term ih =>
    cases text with
    | nil => simp [startsWithFold] at starts
    | cons char text =>
      simp only [startsWithFold, Bool.and_eq_true] at starts
      have := ih starts.2
      simp only [List.length_cons]
      omega

end Marginalia
