import Marginalia.Proofs.BracketHeights
import Marginalia.Proofs.Tallies
import Mathlib.Order.Bounds.Basic

namespace Marginalia

variable {content : Content} {bracket : Bracket}

/-- The ends of the pairs of a type. -/
def Bracket.enclosed (bracket : Bracket) (content : Content) : Set (Nat × Nat) :=
  {ends | bracket.Encloses content ends.1 ends.2}

/-- How many more openers than closers of some type stand in code before some place. -/
def bracketHeights (content : Content) : Set Int :=
  {height | ∃ (bracket : Bracket) (place : Nat), place ≤ content.length ∧
    height = codeCount content bracket.opener place - codeCount content bracket.closer place}

theorem foldl_bracketCounts (pairs : List BracketPair) :
    pairs.foldl BracketCounts.add ⟨0, [], 0⟩ =
      ⟨pairs.length, tallied (·.bracket) (fun _ => 1) pairs, (pairs.map (·.depth + 1)).foldl max 0⟩ := by
  induction pairs using List.reverseRecOn with
  | nil => rfl
  | append_singleton pairs pair ih =>
    rw [List.foldl_concat, ih, BracketCounts.add, tallied_concat, List.map_append, List.map_singleton,
      List.foldl_concat, List.length_append, List.length_singleton]

theorem countBrackets_total (content : Content) : (countBrackets content).total = (bracketPairs content).length := by
  rw [countBrackets, foldl_bracketCounts]

theorem countBrackets_byType (content : Content) :
    (countBrackets content).byType = tallied (·.bracket) (fun _ => 1) (bracketPairs content) := by
  rw [countBrackets, foldl_bracketCounts]

/-- The deepest pair gives the greatest depth, and without pairs it is zero. -/
theorem countBrackets_maxDepth (content : Content) :
    ((countBrackets content).maxDepth = 0 ∨
      ∃ pair ∈ bracketPairs content, (countBrackets content).maxDepth = pair.depth + 1) ∧
    ∀ pair ∈ bracketPairs content, pair.depth + 1 ≤ (countBrackets content).maxDepth := by
  have greatest : (0 :: (bracketPairs content).map (·.depth + 1)).max? = some (countBrackets content).maxDepth := by
    rw [countBrackets, foldl_bracketCounts]
    exact List.max?_cons'
  obtain ⟨attained, bound⟩ := List.max?_eq_some_iff.mp greatest
  constructor
  · refine (List.mem_cons.mp attained).imp id fun member => ?_
    obtain ⟨pair, inPairs, same⟩ := List.mem_map.mp member
    exact ⟨pair, inPairs, same.symm⟩
  · intro pair member
    exact bound _ (List.mem_cons_of_mem _ (List.mem_map_of_mem member))

theorem Bracket.ncard_enclosed (bracket : Bracket) (content : Content) :
    (bracket.enclosed content).ncard = ((bracketPairs content).filter (·.bracket = bracket)).length := by
  have apart : (((bracketPairs content).filter (·.bracket = bracket)).map fun pair => (pair.opened, pair.closed)).Nodup :=
    List.pairwise_map.mpr <| ((bracketPairs_increasing content).filter _).imp fun less same =>
      less.ne (congrArg Prod.snd same)
  have same : bracket.enclosed content =
      (((bracketPairs content).filter (·.bracket = bracket)).map fun pair => (pair.opened, pair.closed)).toFinset := by
    ext ⟨opened, closed⟩
    rw [List.coe_toFinset, Set.mem_ofPred_eq, List.mem_map]
    constructor
    · intro encloses
      obtain ⟨depth, member⟩ := mem_bracketPairs_iff.mpr encloses
      exact ⟨_, List.mem_filter.mpr ⟨member, decide_eq_true rfl⟩, rfl⟩
    · rintro ⟨pair, inFilter, ends⟩
      obtain ⟨member, named⟩ := List.mem_filter.mp inFilter
      cases ends
      obtain rfl := of_decide_eq_true named
      exact encloses_of_mem member
  rw [same, Set.ncard_coe_finset, List.toFinset_card_of_nodup apart, List.length_map]

/-- If all openers of a type are closed, there are as many pairs as openers. -/
theorem Bracket.AllMatched.ncard_enclosed (matched : bracket.AllMatched content) :
    (bracket.enclosed content).ncard = codeCount content bracket.opener content.length := by
  have apart : (((bracketPairs content).filter (·.bracket = bracket)).map (·.opened)).Nodup := by
    refine List.pairwise_map.mpr (List.Pairwise.filter _ ((bracketPairs_increasing content).imp_of_mem ?_))
    intro left right inLeft inRight less
    exact (encloses_of_mem inLeft).opened_ne (encloses_of_mem inRight) less
  rw [bracket.ncard_enclosed, codeCount_eq_length apart, List.length_map]
  intro opened
  rw [List.mem_map]
  constructor
  · rintro ⟨pair, inFilter, rfl⟩
    obtain ⟨member, named⟩ := List.mem_filter.mp inFilter
    obtain rfl := of_decide_eq_true named
    have encloses := encloses_of_mem member
    exact ⟨(List.getElem?_eq_some_iff.mp encloses.atOpened).1, encloses.atOpened, encloses.openedInCode⟩
  · rintro ⟨_, stands, free⟩
    obtain ⟨closed, encloses⟩ := matched.openers opened stands free
    obtain ⟨depth, member⟩ := mem_bracketPairs_iff.mpr encloses
    exact ⟨_, List.mem_filter.mpr ⟨member, decide_eq_true rfl⟩, rfl⟩

/-- A type has a count if it has pairs, and the count is the number of its pairs. -/
theorem lookupKey?_byType {count : Nat} :
    lookupKey? bracket (countBrackets content).byType = some count ↔
      count = (bracket.enclosed content).ncard ∧ 0 < count := by
  have present : bracket ∈ (bracketPairs content).map (·.bracket) ↔
      0 < ((bracketPairs content).filter (·.bracket = bracket)).length := by
    rw [List.length_filter_pos_iff, List.mem_map]
    simp only [decide_eq_true_eq]
  rw [countBrackets_byType, lookupKey?_tallied, bracket.ncard_enclosed, List.map_const',
    List.sum_replicate_nat, Nat.mul_one]
  simp only [present]
  split
  · rename_i some
    rw [Option.some_inj]
    omega
  · rename_i none
    simp only [reduceCtorEq, false_iff]
    omega

theorem length_eq_sum_types (pairs : List BracketPair) :
    pairs.length = (Bracket.all.map fun bracket => (pairs.filter (·.bracket = bracket)).length).sum := by
  induction pairs with
  | nil => rfl
  | cons pair rest ih =>
    obtain ⟨opened, closed, bracket, depth⟩ := pair
    simp only [Bracket.all, List.map_cons, List.map_nil, List.sum_cons, List.sum_nil, List.length_cons] at ih ⊢
    cases bracket <;> simp <;> omega

/-- With all brackets matched the greatest depth is the greatest height. -/
theorem isGreatest_maxDepth (matched : ∀ bracket : Bracket, bracket.AllMatched content) :
    IsGreatest (bracketHeights content) (countBrackets content).maxDepth := by
  obtain ⟨attained, bound⟩ := countBrackets_maxDepth content
  constructor
  · rcases attained with none | ⟨pair, member, deepest⟩
    · refine ⟨.round, 0, Nat.zero_le _, ?_⟩
      simp [none, codeCount]
    · have below := (List.getElem?_eq_some_iff.mp (encloses_of_mem member).atClosed).1
      refine ⟨pair.bracket, pair.closed, below.le, ?_⟩
      have height := (matched pair.bracket).length_pending pair.closed
      obtain ⟨waits, deep⟩ := pending_of_mem member
      rw [waits, List.length_cons, ← deep, ← deepest] at height
      omega
  · rintro height ⟨bracket, place, _, rfl⟩
    have height := (matched bracket).length_pending place
    rcases (matched bracket).length_pending_le place with none | ⟨pair, member, deep⟩
    · rw [none, List.length_nil] at height
      omega
    · have deepest := bound pair member
      omega

/-- The counts are those of the enclosing brackets, with the types in the order of their first closers. If all
brackets in code are matched, they are the numbers of openers in code, and the depth is the greatest height. -/
theorem countBrackets_exact (content : Content) :
    (countBrackets content).total = ((countBrackets content).byType.map (·.2)).sum ∧
    ((countBrackets content).byType.map (·.1)).Nodup ∧
    (∀ bracket count, lookupKey? bracket (countBrackets content).byType = some count ↔
      count = (bracket.enclosed content).ncard ∧ 0 < count) ∧
    ((countBrackets content).byType.map (·.1)).Pairwise (fun left right =>
      ∃ opened closed, left.Encloses content opened closed ∧
        ∀ opened' closed', right.Encloses content opened' closed' → closed < closed') ∧
    (∀ bracket, bracket.AllMatched content → ∀ count,
      lookupKey? bracket (countBrackets content).byType = some count ↔
        count = codeCount content bracket.opener content.length ∧ 0 < count) ∧
    ((∀ bracket : Bracket, bracket.AllMatched content) →
      (countBrackets content).total =
        (Bracket.all.map fun bracket => codeCount content bracket.opener content.length).sum ∧
      IsGreatest (bracketHeights content) (countBrackets content).maxDepth) := by
  refine ⟨?_, ?_, fun bracket count => lookupKey?_byType, ?_, fun bracket matched count => ?_, fun matched => ⟨?_, ?_⟩⟩
  · rw [countBrackets_total, countBrackets_byType, sum_tallied, List.map_const',
      List.sum_replicate_nat, Nat.mul_one]
  · rw [countBrackets_byType]
    exact nodup_tallied _
  · rw [countBrackets_byType, map_fst_tallied]
    refine (pairwise_eraseDups_map (bracketPairs_increasing content)).imp ?_
    rintro left right ⟨first, member, rfl, least⟩
    refine ⟨first.opened, first.closed, encloses_of_mem member, fun opened closed encloses => ?_⟩
    obtain ⟨depth, later⟩ := mem_bracketPairs_iff.mpr encloses
    exact least _ later rfl
  · rw [lookupKey?_byType, matched.ncard_enclosed]
  · rw [countBrackets_total, length_eq_sum_types]
    refine congrArg List.sum (List.map_congr_left fun bracket _ => ?_)
    rw [← bracket.ncard_enclosed, (matched bracket).ncard_enclosed]
  · exact isGreatest_maxDepth matched

/-- The bracket in the string counts neither as an opener nor for the height. -/
theorem countBrackets_exact_call :
    (∀ bracket : Bracket, bracket.AllMatched "f([1], \"(\", {2}) ((x))".toList) ∧
    countBrackets "f([1], \"(\", {2}) ((x))".toList = ⟨5, [(.square, 1), (.curly, 1), (.round, 3)], 2⟩ ∧
    codeCount "f([1], \"(\", {2}) ((x))".toList '(' 22 = 3 ∧
    IsGreatest (bracketHeights "f([1], \"(\", {2}) ((x))".toList) 2 := by
  have matched : ∀ bracket : Bracket, bracket.AllMatched "f([1], \"(\", {2}) ((x))".toList := by
    rintro (_ | _ | _ | _) <;> decide +kernel
  have counts : countBrackets "f([1], \"(\", {2}) ((x))".toList = ⟨5, [(.square, 1), (.curly, 1), (.round, 3)], 2⟩ := by
    decide +kernel
  have exact := countBrackets_exact "f([1], \"(\", {2}) ((x))".toList
  rw [counts] at exact
  obtain ⟨_, _, _, _, openers, allMatched⟩ := exact
  exact ⟨matched, counts, ((openers .round (matched .round) 3).mp (by decide)).1.symm, (allMatched matched).2⟩

end Marginalia
