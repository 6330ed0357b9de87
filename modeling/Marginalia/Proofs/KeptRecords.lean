import Marginalia.Attribution.Index
import Marginalia.Proofs.OrderedItems
import Marginalia.Proofs.WrittenNumerals
import Mathlib.Algebra.Ring.Int.Defs
import Mathlib.Data.List.Induction
import Mathlib.Data.List.TakeWhile

namespace Marginalia

/-- A record joins others when it has lines and overlaps none of them. -/
def Record.Joins (record : Record) (kept : List Record) : Prop :=
  record.start < record.stop ∧ ∀ other ∈ kept, record.overlaps other = false

/-- A record runs into others when it has lines and overlaps one of them. -/
def Record.RunsInto (record : Record) (kept : List Record) : Prop :=
  record.start < record.stop ∧ ∃ other ∈ kept, record.overlaps other = true

instance (record : Record) (kept : List Record) : Decidable (record.Joins kept) :=
  inferInstanceAs (Decidable (_ ∧ _))

/-- A walk through records that keeps each one that joins those kept before. -/
structure GreedyWalk where
  kept : List Record := []
  dropped : List Record := []

def GreedyWalk.next (walk : GreedyWalk) (record : Record) : GreedyWalk :=
  if record.Joins walk.kept then { walk with kept := walk.kept ++ [record] }
  else { walk with dropped := walk.dropped ++ [record] }

def greedyWalk (records : List Record) : GreedyWalk :=
  records.foldl GreedyWalk.next {}

/-- What a walk leads to: its kept records sorted by their starts, and its dropped ones. -/
def GreedyWalk.result (walk : GreedyWalk) : Attribution where
  records := walk.kept.mergeSort fun left right => left.start ≤ right.start
  dropped := walk.dropped

/-- The numbers that tell why a record is not kept: its bounds, and for a record with lines the bounds of the first kept
one, in the order of lines, that it overlaps. -/
def GreedyWalk.reasons (walk : GreedyWalk) (record : Record) : List Int :=
  record.bounds ++
    if record.isEmpty then []
    else (walk.result.records.find? (·.overlaps record)).toList.flatMap Record.bounds

/-- A record is not kept, and one of the numbers that tell why has too many digits to be written. -/
def GreedyWalk.Breaks (walk : GreedyWalk) (record : Record) : Prop :=
  ¬record.Joins walk.kept ∧ ∃ number ∈ walk.reasons record, isWritable number = false

/-- A walk comes to a record that it can neither keep nor tell why. -/
def GreedyBreak (records : List Record) : Prop :=
  ∃ before record after, records = before ++ record :: after ∧ (greedyWalk before).Breaks record

/-- Some record on the way runs into those that were kept before it. -/
def GreedyClash (records : List Record) : Prop :=
  ∃ before record after, records = before ++ record :: after ∧ record.RunsInto (greedyWalk before).kept

/-- Records with lines, each one behind the one in front of it. -/
structure InLineOrder (records : List Record) : Prop where
  lines : ∀ record ∈ records, record.start < record.stop
  ordered : records.Pairwise fun left right => left.stop ≤ right.start

variable {records : List Record} {record : Record} {attribution : Attribution} {walk : GreedyWalk}

theorem Record.overlaps_iff {left right : Record} :
    left.overlaps right = true ↔ left.start < right.stop ∧ right.start < left.stop := by
  simp [overlaps]

theorem Record.overlaps_comm (left right : Record) : left.overlaps right = right.overlaps left :=
  Bool.and_comm ..

theorem Record.isEmpty_iff : record.isEmpty = true ↔ ¬record.start < record.stop := by
  simp [isEmpty]

/-- A record with lines joins others unless it runs into them. -/
theorem Record.joins_iff (lines : record.start < record.stop) {kept : List Record} :
    record.Joins kept ↔ ¬record.RunsInto kept := by
  simp [Joins, RunsInto, lines]

theorem Record.joins_congr {kept others : List Record} (same : kept.Perm others) :
    record.Joins kept ↔ record.Joins others := by
  simp only [Joins, same.mem_iff]

theorem InLineOrder.starts_increase (order : InLineOrder records) :
    records.Pairwise fun left right => left.start < right.start := by
  refine order.ordered.imp_of_mem fun {left right} inLeft _ behind => ?_
  have nonempty := order.lines left inLeft
  omega

/-- A start cuts records in line order into those that start in front of it and those that do not. -/
theorem InLineOrder.cut (order : InLineOrder records) (start : Int) :
    ∃ lower upper, (records.takeWhile fun other => other.start < start) = lower ∧
      (records.dropWhile fun other => other.start < start) = upper ∧ records = lower ++ upper ∧
      (∀ other ∈ lower, other.start < start) ∧ ∀ other ∈ upper, start ≤ other.start := by
  refine ⟨_, _, rfl, rfl, List.takeWhile_append_dropWhile.symm, fun other member => ?_, fun other member => ?_⟩
  · simpa using List.mem_takeWhile_imp member
  · have increasing := order.starts_increase.sublist
      (List.dropWhile_sublist fun other => decide (other.start < start))
    have first := List.head?_dropWhile_not (fun other => decide (other.start < start)) records
    cases found : records.dropWhile fun other => decide (other.start < start) with
    | nil =>
      rw [found] at member
      cases member
    | cons head rest =>
      rw [found] at member increasing first
      have bound : start ≤ head.start := by simpa using first
      rcases List.mem_cons.mp member with rfl | later
      · exact bound
      · have behind := (List.pairwise_cons.mp increasing).1 other later
        omega

/-- In front of a start only the last record in line order can overlap a record from there. -/
theorem InLineOrder.find?_inFront (order : InLineOrder records)
    (inFront : ∀ other ∈ records, other.start < record.start) :
    records.find? (·.overlaps record) = records.getLast?.toList.find? (·.overlaps record) := by
  obtain rfl | ⟨init, last, rfl⟩ := List.eq_nil_or_concat' records
  · rfl
  · have clear : init.find? (·.overlaps record) = none := by
      refine List.find?_eq_none.mpr fun other member => ?_
      have behind := (List.pairwise_append.mp order.ordered).2.2 other member last (List.mem_singleton_self last)
      have bound := inFront last (by simp)
      rw [Record.overlaps_iff]
      omega
    rw [List.find?_append, clear, Option.none_or, List.getLast?_concat, Option.toList_some]

/-- From a start on only the first record in line order can overlap a record from there. -/
theorem InLineOrder.find?_behind (order : InLineOrder records)
    (behind : ∀ other ∈ records, record.start ≤ other.start) :
    records.find? (·.overlaps record) = records.head?.toList.find? (·.overlaps record) := by
  cases records with
  | nil => rfl
  | cons first rest =>
    by_cases meets : first.overlaps record = true
    · simp [meets]
    · have clear : rest.find? (·.overlaps record) = none := by
        refine List.find?_eq_none.mpr fun other member => ?_
        have increasing := (List.pairwise_cons.mp order.ordered).1 other member
        have bound := behind first (List.mem_cons_self ..)
        have nonempty := order.lines first (List.mem_cons_self ..)
        rw [Record.overlaps_iff] at meets ⊢
        omega
      simp [meets, clear]

theorem InLineOrder.of_append {front back : List Record} (order : InLineOrder (front ++ back)) :
    InLineOrder front ∧ InLineOrder back := by
  obtain ⟨lines, ordered⟩ := order
  rw [List.forall_mem_append] at lines
  rw [List.pairwise_append] at ordered
  exact ⟨⟨lines.1, ordered.1⟩, ⟨lines.2, ordered.2.1⟩⟩

/-- Among records in line order the two around the start of a record tell the first one that it overlaps. -/
theorem InLineOrder.clash?_eq_find? (order : InLineOrder attribution.records) (record : Record) :
    attribution.clash? record = attribution.records.find? (·.overlaps record) := by
  obtain ⟨lower, upper, takes, drops, whole, inFront, behind⟩ := order.cut record.start
  unfold Attribution.clash?
  dsimp only
  rw [takes, drops]
  rw [whole] at order ⊢
  obtain ⟨lowerOrder, upperOrder⟩ := order.of_append
  rw [List.find?_append, List.find?_append, lowerOrder.find?_inFront inFront, upperOrder.find?_behind behind]

theorem InLineOrder.clash?_eq_none_iff (order : InLineOrder attribution.records) (lines : record.start < record.stop) :
    attribution.clash? record = none ↔ record.Joins attribution.records := by
  rw [order.clash?_eq_find?, List.find?_eq_none]
  simp only [Record.Joins, lines, true_and, Bool.not_eq_true, Record.overlaps_comm]

/-- A record that joins the others has its place among them. -/
theorem InLineOrder.place (order : InLineOrder attribution.records) (joins : record.Joins attribution.records) :
    InLineOrder (attribution.place record).records ∧
      (attribution.place record).records.Perm (attribution.records ++ [record]) := by
  obtain ⟨lower, upper, takes, drops, whole, inFront, behind⟩ := order.cut record.start
  have places : (attribution.place record).records = lower ++ record :: upper := by
    rw [← takes, ← drops]
    rfl
  rw [places]
  rw [whole] at order joins ⊢
  have apart : ∀ other ∈ lower ++ upper, ¬(record.start < other.stop ∧ other.start < record.stop) := by
    intro other member
    rw [← Record.overlaps_iff, joins.2 other member]
    exact Bool.false_ne_true
  obtain ⟨lines, ordered⟩ := order
  rw [List.pairwise_append] at ordered
  obtain ⟨lowerOrdered, upperOrdered, across⟩ := ordered
  have nonempty := joins.1
  refine ⟨⟨?_, ?_⟩, ?_⟩
  · intro other member
    rcases List.mem_append.mp member with inLower | inUpper
    · exact lines other (List.mem_append_left _ inLower)
    · rcases List.mem_cons.mp inUpper with rfl | later
      · exact nonempty
      · exact lines other (List.mem_append_right _ later)
  · refine List.pairwise_append.mpr ⟨lowerOrdered, List.pairwise_cons.mpr ⟨?_, upperOrdered⟩, ?_⟩
    · intro other member
      have bound := behind other member
      have separate := apart other (List.mem_append_right _ member)
      have otherLines := lines other (List.mem_append_right _ member)
      omega
    · intro left inLower right inUpper
      rcases List.mem_cons.mp inUpper with rfl | later
      · have bound := inFront left inLower
        have separate := apart left (List.mem_append_left _ inLower)
        omega
      · exact across left inLower right later
  · exact List.perm_middle.trans (List.perm_append_singleton ..).symm

/-- An attribution that holds in line order what a walk has kept, and beside it what the walk has dropped. -/
structure Attribution.Follows (attribution : Attribution) (walk : GreedyWalk) : Prop where
  order : InLineOrder attribution.records
  kept : attribution.records.Perm walk.kept
  dropped : attribution.dropped = walk.dropped

theorem Attribution.Follows.place (follows : attribution.Follows walk) (joins : record.Joins walk.kept) :
    (attribution.place record).Follows (walk.next record) := by
  obtain ⟨order, placed⟩ := follows.order.place ((Record.joins_congr follows.kept).mpr joins)
  rw [GreedyWalk.next, if_pos joins]
  exact ⟨order, placed.trans (follows.kept.append_right _), follows.dropped⟩

theorem Attribution.Follows.drop (follows : attribution.Follows walk) (refused : ¬record.Joins walk.kept) :
    (attribution.drop record).Follows (walk.next record) := by
  rw [GreedyWalk.next, if_neg refused]
  refine ⟨follows.order, follows.kept, ?_⟩
  rw [Attribution.drop, follows.dropped]

/-- Records in line order are known by their starts. -/
theorem InLineOrder.eq_of_start_eq (order : InLineOrder records) {left right : Record} (inLeft : left ∈ records)
    (inRight : right ∈ records) (same : left.start = right.start) : left = right := by
  refine @eq_of_shared_place _ _ (fun record start => record.start = start) records ?_ _ _ inLeft inRight _ same rfl
  refine order.starts_increase.imp fun {left right} less start atLeft atRight => ?_
  omega

theorem Attribution.Follows.eq_result (follows : attribution.Follows walk) : attribution = walk.result := by
  have sorted := List.mergeSort_perm walk.kept fun left right => decide (left.start ≤ right.start)
  have ascending : walk.result.records.Pairwise fun left right => left.start ≤ right.start :=
    pairwise_mergeSort_key ..
  have same : attribution.records = walk.result.records := by
    refine List.Perm.eq_of_pairwise (fun left right inLeft inRight less more => ?_)
      (follows.order.starts_increase.imp Int.le_of_lt) ascending (follows.kept.trans sorted.symm)
    have inRecords := follows.kept.mem_iff.mpr (sorted.mem_iff.mp inRight)
    exact follows.order.eq_of_start_eq inLeft inRecords (Int.le_antisymm less more)
  calc attribution = ⟨attribution.records, attribution.dropped⟩ := rfl
    _ = walk.result := by
      rw [same, follows.dropped]
      rfl

theorem requireWritable_eq_ok {numbers : List Int} (written : ∀ number ∈ numbers, isWritable number = true) :
    requireWritable numbers = .ok () := by
  have found : numbers.find? (fun number => !isWritable number) = none := by simpa using written
  rw [requireWritable, found]

theorem requireWritable_eq_error {numbers : List Int} (long : ∃ number ∈ numbers, isWritable number = false) :
    ∃ number ∈ numbers, isWritable number = false ∧ requireWritable numbers = .error (.longNumeral number) := by
  have found : (numbers.find? fun number => !isWritable number).isSome := by simpa using long
  obtain ⟨number, first⟩ := Option.isSome_iff_exists.mp found
  refine ⟨number, List.mem_of_find?_eq_some first, by simpa using List.find?_some first, ?_⟩
  rw [requireWritable, first]

theorem Attribution.Follows.add_of_joins (follows : attribution.Follows walk) (strict : Bool)
    (joins : record.Joins walk.kept) : attribution.add strict record = .ok (attribution.place record) := by
  have clear := (follows.order.clash?_eq_none_iff joins.1).mpr ((Record.joins_congr follows.kept).mpr joins)
  rw [add, if_neg (by simpa [Record.isEmpty] using joins.1), clear]

/-- The reasons are written before a record without lines is dropped. -/
theorem Attribution.add_of_isEmpty (attribution : Attribution) (walk : GreedyWalk) (empty : record.isEmpty = true)
    (strict : Bool) : attribution.add strict record =
      (requireWritable (walk.reasons record)).map fun _ => attribution.drop record := by
  rw [add, if_pos empty, GreedyWalk.reasons, if_pos empty, List.append_nil]
  rfl

/-- The reasons are written before a record that runs into a kept one is dropped or a fault. -/
theorem Attribution.Follows.add_of_runsInto (follows : attribution.Follows walk) (strict : Bool)
    (meets : record.RunsInto walk.kept) : ∃ fault, fault.kind = "OverlappingAttributionError" ∧
      attribution.add strict record = requireWritable (walk.reasons record) >>= fun _ =>
        if strict then .error fault else .ok (attribution.drop record) := by
  have filled : ¬record.isEmpty = true := by simpa [Record.isEmpty] using meets.1
  have clash : attribution.clash? record = walk.result.records.find? (·.overlaps record) := by
    rw [← follows.eq_result]
    exact follows.order.clash?_eq_find? record
  obtain ⟨other, inKept, overlap⟩ := meets.2
  have found : (walk.result.records.find? (·.overlaps record)).isSome := by
    refine List.find?_isSome.mpr ⟨other, List.mem_mergeSort.mpr inKept, ?_⟩
    rw [Record.overlaps_comm]
    exact overlap
  obtain ⟨first, isFirst⟩ := Option.isSome_iff_exists.mp found
  refine ⟨.overlappingLines record.start record.stop first.start first.stop, rfl, ?_⟩
  rw [add, if_neg filled, clash, GreedyWalk.reasons, if_neg filled, isFirst, Option.toList_some, List.flatMap_singleton]
  rfl

theorem Record.joins_or (record : Record) (kept : List Record) :
    record.Joins kept ∨ record.isEmpty = true ∨ record.RunsInto kept := by
  by_cases lines : record.start < record.stop
  · rcases Classical.em (record.RunsInto kept) with meets | clear
    · exact Or.inr (Or.inr meets)
    · exact Or.inl ((joins_iff lines).mpr clear)
  · exact Or.inr (Or.inl (isEmpty_iff.mpr lines))

theorem Record.not_joins_of_isEmpty {kept : List Record} (empty : record.isEmpty = true) : ¬record.Joins kept :=
  fun joins => isEmpty_iff.mp empty joins.1

theorem Record.RunsInto.not_joins {kept : List Record} (meets : record.RunsInto kept) : ¬record.Joins kept :=
  fun joins => (joins_iff meets.1).mp joins meets

theorem GreedyWalk.writable_of_not_breaks (said : ¬walk.Breaks record) (refused : ¬record.Joins walk.kept) :
    requireWritable (walk.reasons record) = .ok () :=
  requireWritable_eq_ok fun _ member => Bool.eq_true_of_not_eq_false fun long => said ⟨refused, _, member, long⟩

/-- A record is placed or dropped as in the walk, unless it runs into a kept one and that is not allowed. -/
theorem Attribution.Follows.add (follows : attribution.Follows walk) (strict : Bool) (said : ¬walk.Breaks record) :
    (¬(strict = true ∧ record.RunsInto walk.kept) ∧
      ∃ after, attribution.add strict record = .ok after ∧ after.Follows (walk.next record)) ∨
    ((strict = true ∧ record.RunsInto walk.kept) ∧
      ∃ fault, attribution.add strict record = .error fault ∧ fault.kind = "OverlappingAttributionError") := by
  rcases record.joins_or walk.kept with joins | empty | meets
  · exact Or.inl ⟨fun clash => clash.2.not_joins joins, _, follows.add_of_joins strict joins, follows.place joins⟩
  · have refused : ¬record.Joins walk.kept := Record.not_joins_of_isEmpty empty
    have dropped := attribution.add_of_isEmpty walk empty strict
    rw [GreedyWalk.writable_of_not_breaks said refused] at dropped
    exact Or.inl ⟨fun clash => Record.isEmpty_iff.mp empty clash.2.1, _, dropped, follows.drop refused⟩
  · obtain ⟨fault, kind, outcome⟩ := follows.add_of_runsInto strict meets
    rw [GreedyWalk.writable_of_not_breaks said meets.not_joins] at outcome
    cases strict with
    | true => exact Or.inr ⟨⟨rfl, meets⟩, fault, outcome, kind⟩
    | false => exact Or.inl ⟨fun strictly => Bool.false_ne_true strictly.1, _, outcome, follows.drop meets.not_joins⟩

/-- Where the walk breaks, a number that cannot be written is the fault. -/
theorem Attribution.Follows.add_breaks (follows : attribution.Follows walk) (breaks : walk.Breaks record) :
    ∃ number ∈ walk.reasons record, isWritable number = false ∧
      ∀ strict, attribution.add strict record = .error (.longNumeral number) := by
  obtain ⟨refused, long⟩ := breaks
  obtain ⟨number, member, tooLong, unwritten⟩ := requireWritable_eq_error long
  refine ⟨number, member, tooLong, fun strict => ?_⟩
  rcases record.joins_or walk.kept with joins | empty | meets
  · exact absurd joins refused
  · rw [attribution.add_of_isEmpty walk empty, unwritten]
    rfl
  · obtain ⟨_, _, outcome⟩ := follows.add_of_runsInto strict meets
    rw [outcome, unwritten]
    rfl

theorem greedyWalk_concat (records : List Record) (record : Record) :
    greedyWalk (records ++ [record]) = (greedyWalk records).next record :=
  List.foldl_concat ..

theorem kept_sublist_greedyWalk (records : List Record) : (greedyWalk records).kept.Sublist records := by
  induction records using List.reverseRecOn with
  | nil => exact List.Sublist.slnil
  | append_singleton records record ih =>
    rw [greedyWalk_concat, GreedyWalk.next]
    split
    · exact ih.append (List.Sublist.refl _)
    · exact ih.trans (List.sublist_append_left ..)

/-- A place in a list with one more item is a place in the list or the last one. -/
theorem exists_split_concat {α : Type} {meets : List α → α → Prop} {items : List α} {last : α} :
    (∃ before item after, items ++ [last] = before ++ item :: after ∧ meets before item) ↔
      (∃ before item after, items = before ++ item :: after ∧ meets before item) ∨ meets items last := by
  constructor
  · rintro ⟨before, item, after, split, met⟩
    obtain rfl | ⟨init, end', rfl⟩ := List.eq_nil_or_concat' after
    · obtain ⟨rfl, rfl⟩ := List.append_singleton_inj.mp split
      exact Or.inr met
    · rw [← List.cons_append, ← List.append_assoc] at split
      obtain ⟨rfl, rfl⟩ := List.append_singleton_inj.mp split
      exact Or.inl ⟨before, item, init, rfl, met⟩
  · rintro (⟨before, item, after, rfl, met⟩ | met)
    · exact ⟨before, item, after ++ [last], by simp, met⟩
    · exact ⟨items, last, [], rfl, met⟩

theorem greedyClash_concat : GreedyClash (records ++ [record]) ↔
    GreedyClash records ∨ record.RunsInto (greedyWalk records).kept :=
  exists_split_concat

theorem GreedyClash.append (clash : GreedyClash records) (rest : List Record) : GreedyClash (records ++ rest) := by
  obtain ⟨before, record, after, rfl, meets⟩ := clash
  exact ⟨before, record, after ++ rest, by simp, meets⟩

theorem greedyBreak_concat : GreedyBreak (records ++ [record]) ↔
    GreedyBreak records ∨ (greedyWalk records).Breaks record :=
  exists_split_concat

theorem not_greedyBreak_nil : ¬GreedyBreak [] := by
  rintro ⟨before, record, after, split, _⟩
  simp at split

/-- A walk that breaks does so for a first time. -/
theorem GreedyBreak.first (breaks : GreedyBreak records) : ∃ before record after,
    records = before ++ record :: after ∧ ¬GreedyBreak before ∧ (greedyWalk before).Breaks record := by
  induction records using List.reverseRecOn with
  | nil => exact absurd breaks not_greedyBreak_nil
  | append_singleton records record ih =>
    by_cases earlier : GreedyBreak records
    · obtain ⟨before, record, after, rfl, said, broken⟩ := ih earlier
      exact ⟨before, record, _, List.append_assoc .., said, broken⟩
    · exact ⟨records, record, [], rfl, earlier, (greedyBreak_concat.mp breaks).resolve_left earlier⟩

/-- What a walk keeps can be put in line order. -/
theorem follows_greedyWalk (records : List Record) : (greedyWalk records).result.Follows (greedyWalk records) := by
  have follows : ∃ attribution : Attribution, attribution.Follows (greedyWalk records) := by
    induction records using List.reverseRecOn with
    | nil => exact ⟨{}, ⟨by simp, .nil⟩, .nil, rfl⟩
    | append_singleton records record ih =>
      obtain ⟨attribution, follows⟩ := ih
      rw [greedyWalk_concat]
      by_cases joins : record.Joins (greedyWalk records).kept
      · exact ⟨_, follows.place joins⟩
      · exact ⟨_, follows.drop joins⟩
  obtain ⟨attribution, follows⟩ := follows
  exact follows.eq_result ▸ follows

theorem Attribution.ofRecords_concat (records : List Record) (record : Record) (strict : Bool) :
    Attribution.ofRecords (records ++ [record]) strict =
      Attribution.ofRecords records strict >>= fun attribution => attribution.add strict record := by
  simp [Attribution.ofRecords]

theorem Attribution.ofRecords_append_error {strict : Bool} {fault : Fault}
    (failed : Attribution.ofRecords records strict = .error fault) (rest : List Record) :
    Attribution.ofRecords (records ++ rest) strict = .error fault := by
  rw [Attribution.ofRecords, List.foldlM_append, ← Attribution.ofRecords, failed]
  rfl

/-- Records are placed and dropped as in the walk, unless one runs into another and that is not allowed. -/
theorem Attribution.ofRecords_follows (said : ¬GreedyBreak records) (strict : Bool) :
    (¬(strict = true ∧ GreedyClash records) ∧
      Attribution.ofRecords records strict = .ok (greedyWalk records).result) ∨
    ((strict = true ∧ GreedyClash records) ∧
      ∃ fault, Attribution.ofRecords records strict = .error fault ∧ fault.kind = "OverlappingAttributionError") := by
  induction records using List.reverseRecOn with
  | nil =>
    refine Or.inl ⟨?_, by simp [ofRecords, greedyWalk, GreedyWalk.result, pure, Except.pure]⟩
    rintro ⟨_, before, record, after, split, _⟩
    simp at split
  | append_singleton records record ih =>
    rw [greedyBreak_concat, not_or] at said
    rw [ofRecords_concat, greedyClash_concat]
    rcases ih said.1 with ⟨clear, built⟩ | ⟨⟨isStrict, clash⟩, fault, failed, kind⟩
    · rw [built]
      rcases (follows_greedyWalk records).add strict said.2 with
        ⟨apart, after, added, follows⟩ | ⟨⟨isStrict, meets⟩, fault, failed, kind⟩
      · rw [← greedyWalk_concat] at follows
        refine Or.inl ⟨?_, added.trans (congrArg Except.ok follows.eq_result)⟩
        rintro ⟨isStrict, clash | meets⟩
        · exact clear ⟨isStrict, clash⟩
        · exact apart ⟨isStrict, meets⟩
      · exact Or.inr ⟨⟨isStrict, Or.inr meets⟩, fault, failed, kind⟩
    · rw [failed]
      exact Or.inr ⟨⟨isStrict, Or.inl clash⟩, fault, rfl, kind⟩

/-- Where the walk breaks first, a number that cannot be written is the fault, unless an earlier clash was one. -/
theorem Attribution.ofRecords_breaks (said : ¬GreedyBreak records) (breaks : (greedyWalk records).Breaks record)
    (rest : List Record) : ∃ number ∈ (greedyWalk records).reasons record, isWritable number = false ∧
      ∀ strict, ¬(strict = true ∧ GreedyClash records) →
        Attribution.ofRecords (records ++ record :: rest) strict = .error (.longNumeral number) := by
  obtain ⟨number, member, long, fails⟩ := (follows_greedyWalk records).add_breaks breaks
  refine ⟨number, member, long, fun strict clear => ?_⟩
  have built := ((Attribution.ofRecords_follows said strict).resolve_right fun clash => clear clash.1).2
  have failed : Attribution.ofRecords (records ++ [record]) strict = .error (.longNumeral number) := by
    rw [ofRecords_concat, built]
    exact fails strict
  rw [List.append_cons]
  exact Attribution.ofRecords_append_error failed rest

/-- Records are taken as in the walk, or one of the two faults is met. -/
theorem Attribution.ofRecords_cases (records : List Record) (strict : Bool) :
    (¬GreedyBreak records ∧ Attribution.ofRecords records strict = .ok (greedyWalk records).result) ∨
    ((strict = true ∧ GreedyClash records) ∧ ∃ fault, Attribution.ofRecords records strict = .error fault) ∨
    (GreedyBreak records ∧ ∃ number, Attribution.ofRecords records strict = .error (.longNumeral number)) := by
  by_cases breaks : GreedyBreak records
  · obtain ⟨before, record, after, rfl, said, broken⟩ := breaks.first
    obtain ⟨number, _, _, fails⟩ := Attribution.ofRecords_breaks said broken after
    rcases Attribution.ofRecords_follows said strict with ⟨clear, _⟩ | ⟨clash, fault, failed, _⟩
    · exact Or.inr (Or.inr ⟨breaks, number, fails strict clear⟩)
    · exact Or.inr (Or.inl ⟨⟨clash.1, clash.2.append _⟩, fault, ofRecords_append_error failed _⟩)
  · rcases Attribution.ofRecords_follows breaks strict with ⟨_, built⟩ | ⟨clash, fault, failed, _⟩
    · exact Or.inl ⟨breaks, built⟩
    · exact Or.inr (Or.inl ⟨clash, fault, failed⟩)

/-- What is built at all is what the walk leads to. -/
theorem Attribution.ofRecords_eq_ok {strict : Bool} (built : Attribution.ofRecords records strict = .ok attribution) :
    ¬GreedyBreak records ∧ (greedyWalk records).result = attribution := by
  rcases Attribution.ofRecords_cases records strict with ⟨said, shown⟩ | ⟨_, _, failed⟩ | ⟨_, _, failed⟩
  · exact ⟨said, Except.ok.inj (shown.symm.trans built)⟩
  · cases built.symm.trans failed
  · cases built.symm.trans failed

theorem mem_of_mem_result (member : record ∈ (greedyWalk records).result.records) : record ∈ records :=
  (kept_sublist_greedyWalk records).subset (List.mem_mergeSort.mp member)

end Marginalia
