import Marginalia.Proofs.DistinctItems
import Marginalia.Settings.Store

namespace Marginalia

section lists

variable {α : Type} [DecidableEq α] {items : List α}

/-- An item in front of the others. -/
def toFront (item : α) (items : List α) : List α :=
  item :: items.filter (· != item)

theorem filter_eraseDups (chosen : α → Bool) (items : List α) :
    items.eraseDups.filter chosen = (items.filter chosen).eraseDups := by
  induction items using List.reverseRecOn with
  | nil => rfl
  | append_singleton items item ih =>
    rw [eraseDups_concat, List.filter_append]
    cases picked : chosen item with
    | true =>
      rw [List.filter_cons_of_pos picked, List.filter_nil, eraseDups_concat, ← ih]
      by_cases known : item ∈ items
      · rw [if_pos known, if_pos (List.mem_filter.mpr ⟨known, picked⟩)]
      · rw [if_neg known, if_neg fun kept => known (List.mem_filter.mp kept).1, List.filter_append,
          List.filter_cons_of_pos picked, List.filter_nil]
    | false =>
      have dropped : [item].filter chosen = [] := List.filter_cons_of_neg (by simp [picked])
      rw [dropped, List.append_nil, ← ih]
      split
      · rfl
      · rw [List.filter_append, dropped, List.append_nil]

theorem toFront_eraseDups (item : α) (items : List α) : toFront item items.eraseDups = (item :: items).eraseDups := by
  rw [List.eraseDups_cons, toFront, filter_eraseDups]
  rfl

/-- The items that came to the front stand there with the last one first, and later copies are left out. -/
theorem foldl_toFront (recent items : List α) (different : items.Nodup) :
    recent.foldl (fun items item => toFront item items) items = (recent.reverse ++ items).eraseDups := by
  induction recent using List.reverseRecOn with
  | nil => exact (eraseDups_of_nodup different).symm
  | append_singleton recent item ih =>
    rw [List.foldl_append, ih, List.reverse_append]
    exact toFront_eraseDups item _

/-- What is cut off is not missed when an item comes to the front and the rest is cut off again. -/
theorem take_toFront_take (limit : Nat) (item : α) (different : items.Nodup) :
    (toFront item (items.take limit)).take limit = (toFront item items).take limit := by
  cases limit with
  | zero => rfl
  | succ limit =>
    rw [toFront, toFront, List.take_succ_cons, List.take_succ_cons]
    congr 1
    conv_rhs => rw [← List.take_append_drop (limit + 1) items, List.filter_append]
    -- of different items at most one is left out
    have few : (items.take (limit + 1)).length - 1 ≤ ((items.take (limit + 1)).filter (· != item)).length := by
      rw [← List.Nodup.erase_eq_filter different.take]
      exact List.le_length_erase
    by_cases long : limit + 1 ≤ items.length
    · rw [List.length_take_of_le long] at few
      rw [List.take_append_of_le_length (by omega)]
    · rw [List.drop_of_length_le (by omega), List.filter_nil, List.append_nil]

end lists

theorem JsonText.glyphs_eq_of_mapM {glyphs : List Glyph} {chars : List Char}
    (whole : glyphs.mapM Glyph.char? = some chars) : glyphs = chars.map .char := by
  induction glyphs generalizing chars with
  | nil =>
    cases whole
    rfl
  | cons glyph rest ih =>
    rw [List.mapM_cons] at whole
    obtain ⟨char, isChar, whole⟩ := Option.bind_eq_some_iff.mp whole
    obtain ⟨later, read, joined⟩ := Option.bind_eq_some_iff.mp whole
    cases glyph with
    | half unit => cases isChar
    | char value =>
      cases isChar
      cases joined
      rw [ih read, List.map_cons]

theorem JsonText.string?_eq_some_iff {text : JsonText} {value : String} :
    text.string? = some value ↔ text = .ofString value := by
  constructor
  · intro read
    obtain ⟨chars, whole, rfl⟩ := Option.map_eq_some_iff.mp read
    rw [ofString, String.toList_ofList, ← glyphs_eq_of_mapM whole]
  · rintro rfl
    exact JsonText.string?_ofString value

/-- The recent files of some settings, and how many of them are kept. -/
structure Settings.Recalls (settings : Settings) (files : List JsonText) (limit : Nat) : Prop where
  files_eq : settings.value .recentFiles = .array (files.map .text)
  limit_eq : settings.value .recentFilesLimit = .integer limit

variable {settings after : Settings} {store : SettingsStore} {files : List JsonText} {limit : Nat}

theorem Settings.Recalls.addRecent (recalls : settings.Recalls files limit) (path : String) :
    ∃ after, settings.addRecent path = .ok after ∧ after.Recalls ((toFront (.ofString path) files).take limit) limit ∧
      ∀ setting, setting ≠ .recentFiles → after.value setting = settings.value setting := by
  have others : (files.map Json.text).filter (fun item => item.text? != some path) =
      (files.filter (· != .ofString path)).map .text := by
    rw [List.filter_map]
    refine congrArg _ (List.filter_congr fun text _ => congrArg not (Bool.eq_iff_iff.mpr ?_))
    rw [beq_iff_eq, beq_iff_eq]
    exact JsonText.string?_eq_some_iff
  have added : settings.addRecent path = .ok
      (settings.set .recentFiles (.array (((toFront (.ofString path) files).take limit).map .text))) := by
    unfold Settings.addRecent
    rw [recalls.files_eq, recalls.limit_eq]
    dsimp only [Json.items?, takeCount?]
    rw [others, ← List.map_cons, takeSigned_natCast, ← List.map_take]
    rfl
  refine ⟨_, added, ⟨?_, ?_⟩, fun setting other => ?_⟩
  · rw [Settings.value_set, if_pos rfl]
  · rw [Settings.value_set, if_neg (by decide), recalls.limit_eq]
  · rw [Settings.value_set, if_neg other]

/-- Settings that are in use stay in use, whether or not they can be written. -/
theorem SettingsStore.current_saveAs (used : store.current = some settings) :
    (store.saveAs settings).1.current = some settings := by
  unfold saveAs
  split
  · exact used
  · split
    · exact used
    · split
      · exact used
      · rfl

theorem SettingsStore.settings_addRecent (used : store.settings.2 = .ok settings) {path : String}
    (added : settings.addRecent path = .ok after) : (store.addRecent path).1.settings.2 = .ok after := by
  obtain ⟨opened, read⟩ : ∃ opened, store.settings = (opened, .ok settings) := ⟨_, Prod.ext rfl used⟩
  have current : (opened.adopt after).1.current = some after := current_saveAs rfl
  unfold SettingsStore.addRecent
  rw [read]
  dsimp only
  rw [added]
  dsimp only
  rw [SettingsStore.settings, current]

/-- Puts paths in front of the recent files, one after the other. -/
def SettingsStore.addRecents (store : SettingsStore) (paths : List String) : SettingsStore :=
  paths.foldl (fun store path => (store.addRecent path).1) store

/-- However many paths came, cutting the list each time leaves what one cut in the end would leave. -/
theorem SettingsStore.recalls_addRecents (used : store.settings.2 = .ok settings)
    (recalls : settings.Recalls files limit) (different : files.Nodup) (few : files.length ≤ limit)
    (paths : List String) :
    ∃ after, (store.addRecents paths).settings.2 = .ok after ∧
      after.Recalls (((paths.map .ofString).foldl (fun items item => toFront item items) files).take limit) limit ∧
      ∀ setting, setting ≠ .recentFiles → after.value setting = settings.value setting := by
  induction paths using List.reverseRecOn with
  | nil =>
    refine ⟨settings, used, ?_, fun _ _ => rfl⟩
    rwa [List.map_nil, List.foldl_nil, List.take_of_length_le few]
  | append_singleton paths path ih =>
    obtain ⟨before, inUse, kept, same⟩ := ih
    obtain ⟨after, added, recent, others⟩ := kept.addRecent path
    refine ⟨after, ?_, ?_, fun setting other => (others setting other).trans (same setting other)⟩
    · rw [addRecents, List.foldl_append]
      exact settings_addRecent inUse added
    · have apart : ((paths.map .ofString).foldl (fun items item => toFront item items) files).Nodup := by
        rw [foldl_toFront _ _ different]
        exact nodup_eraseDups _
      rw [take_toFront_take limit _ apart] at recent
      rw [List.map_append, List.foldl_append]
      exact recent

/-- The recent files are those that came last, the last one first, each of them once, and as many as are kept; nothing
is lost by cutting the list each time. All other settings stay. -/
theorem SettingsStore.addRecents_recent (used : store.settings.2 = .ok settings)
    (recalls : settings.Recalls files limit) (different : files.Nodup) (few : files.length ≤ limit)
    (paths : List String) :
    let recent := paths.map JsonText.ofString
    let kept := (recent.reverse ++ files).eraseDups.take limit
    (∃ after, (store.addRecents paths).settings.2 = .ok after ∧ after.Recalls kept limit ∧
      ∀ setting, setting ≠ .recentFiles → after.value setting = settings.value setting) ∧
    kept.Nodup ∧ kept.length ≤ limit ∧
    kept = (recent.foldl (fun items item => toFront item items) files).take limit := by
  intro recent kept
  have once : recent.foldl (fun items item => toFront item items) files = (recent.reverse ++ files).eraseDups :=
    foldl_toFront recent files different
  have result := recalls_addRecents used recalls different few paths
  rw [once] at result ⊢
  exact ⟨result, (nodup_eraseDups _).take, List.length_take_le .., rfl⟩

/-- Settings that keep two recent files, and have two. -/
def pairedSettings : Settings :=
  (Settings.standard.set .recentFilesLimit (.integer 2)).set .recentFiles
    (.array [.text (.ofString "a.py"), .text (.ofString "b.py")])

def pairedStore : SettingsStore :=
  { path := ⟨.here, ["settings.json"]⟩, current := some pairedSettings }

/-- The second file comes back to the front, twice, and the first one is pushed out by another in between. -/
theorem SettingsStore.addRecents_recent_paired :
    ∃ after, (pairedStore.addRecents ["b.py", "c.py", "b.py"]).settings.2 = .ok after ∧
      after.value .recentFiles = .array [.text (.ofString "b.py"), .text (.ofString "c.py")] ∧
      after.value .recentFilesLimit = .integer 2 := by
  have used : pairedStore.settings.2 = .ok pairedSettings := rfl
  have recalls : pairedSettings.Recalls [.ofString "a.py", .ofString "b.py"] 2 := ⟨rfl, rfl⟩
  obtain ⟨⟨after, inUse, kept, _⟩, _⟩ :=
    SettingsStore.addRecents_recent used recalls (by decide) (Nat.le_refl 2) ["b.py", "c.py", "b.py"]
  have recent : ((["b.py", "c.py", "b.py"].map JsonText.ofString).reverse ++
      [JsonText.ofString "a.py", .ofString "b.py"]).eraseDups.take 2 = [.ofString "b.py", .ofString "c.py"] := by
    decide
  rw [recent] at kept
  exact ⟨after, inUse, kept.files_eq, kept.limit_eq⟩

end Marginalia
