import Marginalia.Proofs.FaultSteps
import Marginalia.Proofs.LoadedRecords
import Marginalia.Proofs.Tallies
import Marginalia.Proofs.WrittenJson
import Marginalia.Settings.Store

namespace Marginalia

/-- The kinds of values that settings have. -/
inductive SettingKind
  | flag
  | texts
  | mode
  | text
  | number
deriving DecidableEq, Repr

def SettingKind.Holds : SettingKind → Json → Prop
  | .flag, value => ∃ flag, value = .bool flag
  | .texts, value => ∃ texts : List JsonText, value = .array (texts.map .text)
  | .mode, value => ∃ mode : BlameMode, value = .text (mode.name : JsonText)
  | .text, value => ∃ text, value = .text text
  | .number, value => ∃ number, value = .integer number

def Setting.kind : Setting → SettingKind
  | .bracketsEnabled => .flag
  | .colorsEnabled => .flag
  | .blameEnabled => .flag
  | .lintEnabled => .flag
  | .bracketTypes => .texts
  | .lintKeywords => .texts
  | .blameMode => .mode
  | .strictAttribution => .flag
  | .blameFiletypes => .texts
  | .lintFiletypes => .texts
  | .styleSheet => .text
  | .background => .text
  | .fontFamily => .text
  | .fontSize => .number
  | .windowWidth => .number
  | .windowHeight => .number
  | .scrollContextLines => .number
  | .recentFiles => .texts
  | .recentFilesLimit => .number

/-- Every setting has a value of its kind. -/
def Settings.WellTyped (settings : Settings) : Prop :=
  ∀ setting : Setting, setting.kind.Holds (settings.value setting)

/-- An object without the members that have some keys. -/
def Json.without (keys : List JsonText) : Json → Json
  | .object members => .object (members.filter fun member => member.1 ∉ keys)
  | value => value

/-- An object with a change of the value that a key has. -/
def Json.within (key : JsonText) (change : Json → Json) : Json → Json
  | .object members =>
    .object (members.map fun member => (member.1, if member.1 = key then change member.2 else member.2))
  | value => value

/-- The key of a group that stands in the stored settings by itself. -/
def SettingGroup.key? : SettingGroup → Option JsonText
  | .annotators => some (.ofString "annotators")
  | .ui => some (.ofString "ui")
  | .top => none

/-- What is left of stored settings when keys are removed, those in a group and those beside the groups. -/
def Settings.remains (settings : Settings) (removed : SettingGroup → List JsonText) : Json :=
  ((settings.toJson.within "annotators" (.without (removed .annotators))).within "ui"
    (.without (removed .ui))).without (removed .top)

/-- A setting is removed with its own key or with that of its group. -/
def Setting.Removed (removed : SettingGroup → List JsonText) (setting : Setting) : Prop :=
  (setting.key : JsonText) ∈ removed setting.group ∨ ∃ key ∈ setting.group.key?, key ∈ removed .top

instance (removed : SettingGroup → List JsonText) (setting : Setting) : Decidable (setting.Removed removed) :=
  inferInstanceAs (Decidable (_ ∨ _))

section lookup

variable {κ α : Type} [DecidableEq κ] {key : κ} {entries : List (κ × α)}

theorem lookupKey?_filter (chosen : κ → Bool) (entries : List (κ × α)) :
    lookupKey? key (entries.filter fun entry => chosen entry.1) =
      if chosen key then lookupKey? key entries else none := by
  induction entries with
  | nil => exact (ite_self _).symm
  | cons entry rest ih =>
    obtain ⟨known, value⟩ := entry
    rw [lookupKey?_cons, List.filter_cons]
    by_cases same : known = key
    · subst same
      split
      · rw [lookupKey?_cons, if_pos rfl, if_pos rfl]
      · rw [ih, if_neg ‹_›]
    · rw [if_neg same]
      split
      · rw [lookupKey?_cons, if_neg same, ih]
      · exact ih

theorem lookupKey?_of_nodup (different : (entries.map (·.1)).Nodup) {value : α} (member : (key, value) ∈ entries) :
    lookupKey? key entries = some value := by
  have known : key ∈ entries.map (·.1) := List.mem_map_of_mem member
  obtain ⟨other, found⟩ := Option.isSome_iff_exists.mp (lookupKey?_isSome_iff.mpr known)
  have same : (key, other) = (key, value) := List.inj_on_of_nodup_map different (mem_of_lookupKey? found) member rfl
  rw [found, (Prod.mk.inj same).2]

end lookup

theorem JsonText.ofString_inj {left right : String} : JsonText.ofString left = .ofString right ↔ left = right := by
  refine ⟨fun same => ?_, congrArg _⟩
  have read := congrArg JsonText.string? same
  rw [string?_ofString, string?_ofString] at read
  exact Option.some.inj read

theorem BlameMode.ofName?_name (mode : BlameMode) : BlameMode.ofName? mode.name = some mode := by
  cases mode <;> decide

theorem SettingKind.texts_holds (items : List String) : SettingKind.texts.Holds (.texts items) := by
  refine ⟨items.map .ofString, ?_⟩
  rw [List.map_map]
  rfl

theorem Settings.wellTyped_standard : Settings.standard.WellTyped := by
  intro setting
  cases setting with
  | bracketTypes => exact SettingKind.texts_holds _
  | lintKeywords => exact SettingKind.texts_holds _
  | blameFiletypes => exact SettingKind.texts_holds _
  | lintFiletypes => exact SettingKind.texts_holds _
  | blameMode => exact ⟨.age, rfl⟩
  | recentFiles => exact ⟨[], rfl⟩
  | _ => exact ⟨_, rfl⟩

/-- A stored value of its kind means itself. -/
theorem Setting.adopt_of_holds {setting : Setting} {value : Json} (holds : setting.kind.Holds value) :
    setting.reading.adopt value = value := by
  cases setting with
  | blameMode =>
    obtain ⟨mode, rfl⟩ := holds
    change adoptMode (.text (.ofString mode.name)) = _
    rw [adoptMode, JsonText.string?_ofString, Option.bind_some, BlameMode.ofName?_name]
    rfl
  | _ => rfl

variable {settings : Settings} {removed : SettingGroup → List JsonText}

theorem Setting.mem_settings_iff {setting : Setting} {group : SettingGroup} :
    setting ∈ group.settings ↔ setting.group = group := by
  rw [SettingGroup.settings, List.mem_filter, decide_eq_true_iff]
  exact and_iff_right setting.mem_all

theorem Settings.keys_eq (settings : Settings) (group : SettingGroup) :
    (settings.members group).map (·.1) = (group.settings.map Setting.key).map .ofString := by
  rw [members, List.map_map, List.map_map]
  rfl

theorem Settings.nodup_keys (settings : Settings) (group : SettingGroup) :
    ((settings.members group).map (·.1)).Nodup := by
  have different : (group.settings.map Setting.key).Nodup := by
    cases group <;> decide
  rw [settings.keys_eq]
  exact different.map fun _ _ => JsonText.ofString_inj.mp

theorem Settings.mem_keys_iff {group : SettingGroup} {key : String} :
    JsonText.ofString key ∈ (settings.members group).map (·.1) ↔ key ∈ group.settings.map Setting.key := by
  rw [settings.keys_eq]
  exact List.mem_map_of_injective fun _ _ => JsonText.ofString_inj.mp

/-- A group that some keys are left out of gives the other settings their values. -/
theorem Setting.among_filter (settings : Settings) (setting : Setting) (keys : List JsonText) :
    setting.among ((settings.members setting.group).filter fun member => member.1 ∉ keys) =
      if (setting.key : JsonText) ∈ keys then setting.standard else setting.reading.adopt (settings.value setting) := by
  have member : ((setting.key : JsonText), settings.value setting) ∈ settings.members setting.group :=
    List.mem_map_of_mem (mem_settings_iff.mpr rfl)
  rw [among, setting.reading_key, lookupKey?_filter (fun key => key ∉ keys),
    lookupKey?_of_nodup (settings.nodup_keys _) member]
  by_cases absent : (setting.key : JsonText) ∈ keys
  · simp [absent, setting.adopt_fallback]
  · simp [absent]

/-- A change within an object changes the member with the key. -/
theorem Json.within_object {key : JsonText} (front : List (JsonText × Json)) {back : List (JsonText × Json)}
    (first : key ∉ front.map (·.1)) (last : key ∉ back.map (·.1)) (change : Json → Json) (value : Json) :
    (Json.object (front ++ (key, value) :: back)).within key change =
      .object (front ++ (key, change value) :: back) := by
  have unchanged (members : List (JsonText × Json)) (absent : key ∉ members.map (·.1)) :
      members.map (fun member => (member.1, if member.1 = key then change member.2 else member.2)) = members := by
    refine (List.map_congr_left fun member inside => ?_).trans (List.map_id members)
    have different : member.1 ≠ key := fun same => absent (same ▸ List.mem_map_of_mem inside)
    exact congrArg (Prod.mk member.1) (if_neg different)
  rw [within, List.map_append, List.map_cons, unchanged front first, unchanged back last, if_pos rfl]

/-- The two groups and the settings beside them, each without what is removed there. -/
def Settings.leftMembers (settings : Settings) (removed : SettingGroup → List JsonText) : List (JsonText × Json) :=
  ((.ofString "annotators", (Json.object (settings.members .annotators)).without (removed .annotators)) ::
    (.ofString "ui", (Json.object (settings.members .ui)).without (removed .ui)) :: settings.members .top).filter
      fun member => member.1 ∉ removed .top

theorem Settings.remains_eq (settings : Settings) (removed : SettingGroup → List JsonText) :
    settings.remains removed = .object (settings.leftMembers removed) := by
  have annotators : JsonText.ofString "annotators" ∉
      ((.ofString "ui", Json.object (settings.members .ui)) :: settings.members .top).map (·.1) := by
    rw [List.map_cons, List.mem_cons, JsonText.ofString_inj, mem_keys_iff]
    decide
  have front (value : Json) : JsonText.ofString "ui" ∉ [(JsonText.ofString "annotators", value)].map (·.1) := by
    rw [List.map_singleton, List.mem_singleton, JsonText.ofString_inj]
    decide
  have back : JsonText.ofString "ui" ∉ (settings.members .top).map (·.1) := by
    rw [mem_keys_iff]
    decide
  have inAnnotators := Json.within_object [] List.not_mem_nil annotators (.without (removed .annotators))
    (.object (settings.members .annotators))
  have inUi (value : Json) := Json.within_object [(JsonText.ofString "annotators", value)] (front value) back
    (.without (removed .ui)) (.object (settings.members .ui))
  rw [List.nil_append, List.nil_append] at inAnnotators
  simp only [List.singleton_append] at inUi
  rw [remains, toJson, inAnnotators, inUi]
  rfl

/-- A group that is removed has no members, and the other ones have those that are left. -/
theorem Settings.groupMembers?_remains (settings : Settings) (removed : SettingGroup → List JsonText)
    {group : SettingGroup} {key : JsonText} (named : group.key? = some key) :
    groupMembers? key (settings.leftMembers removed) =
      some (if key ∈ removed .top then []
        else (settings.members group).filter fun member => member.1 ∉ removed group) := by
  unfold groupMembers? leftMembers
  rw [lookupKey?_filter (fun key => key ∉ removed .top), lookupKey?_cons, lookupKey?_cons]
  by_cases gone : key ∈ removed .top
  · simp [gone]
  · simp only [gone, not_false_eq_true, decide_true, if_true, if_false]
    cases group with
    | annotators =>
      cases named
      rw [if_pos rfl]
      rfl
    | ui =>
      cases named
      rw [if_neg (by rw [JsonText.ofString_inj]; decide), if_pos rfl]
      rfl
    | top => cases named

theorem Setting.among_leftMembers (setting : Setting) (beside : setting.group = .top) :
    setting.among (settings.leftMembers removed) =
      if (setting.key : JsonText) ∈ removed .top then setting.standard
      else setting.reading.adopt (settings.value setting) := by
  have own : setting.key ∈ SettingGroup.top.settings.map Setting.key :=
    List.mem_map_of_mem (mem_settings_iff.mpr beside)
  have noGroup (key : String) (free : key ∉ SettingGroup.top.settings.map Setting.key) :
      ¬JsonText.ofString key = setting.key := fun same => free (JsonText.ofString_inj.mp same ▸ own)
  have among := setting.among_filter settings (removed .top)
  rw [beside] at among
  rw [← among, Setting.among, Setting.among, setting.reading_key, Settings.leftMembers,
    lookupKey?_filter (fun key => key ∉ removed .top), lookupKey?_filter (fun key => key ∉ removed .top),
    lookupKey?_cons, lookupKey?_cons, if_neg (noGroup "annotators" (by decide)), if_neg (noGroup "ui" (by decide))]

theorem Setting.removed_iff_of_grouped {setting : Setting} {key : JsonText} (named : setting.group.key? = some key) :
    setting.Removed removed ↔ (setting.key : JsonText) ∈ removed setting.group ∨ key ∈ removed .top := by
  rw [Setting.Removed, named]
  simp

theorem Setting.removed_iff_of_beside {setting : Setting} (beside : setting.group = .top) :
    setting.Removed removed ↔ (setting.key : JsonText) ∈ removed .top := by
  rw [Setting.Removed, beside]
  simp [SettingGroup.key?]

/-- What is left tells the settings that are left. -/
theorem Settings.ofJson?_remains (settings : Settings) (removed : SettingGroup → List JsonText) :
    Settings.ofJson? (settings.remains removed) = some ⟨fun setting =>
      if setting.Removed removed then setting.standard else setting.reading.adopt (settings.value setting)⟩ := by
  have annotators : SettingGroup.annotators.key? = some (.ofString "annotators") := rfl
  have ui : SettingGroup.ui.key? = some (.ofString "ui") := rfl
  rw [remains_eq, ofJson?, settings.groupMembers?_remains removed annotators, settings.groupMembers?_remains removed ui]
  refine congrArg some (congrArg Settings.mk (funext fun setting => ?_))
  have inGroup {key : JsonText} (named : setting.group.key? = some key) :
      setting.among (if key ∈ removed .top then [] else
        (settings.members setting.group).filter fun member => member.1 ∉ removed setting.group) =
      if setting.Removed removed then setting.standard else setting.reading.adopt (settings.value setting) := by
    by_cases gone : key ∈ removed .top
    · rw [if_pos gone, if_pos ((Setting.removed_iff_of_grouped named).mpr (Or.inr gone)), ← setting.adopt_fallback]
      rfl
    · rw [if_neg gone, setting.among_filter]
      exact if_congr ((Setting.removed_iff_of_grouped named).trans (or_iff_left gone)).symm rfl rfl
  rw [setting.reading_group]
  cases group : setting.group with
  | annotators =>
    rw [group] at inGroup
    exact inGroup annotators
  | ui =>
    rw [group] at inGroup
    exact inGroup ui
  | top =>
    refine (setting.among_leftMembers group).trans ?_
    exact if_congr (Setting.removed_iff_of_beside group).symm rfl rfl

theorem Settings.WellTyped.adopt (typed : settings.WellTyped) (setting : Setting) :
    setting.reading.adopt (settings.value setting) = settings.value setting :=
  Setting.adopt_of_holds (typed setting)

/-- Settings are told by what is stored of them. -/
theorem Settings.WellTyped.ofJson?_toJson (typed : settings.WellTyped) :
    Settings.ofJson? settings.toJson = some settings := by
  have whole : settings.remains (fun _ => []) = settings.toJson := by
    simp [remains_eq, leftMembers, Json.without, toJson]
  rw [← whole, ofJson?_remains]
  refine congrArg some (congrArg Settings.mk (funext fun setting => ?_))
  rw [if_neg, typed.adopt]
  simp [Setting.Removed]

section files

variable {files after : Files} {path : Path} {bytes : Bytes} {place target : Place} {entry : Entry}

theorem Files.at?_put_of_ne (files : Files) (entry : Entry) (other : place ≠ target) :
    (files.put target entry).at? place = files.at? place := by
  unfold at? put
  split
  · rfl
  · rw [List.find?_cons_of_neg (by simpa using Ne.symm other), List.find?_filter]
    congr 2
    funext known
    by_cases here : known.1 = place
    · simp [here, other]
    · simp [here]

/-- A walk only sees folders, so that a new file at a place without one does not change it. -/
theorem Files.walk_put (free : files.at? target ≠ some .folder) {steps : List String} {goal : Place}
    (walked : files.walk place steps = .ok goal) (entry : Entry) :
    (files.put target entry).walk place steps = .ok goal := by
  induction steps generalizing place with
  | nil => exact walked
  | cons name rest ih =>
    unfold walk at walked ⊢
    split at walked
    · cases walked
    · cases walked
    · rename_i folder
      have other : place ≠ target := by
        rintro rfl
        exact free folder
      rw [files.at?_put_of_ne entry other, folder]
      dsimp only
      split at walked
      · cases walked
      · rename_i short
        rw [if_neg short]
        exact ih walked

theorem Files.place_eq_ok_iff {goal : Place} :
    files.place path = .ok goal ↔ path.check = .ok () ∧ files.walk path.root.place path.steps = .ok goal := by
  unfold place
  cases path.check with
  | error fault => exact ⟨nofun, nofun⟩
  | ok => exact ⟨fun walked => ⟨rfl, walked⟩, And.right⟩

/-- A file that was written holds what was written. -/
theorem Files.read_write (written : files.write path bytes = .ok after) : after.read path = .ok bytes := by
  obtain ⟨place, placed, written⟩ := of_bind_eq_ok written
  obtain ⟨checked, walked⟩ := place_eq_ok_iff.mp placed
  split at written
  · cases written
  · rename_i free
    cases written
    have below : place.steps ≠ [] := fun none => free (by rw [at?, none]; rfl)
    have again : (files.put place (.file bytes)).place path = .ok place :=
      place_eq_ok_iff.mpr ⟨checked, walk_put free walked _⟩
    simp only [read, find, again, bind, Except.bind, at?_put _ _ _ below]

end files

variable {store after : SettingsStore} {bytes : Bytes} {data : Json}

theorem SettingsStore.load_eq (found : store.files.read store.path = .ok bytes)
    (parsed : Json.ofBytes bytes = .ok data) : store.load = .ok ((Settings.ofJson? data).getD .standard) := by
  rw [load, found]
  dsimp only
  rw [parsed]

theorem PathFault.saveFailure_ne (fault : PathFault) : fault.saveFailure ≠ .ok true := by
  cases fault <;> decide

theorem Json.itemDepth_le {items : List Json} {limit : Nat} (shallow : ∀ item ∈ items, item.depth ≤ limit) :
    Json.itemDepth items ≤ limit := by
  induction items with
  | nil => exact Nat.zero_le _
  | cons item rest ih =>
    obtain ⟨first, later⟩ := List.forall_mem_cons.mp shallow
    exact Nat.max_le.mpr ⟨first, ih later⟩

theorem Json.memberDepth_le {members : List (JsonText × Json)} {limit : Nat}
    (shallow : ∀ member ∈ members, member.2.depth ≤ limit) : Json.memberDepth members ≤ limit := by
  induction members with
  | nil => exact Nat.zero_le _
  | cons member rest ih =>
    obtain ⟨first, later⟩ := List.forall_mem_cons.mp shallow
    exact Nat.max_le.mpr ⟨first, ih later⟩

theorem SettingKind.Holds.depth_le {kind : SettingKind} {value : Json} (holds : kind.Holds value) : value.depth ≤ 1 := by
  cases kind with
  | texts =>
    obtain ⟨texts, rfl⟩ := holds
    refine Nat.succ_le_succ (Json.itemDepth_le fun item member => ?_)
    obtain ⟨text, _, rfl⟩ := List.mem_map.mp member
    exact Nat.le_refl 0
  | _ =>
    obtain ⟨_, rfl⟩ := holds
    exact Nat.zero_le 1

theorem Settings.WellTyped.depth_le (typed : settings.WellTyped) : settings.toJson.depth ≤ 3 := by
  have members (group : SettingGroup) : ∀ member ∈ settings.members group, member.2.depth ≤ 1 := by
    intro member inside
    obtain ⟨setting, _, rfl⟩ := List.mem_map.mp inside
    exact (typed setting).depth_le
  have group (group : SettingGroup) : (Json.object (settings.members group)).depth ≤ 2 :=
    Nat.succ_le_succ (Json.memberDepth_le (members group))
  refine Nat.succ_le_succ (Json.memberDepth_le ?_)
  refine List.forall_mem_cons.mpr ⟨group .annotators, List.forall_mem_cons.mpr ⟨group .ui, fun member inside => ?_⟩⟩
  exact Nat.le_succ_of_le (members .top member inside)

/-- Settings of their kinds are never too deep to be stored. -/
theorem Settings.WellTyped.stored (typed : settings.WellTyped) : settings.stored = .ok settings.toJson :=
  if_neg (Nat.not_lt.mpr (Nat.le_trans typed.depth_le (by decide)))

/-- Settings are saved when their file can be made, and then the file is all that changes among the files. -/
theorem SettingsStore.saveAs_of_install (typed : settings.WellTyped) {files : Files}
    (made : store.files.install store.path (encodeUtf8 settings.toJson.indented) = .ok files) :
    store.saveAs settings =
      ({ store with
          files := files
          current := some settings
          notified := store.notified ++ List.replicate store.observers (settings.value .recentFilesLimit) }, .ok true) := by
  obtain ⟨folders, opened, written⟩ := of_bind_eq_ok made
  simp only [saveAs, opened, typed.stored, written]

/-- Where the file cannot be made, what is in the way is what the save answers. -/
theorem SettingsStore.saveAs_of_install_error (typed : settings.WellTyped) {fault : PathFault}
    (unmade : store.files.install store.path (encodeUtf8 settings.toJson.indented) = .error fault) :
    (store.saveAs settings).2 = fault.saveFailure := by
  unfold saveAs
  rw [typed.stored]
  cases folders : store.files.makeFolders store.path.parent with
  | error => 
    simp only [Files.install, folders] at unmade
    cases unmade
    rfl
  | ok files =>
    simp only [Files.install, folders] at unmade
    have written : files.write store.path (encodeUtf8 settings.toJson.indented) = .error fault := unmade
    simp only [written]

theorem Files.read_install {files after : Files} {path : Path} (made : files.install path bytes = .ok after) :
    after.read path = .ok bytes := by
  obtain ⟨folders, _, written⟩ := of_bind_eq_ok made
  exact Files.read_write written

theorem SettingsStore.saveAs_eq_true_iff (typed : settings.WellTyped) (store : SettingsStore) :
    (store.saveAs settings).2 = .ok true ↔
      ∃ files, store.files.install store.path (encodeUtf8 settings.toJson.indented) = .ok files := by
  cases made : store.files.install store.path (encodeUtf8 settings.toJson.indented) with
  | error fault =>
    rw [saveAs_of_install_error typed made]
    exact iff_of_false fault.saveFailure_ne nofun
  | ok files => exact iff_of_true (congrArg Prod.snd (saveAs_of_install typed made)) ⟨files, rfl⟩

/-- A file with a part of some settings gives those settings, with the standard values for what is left out. Settings
are saved exactly when their file can be made, and what was saved is loaded again. -/
theorem SettingsStore.load_remains (typed : settings.WellTyped) (removed : SettingGroup → List JsonText) :
    (∀ (store : SettingsStore) (bytes : Bytes), store.files.read store.path = .ok bytes →
      Json.ofBytes bytes = .ok (settings.remains removed) →
      ∃ loaded, store.load = .ok loaded ∧ ∀ setting : Setting,
        loaded.value setting = if setting.Removed removed then setting.standard else settings.value setting) ∧
    ∀ store : SettingsStore,
      ((store.saveAs settings).2 = .ok true ↔
        ∃ files, store.files.install store.path (encodeUtf8 settings.toJson.indented) = .ok files) ∧
      ∀ after, store.saveAs settings = (after, .ok true) →
        store.files.install store.path (encodeUtf8 settings.toJson.indented) = .ok after.files ∧
        after.path = store.path ∧ after.current = some settings ∧
        (Json.ofBytes (encodeUtf8 settings.toJson.indented) = .ok settings.toJson → after.load = .ok settings) := by
  refine ⟨fun store bytes found parsed => ?_, fun store => ⟨saveAs_eq_true_iff typed store, fun after saved => ?_⟩⟩
  · refine ⟨_, load_eq found parsed, fun setting => ?_⟩
    rw [Settings.ofJson?_remains, Option.getD_some]
    dsimp only
    rw [typed.adopt]
  · obtain ⟨files, made⟩ := (saveAs_eq_true_iff typed store).mp (congrArg Prod.snd saved)
    rw [saveAs_of_install typed made] at saved
    obtain rfl := (Prod.mk.inj saved).1
    refine ⟨made, rfl, rfl, fun lossless => ?_⟩
    rw [load_eq (Files.read_install made) lossless, typed.ofJson?_toJson, Option.getD_some]

theorem Json.plainItems_of_forall {items : List Json} (plain : ∀ item ∈ items, item.Plain) : Json.PlainItems items := by
  induction items with
  | nil => trivial
  | cons item rest ih =>
    obtain ⟨first, later⟩ := List.forall_mem_cons.mp plain
    exact ⟨first, ih later⟩

theorem Json.plainMembers_of_forall {members : List (JsonText × Json)}
    (plain : ∀ member ∈ members, (∃ string, member.1 = .ofString string) ∧ member.2.Plain) :
    Json.PlainMembers members := by
  induction members with
  | nil => trivial
  | cons member rest ih =>
    obtain ⟨⟨named, first⟩, later⟩ := List.forall_mem_cons.mp plain
    exact ⟨named, first, ih later⟩

/-- Settings whose values are read back are read back as a whole. -/
theorem Settings.plain_toJson (plain : ∀ setting : Setting, (settings.value setting).Plain) : settings.toJson.Plain := by
  have members (group : SettingGroup) : Json.PlainMembers (settings.members group) := by
    refine Json.plainMembers_of_forall fun member inside => ?_
    obtain ⟨setting, _, rfl⟩ := List.mem_map.mp inside
    exact ⟨⟨setting.key, rfl⟩, plain setting⟩
  have group (group : SettingGroup) : (Json.object (settings.members group)).Plain :=
    ⟨settings.nodup_keys group, members group⟩
  refine ⟨?_, ⟨_, rfl⟩, group .annotators, ⟨_, rfl⟩, group .ui, members .top⟩
  have beside (key : String) (free : key ∉ SettingGroup.top.settings.map Setting.key) :
      JsonText.ofString key ∉ (settings.members .top).map (·.1) := fun inside => free (mem_keys_iff.mp inside)
  have apart : JsonText.ofString "annotators" ≠ JsonText.ofString "ui" := by
    rw [Ne, JsonText.ofString_inj]
    decide
  refine List.nodup_cons.mpr ⟨?_, List.nodup_cons.mpr ⟨beside "ui" (by decide), settings.nodup_keys .top⟩⟩
  exact List.not_mem_cons_of_ne_of_not_mem apart (beside "annotators" (by decide))

/-- Settings of strings and of counts that can be written are read back from their file. -/
theorem Settings.WellTyped.ofBytes_toJson (typed : settings.WellTyped)
    (plain : ∀ setting : Setting, (settings.value setting).Plain) :
    Json.ofBytes (encodeUtf8 settings.toJson.indented) = .ok settings.toJson :=
  Json.ofBytes_indented (Settings.plain_toJson plain) (Nat.le_trans typed.depth_le (by decide))

/-- Settings with a blame mode and a font size of their own. -/
def sizedSettings : Settings :=
  (Settings.standard.set .blameMode (.text (BlameMode.both.name : JsonText))).set .fontSize (.integer 14)

/-- Everything but the size of the font. -/
def besideSize : SettingGroup → List JsonText
  | .annotators => []
  | .ui => ["style_sheet", "background", "font_family", "window_width", "window_height", "scroll_context_lines"]
  | .top => ["annotators", "recent_files", "recent_files_limit"]

/-- The size of the font alone. -/
def sizedBytes : Bytes :=
  encodeUtf8 "\x7b\"ui\": \x7b\"font_size\": 14\x7d\x7d"

def sizedStore : SettingsStore :=
  { path := ⟨.here, ["settings.json"]⟩, files := .single "settings.json" sizedBytes }

/-- Whether a value is an object of one member, and what the key stands for passes a test. -/
def Json.isSingle (key : JsonText) (passes : Json → Bool) : Json → Bool
  | .object members => members.map (·.1) = [key] && members.all fun member => passes member.2
  | _ => false

def Json.isInteger (number : Int) : Json → Bool
  | .integer value => value = number
  | _ => false

theorem Json.exists_of_isSingle {value : Json} {key : JsonText} {passes : Json → Bool}
    (single : value.isSingle key passes = true) : ∃ inner, value = .object [(key, inner)] ∧ passes inner = true := by
  unfold isSingle at single
  split at single
  · obtain ⟨keys, passed⟩ := Bool.and_eq_true_iff.mp single
    obtain ⟨⟨known, inner⟩, rfl, rfl⟩ := List.map_eq_singleton_iff.mp (of_decide_eq_true keys)
    exact ⟨inner, rfl, List.all_eq_true.mp passed _ List.mem_cons_self⟩
  · cases single

theorem Json.eq_of_isInteger {value : Json} {number : Int} (same : value.isInteger number = true) :
    value = .integer number := by
  unfold isInteger at same
  split at same
  · rw [of_decide_eq_true same]
  · cases same

theorem ofBytes_sizedBytes : Json.ofBytes sizedBytes = .ok (sizedSettings.remains besideSize) := by
  have left : sizedSettings.remains besideSize =
      .object [(.ofString "ui", .object [(.ofString "font_size", .integer 14)])] := rfl
  have seen : (Json.ofBytes sizedBytes).toOption.any
      (Json.isSingle "ui" (Json.isSingle "font_size" (Json.isInteger 14))) = true := by
    decide +kernel
  obtain ⟨_, parsed, passed⟩ := exists_ok_of_any seen
  obtain ⟨_, rfl, inside⟩ := Json.exists_of_isSingle passed
  obtain ⟨_, rfl, size⟩ := Json.exists_of_isSingle inside
  rw [parsed, left, Json.eq_of_isInteger size]

/-- In the current folder a file can be made where there is no folder of its name. -/
theorem Files.exists_install_here (files : Files) {name : String} (whole : '\x00' ∉ name.toList)
    (short : name.utf8ByteSize ≤ stepLimit) (downward : name ≠ "..") (free : files.at? ⟨false, 0, [name]⟩ ≠ some .folder)
    (bytes : Bytes) : ∃ after, files.install ⟨.here, [name]⟩ bytes = .ok after := by
  have folders : files.makeFolders (Path.mk .here [name]).parent = .ok files := rfl
  have placed := files.place_here whole short downward
  have written : files.write ⟨.here, [name]⟩ bytes = .ok (files.put ⟨false, 0, [name]⟩ (.file bytes)) := by
    simp only [write, placed, bind, Except.bind]
  exact ⟨_, by rw [install, folders]; exact written⟩

theorem wellTyped_sizedSettings : sizedSettings.WellTyped := by
  intro setting
  rw [sizedSettings, Settings.value_set, Settings.value_set]
  split
  · rename_i size
    exact size ▸ ⟨14, rfl⟩
  · split
    · rename_i mode
      exact mode ▸ ⟨.both, rfl⟩
    · exact Settings.wellTyped_standard setting

theorem Json.plain_texts (items : List String) : (Json.texts items).Plain := by
  refine Json.plainItems_of_forall fun item member => ?_
  obtain ⟨text, _, rfl⟩ := List.mem_map.mp member
  exact ⟨text, rfl⟩

theorem plain_sizedSettings (setting : Setting) : (sizedSettings.value setting).Plain := by
  cases setting with
  | bracketTypes => exact Json.plain_texts _
  | lintKeywords => exact Json.plain_texts _
  | blameFiletypes => exact Json.plain_texts _
  | lintFiletypes => exact Json.plain_texts _
  | blameMode => exact ⟨_, rfl⟩
  | styleSheet => exact ⟨_, rfl⟩
  | background => exact ⟨_, rfl⟩
  | fontFamily => exact ⟨_, rfl⟩
  | fontSize => exact (by decide : isWritable 14 = true)
  | windowWidth => exact (by decide : isWritable 1000 = true)
  | windowHeight => exact (by decide : isWritable 750 = true)
  | scrollContextLines => exact (by decide : isWritable 3 = true)
  | recentFilesLimit => exact (by decide : isWritable 10 = true)
  | _ => trivial

/-- The font keeps its size, and the blame mode is lost with its group. Saved over that file, both are there again. -/
theorem SettingsStore.load_remains_sized :
    (∃ loaded, sizedStore.load = .ok loaded ∧ loaded.value .fontSize = .integer 14 ∧
      sizedSettings.value .blameMode = .text (.ofString "BOTH") ∧
      loaded.value .blameMode = .text (.ofString "AGE")) ∧
    ∃ after, sizedStore.saveAs sizedSettings = (after, .ok true) ∧ after.load = .ok sizedSettings := by
  have remains := SettingsStore.load_remains wellTyped_sizedSettings besideSize
  have found : sizedStore.files.read sizedStore.path = .ok sizedBytes :=
    Files.read_single (by decide) (by decide) (by decide)
  constructor
  · obtain ⟨loaded, read, values⟩ := remains.1 sizedStore sizedBytes found ofBytes_sizedBytes
    refine ⟨loaded, read, ?_, rfl, ?_⟩
    · exact (values .fontSize).trans (if_neg (by decide))
    · exact (values .blameMode).trans (if_pos (by decide))
  · obtain ⟨saves, loads⟩ := remains.2 sizedStore
    have saved := saves.mpr (sizedStore.files.exists_install_here (by decide) (by decide) (by decide) (by decide) _)
    obtain ⟨_, _, _, again⟩ := loads _ (Prod.ext rfl saved)
    exact ⟨_, Prod.ext rfl saved, again (wellTyped_sizedSettings.ofBytes_toJson plain_sizedSettings)⟩

end Marginalia
