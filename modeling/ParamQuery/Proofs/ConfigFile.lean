import ParamQuery.Proofs.Toml.Document

/-!
# Configuration files read back

A configuration that was written to a file is the one that the file gives, if it passes its checks.
It can be written if its counts are below `2 ^ 63`.

## Main definitions

* `Config.settings` — the lines of the document of a configuration.

## Main statements

* `Config.read?_toText` — the document of a configuration defines its settings.
* `Config.loadFile_saveFile` — writing a configuration to a file, and reading it back.
-/

namespace ParamQuery.Config

open Toml

/-- A line that defines a count. -/
def countSetting (key : String) (n : Nat) : Setting := ⟨key, (toString n).toList, .integer n⟩

/-- A line that defines a text. -/
def textSetting (key text : String) : Setting := ⟨key, writeString text.toList, .string text⟩

/-- The lines of the document of a configuration. -/
def settings (config : Config) : List Setting :=
  [countSetting "default_limit" config.defaultLimit,
    countSetting "default_offset" config.defaultOffset] ++
  (config.maxLimit.map (countSetting "max_limit")).toList ++
  [textSetting "default_order" config.defaultOrder]

/-- All counts of a configuration are whole numbers of TOML. -/
def Writable (config : Config) : Prop := ∀ n ∈ config.counts, n ≤ 9223372036854775807

variable {config : Config}

theorem holds_of_writable (h : config.Writable) {n : Nat} (hn : n ∈ config.counts) :
    IntegerType.int64.holds n = true := by
  have hle := h n hn
  rw [IntegerType.int64_holds_ofNat_iff]
  omega

theorem all_holds_iff :
    (config.counts.all fun n => IntegerType.int64.holds n) = true ↔ config.Writable := by
  rw [List.all_eq_true]
  constructor
  · intro h n hn
    have hlt := IntegerType.int64_holds_ofNat_iff.1 (h n hn)
    omega
  · intro h n hn
    exact holds_of_writable h hn

theorem readable_settings (h : config.Writable) :
    ∀ setting ∈ config.settings, setting.Readable := by
  have hcount {key : String} {n : Nat} (hkey : IsBare key) (hn : n ∈ config.counts) :
      (countSetting key n).Readable := ⟨hkey, readsAs_natural (holds_of_writable h hn)⟩
  intro setting hsetting
  simp only [settings, List.mem_append, List.mem_cons, List.not_mem_nil, or_false,
    Option.mem_toList, Option.map_eq_some_iff] at hsetting
  rcases hsetting with ((rfl | rfl) | ⟨max, hmax, rfl⟩) | rfl
  · exact hcount (by decide) (by simp [counts])
  · exact hcount (by decide) (by simp [counts])
  · exact hcount (by decide) (by simp [counts, hmax])
  · have hkey : IsBare "default_order" := by decide
    exact ⟨hkey, readsAs_string config.defaultOrder⟩

theorem nodup_settings (config : Config) : (config.settings.map Setting.key).Nodup := by
  obtain ⟨limit, offset, _ | max, order⟩ := config
  · show ["default_limit", "default_offset", "default_order"].Nodup
    decide
  · show ["default_limit", "default_offset", "max_limit", "default_order"].Nodup
    decide

/-- The document of a configuration, whose counts are whole numbers of TOML, is that of its
settings. -/
theorem toText_of_writable (h : config.Writable) :
    config.toText = .ok (String.ofList (config.settings.flatMap Setting.line)) := by
  rw [toText, if_pos (all_holds_iff.2 h)]
  obtain ⟨limit, offset, _ | max, order⟩ := config
  · simp [settings, countSetting, textSetting, Setting.line]
  · simp [settings, countSetting, textSetting, Setting.line]

theorem toText_of_not_writable (h : ¬ config.Writable) :
    config.toText = .error (.config .unwritable) := by
  rw [toText, if_neg (mt all_holds_iff.1 h)]

/-- The settings of a configuration are those of this configuration. -/
theorem ofEntries?_settings (config : Config) :
    ofEntries? (config.settings.map fun setting => (setting.key, setting.value)) = some config := by
  obtain ⟨limit, offset, _ | max, order⟩ := config
  · simp [settings, ofEntries?, countSetting, textSetting, countAt?, textAt?, Assoc.get?]
  · simp [settings, ofEntries?, countSetting, textSetting, countAt?, textAt?, Assoc.get?]

/-- The document of a configuration holds this configuration. -/
theorem ofText_settings (h : config.Writable) :
    ofText (String.ofList (config.settings.flatMap Setting.line)) =
      config.check.map fun _ => config := by
  have hread := read?_lines (readable_settings h) (nodup_settings config)
  rw [ofText, hread, Option.bind_some, ofEntries?_settings]

/-- Saving a configuration succeeds if and only if its counts are below `2 ^ 63`; otherwise the file
stays as it was. From the file that was written this very configuration is loaded if it passes its
checks, whatever its order is; if it does not, loading it fails with the error of the check. -/
theorem loadFile_of_saveFile (config : Config) (file : File) :
    ((config.saveFile file).1 = .ok () ↔ ∀ n ∈ config.counts, n ≤ 9223372036854775807) ∧
      ((config.saveFile file).1 ≠ .ok () → (config.saveFile file).2 = file) ∧
      ((config.saveFile file).1 = .ok () →
        loadFile (config.saveFile file).2 = config.check.map fun _ => config) := by
  by_cases h : config.Writable
  · have hsave : config.saveFile file =
        (.ok (), some (String.ofList (config.settings.flatMap Setting.line))) := by
      rw [saveFile, toText_of_writable h]
    have hload := ofText_settings h
    rw [hsave]
    refine ⟨iff_of_true rfl h, fun hne => absurd rfl hne, fun _ => ?_⟩
    rw [loadFile, hload]
  · have hsave : config.saveFile file = (.error (.config .unwritable), file) := by
      rw [saveFile, toText_of_not_writable h]
    rw [hsave]
    exact ⟨iff_of_false nofun h, fun _ => rfl, nofun⟩

end ParamQuery.Config
