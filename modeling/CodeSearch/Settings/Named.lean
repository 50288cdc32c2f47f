import CodeSearch.Json.Value
import CodeSearch.Settings.Basic
import CodeSearch.Text.Sorting

/-! # Settings by name

Every setting has a name, under which it is shown and may be given. Values of any kind may be given:
the bounds of the settings are looked at one after another, and a value that cannot be compared with
its bound is refused in its turn. Otherwise values of a wrong kind leave their setting as it is.
-/

namespace CodeSearch

/-- Why settings that are given by name are refused. -/
inductive NamedFault where
  | unknownName (name : String)
  /-- A value of this kind cannot be compared with a whole number. -/
  | incomparable (kind : String)
  | settings (fault : SettingsFault)
  deriving DecidableEq

def NamedFault.message : NamedFault → String
  | unknownName name => "IndexConfig.__init__() got an unexpected keyword argument '" ++ name ++ "'"
  | incomparable kind =>
    "'<' not supported between instances of '" ++ kind ++ "' and 'int'"
  | settings fault => fault.message

/-- A setting with its name: how it is read off and replaced. -/
structure NamedSetting (β : Type) where
  name : String
  value : Settings Float → β
  replace : Settings Float → β → Settings Float

namespace NamedSetting

/-- The settings that are whole numbers. -/
def whole : List (NamedSetting Int) := [
  ⟨"file_preview_length", (·.filePreviewLength), fun s n => { s with filePreviewLength := n }⟩,
  ⟨"file_preview_lines", (·.filePreviewLines), fun s n => { s with filePreviewLines := n }⟩,
  ⟨"block_content_length", (·.blockContentLength), fun s n => { s with blockContentLength := n }⟩,
  ⟨"full_content_length", (·.fullContentLength), fun s n => { s with fullContentLength := n }⟩,
  ⟨"max_lookback_lines", (·.maxLookbackLines), fun s n => { s with maxLookbackLines := n }⟩,
  ⟨"min_block_gap", (·.minBlockGap), fun s n => { s with minBlockGap := n }⟩,
  ⟨"min_block_length", (·.minBlockLength), fun s n => { s with minBlockLength := n }⟩,
  ⟨"max_function_lines", (·.maxFunctionLines), fun s n => { s with maxFunctionLines := n }⟩,
  ⟨"max_class_lines", (·.maxClassLines), fun s n => { s with maxClassLines := n }⟩,
  ⟨"default_end_line_offset", (·.defaultEndLineOffset),
    fun s n => { s with defaultEndLineOffset := n }⟩,
  ⟨"embedding_dimensions", (·.embeddingDimensions), fun s n => { s with embeddingDimensions := n }⟩,
  ⟨"embedding_text_limit", (·.embeddingTextLimit), fun s n => { s with embeddingTextLimit := n }⟩,
  ⟨"embedding_batch_size", (·.embeddingBatchSize), fun s n => { s with embeddingBatchSize := n }⟩,
  ⟨"default_limit", (·.defaultLimit), fun s n => { s with defaultLimit := n }⟩,
  ⟨"max_cache_entries", (·.maxCacheEntries), fun s n => { s with maxCacheEntries := n }⟩,
  ⟨"context_content_limit", (·.contextContentLimit),
    fun s n => { s with contextContentLimit := n }⟩,
  ⟨"top_chunks_per_file", (·.topChunksPerFile), fun s n => { s with topChunksPerFile := n }⟩,
  ⟨"context_window_lines", (·.contextWindowLines), fun s n => { s with contextWindowLines := n }⟩,
  ⟨"max_file_size", (·.maxFileSize), fun s n => { s with maxFileSize := n }⟩,
  ⟨"file_read_batch_size", (·.fileReadBatchSize), fun s n => { s with fileReadBatchSize := n }⟩]

/-- The settings that are numbers. -/
def real : List (NamedSetting Float) := [
  ⟨"default_min_score", (·.defaultMinScore), fun s x => { s with defaultMinScore := x }⟩,
  ⟨"cache_ttl_seconds", (·.cacheSeconds), fun s x => { s with cacheSeconds := x }⟩,
  ⟨"staleness_seconds", (·.stalenessSeconds), fun s x => { s with stalenessSeconds := x }⟩]

/-- The settings that are sets of names. -/
def names : List (NamedSetting (List String)) := [
  ⟨"excluded_directories", (·.excludedDirectories), fun s l => { s with excludedDirectories := l }⟩,
  ⟨"excluded_extensions", (·.excludedExtensions), fun s l => { s with excludedExtensions := l }⟩,
  ⟨"excluded_files", (·.excludedFiles), fun s l => { s with excludedFiles := l }⟩]

/-- Replaces the setting of a table that has a given name, if the value is of its kind. -/
def replaceIn {β : Type} (table : List (NamedSetting β)) (read : Value → Option β)
    (settings : Settings Float) (name : String) (value : Value) : Settings Float :=
  match table.find? fun setting => setting.name == name, read value with
  | some setting, some value => setting.replace settings value
  | _, _ => settings

/-- The values of the settings of a table under their names. -/
def shown {β : Type} (table : List (NamedSetting β)) (form : β → Value)
    (settings : Settings Float) : List (String × Value) :=
  table.map fun setting => (setting.name, form (setting.value settings))

end NamedSetting

namespace Value

/-- The double that stands for a number; the truth values count as one and zero. -/
def double? : Value → Option Float
  | integer n => some (Float.ofInt n)
  | real x => some x
  | bool b => some (if b then 1 else 0)
  | _ => none

def whole? : Value → Option Int
  | integer n => some n
  | bool b => some (if b then 1 else 0)
  | _ => none

def names? : Value → Option (List String)
  | list items => some (items.filterMap fun
    | text name => some name
    | _ => none)
  | _ => none

end Value

namespace Settings

/-- The names of all settings. -/
def allNames : List String :=
  NamedSetting.whole.map NamedSetting.name ++ NamedSetting.real.map NamedSetting.name ++
    NamedSetting.names.map NamedSetting.name

/-- The bounded settings in the order in which they are looked at, their least values, and what is
wrong with smaller ones. -/
def bounds : List (String × Float × SettingsFault) := [
  ("embedding_dimensions", 3, .tooFewDimensions), ("max_cache_entries", 1, .noCacheEntries),
  ("embedding_batch_size", 1, .emptyBatches), ("file_read_batch_size", 1, .emptyBatches)]

/-- What is wrong with values for bounded settings, if anything is. -/
def boundFault? (given : List (String × Value)) : Option NamedFault :=
  bounds.findSome? fun (name, least, fault) => do
    let value ← given.lookup name
    match value.double? with
    | none => some (.incomparable value.kindName)
    | some x => if x < least then some (.settings fault) else none

/-- Puts a value in the place of the setting of a name. -/
def withNamed (settings : Settings Float) (name : String) (value : Value) : Settings Float :=
  let settings := NamedSetting.replaceIn NamedSetting.whole Value.whole? settings name value
  let settings := NamedSetting.replaceIn NamedSetting.real Value.double? settings name value
  NamedSetting.replaceIn NamedSetting.names Value.names? settings name value

/-- The standard settings with those replaced that are given by name. -/
def ofNamed (given : List (String × Value)) : Except NamedFault (Settings Float) :=
  match given.find? fun (name, _) => !allNames.contains name, boundFault? given with
  | some (name, _), _ => .error (.unknownName name)
  | none, some fault => .error fault
  | none, none =>
    let settings : Settings Float :=
      given.foldl (fun settings (name, value) => withNamed settings name value) {}
    settings.check.mapError .settings

/-- All settings under their names, with sets in order; `form` writes numbers. -/
def toNamed (form : Float → Value) (settings : Settings Float) : List (String × Value) :=
  let set (names : List String) : Value := .list ((sortedSet names).map .text)
  NamedSetting.shown NamedSetting.whole .integer settings ++
    NamedSetting.shown NamedSetting.real form settings ++
    NamedSetting.shown NamedSetting.names set settings

end Settings

end CodeSearch
