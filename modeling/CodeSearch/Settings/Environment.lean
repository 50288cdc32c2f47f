import CodeSearch.Numeral.Parse
import CodeSearch.OrderedMap
import CodeSearch.Settings.Basic

/-! # Settings from the environment

Some settings are taken from environment variables. A variable that is empty counts as not set.
Whole numbers are read before the others, and all are read before the settings are checked.
-/

namespace CodeSearch

/-- Variables by their names. -/
abbrev Environment := OrderedMap String String

namespace Environment

/-- What the names of all variables start with. -/
def family : String := "CODERAG_"

/-- The text of a variable that is set and not empty. -/
def setting? (environment : Environment) (name : String) : Option String :=
  (environment.get? (family ++ name)).filter fun value => !value.isEmpty

/-- The whole number that a variable holds, if it is set. -/
def integer? (environment : Environment) (name : String) : Except SettingsFault (Option Int) :=
  match environment.setting? name with
  | none => .ok none
  | some value =>
    match Numeral.integer? value.toList with
    | some n => .ok (some n)
    | none => .error (.notInteger (family ++ name) value)

/-- The number that a variable holds, if it is set. -/
def real? (environment : Environment) (name : String) : Except SettingsFault (Option Float) :=
  match environment.setting? name with
  | none => .ok none
  | some value =>
    match Numeral.real? value.toList with
    | some x => .ok (some x)
    | none => .error (.notNumber (family ++ name) value)

end Environment

/-- The settings that an environment asks for. -/
def Settings.ofEnvironment (environment : Environment) : Except SettingsFault (Settings Float) := do
  let standard : Settings Float := {}
  let maxCacheEntries ← environment.integer? "MAX_CACHE_ENTRIES"
  let maxFileSize ← environment.integer? "MAX_FILE_SIZE"
  let embeddingDimensions ← environment.integer? "EMBEDDING_DIM"
  let embeddingBatchSize ← environment.integer? "EMBEDDING_BATCH_SIZE"
  let cacheSeconds ← environment.real? "CACHE_TTL"
  let stalenessSeconds ← environment.real? "STALENESS"
  let defaultMinScore ← environment.real? "MIN_SCORE"
  Settings.check
    { maxCacheEntries := maxCacheEntries.getD standard.maxCacheEntries
      maxFileSize := maxFileSize.getD standard.maxFileSize
      embeddingDimensions := embeddingDimensions.getD standard.embeddingDimensions
      embeddingBatchSize := embeddingBatchSize.getD standard.embeddingBatchSize
      cacheSeconds := cacheSeconds.getD standard.cacheSeconds
      stalenessSeconds := stalenessSeconds.getD standard.stalenessSeconds
      defaultMinScore := defaultMinScore.getD standard.defaultMinScore }

end CodeSearch
