import CodeSearch.Scalar
import CodeSearch.Text.Quoted

/-! # Settings

Every limit of the index is a setting. Bounds on lengths may be negative, in which case they count
from the end of what they cut.
-/

namespace CodeSearch

/-- The limits of splitting, embedding, searching and walking. -/
structure Settings (α : Type) [Scalar α] where
  filePreviewLength : Int := 2000
  filePreviewLines : Int := 50
  blockContentLength : Int := 500
  fullContentLength : Int := 1000
  maxLookbackLines : Int := 10
  minBlockGap : Int := 5
  minBlockLength : Int := 50
  maxFunctionLines : Int := 200
  maxClassLines : Int := 500
  defaultEndLineOffset : Int := 20
  embeddingDimensions : Int := 256
  embeddingTextLimit : Int := 1500
  embeddingBatchSize : Int := 50
  defaultLimit : Int := 10
  defaultMinScore : α := 0.1
  cacheSeconds : α := Scalar.ofNat 300
  maxCacheEntries : Int := 100
  contextContentLimit : Int := 2500
  topChunksPerFile : Int := 3
  contextWindowLines : Int := 5
  stalenessSeconds : α := Scalar.ofNat 300
  maxFileSize : Int := 500 * 1024
  fileReadBatchSize : Int := 10
  excludedDirectories : List String := [
    "node_modules", ".git", ".vscode", ".idea", "dist", "build", "target", "bin", "obj", ".next",
    ".nuxt", ".output", "coverage", ".coverage", "__pycache__", ".pytest_cache", ".venv", "venv",
    "env", "site-packages"]
  excludedExtensions : List String := [".log", ".tmp", ".cache", ".pid"]
  excludedFiles : List String := [".DS_Store", ".eslintcache"]

/-- Why settings are refused. -/
inductive SettingsFault where
  | tooFewDimensions
  | noCacheEntries
  | emptyBatches
  /-- An environment variable should hold a whole number. -/
  | notInteger (name value : String)
  /-- An environment variable should hold a number. -/
  | notNumber (name value : String)
  /-- A variable cannot be set under a name with an equals sign. -/
  | illegalName
  /-- A variable cannot be set with a null character in it. -/
  | nullCharacter
  /-- The file of variables is not text. -/
  | unreadable (reason : String)
  deriving DecidableEq

def SettingsFault.message : SettingsFault → String
  | tooFewDimensions => "embedding_dimensions must be at least 3"
  | noCacheEntries => "max_cache_entries must be positive"
  | emptyBatches => "batch sizes must be positive"
  | notInteger name value => name ++ " must be an integer, got " ++ quotedText value
  | notNumber name value => name ++ " must be a number, got " ++ quotedText value
  | illegalName => "illegal environment variable name"
  | nullCharacter => "embedded null byte"
  | unreadable reason => reason

namespace Settings

variable {α : Type} [Scalar α]

instance : Inhabited (Settings α) := ⟨{}⟩

/-- What every session may rely on. -/
structure Valid (settings : Settings α) : Prop where
  dimensions : 3 ≤ settings.embeddingDimensions
  cacheEntries : 1 ≤ settings.maxCacheEntries
  embeddingBatch : 1 ≤ settings.embeddingBatchSize
  readBatch : 1 ≤ settings.fileReadBatchSize

/-- Dimensions are checked first, then the cache, then the batches. -/
def check (settings : Settings α) : Except SettingsFault (Settings α) :=
  if settings.embeddingDimensions < 3 then .error .tooFewDimensions
  else if settings.maxCacheEntries < 1 then .error .noCacheEntries
  else if settings.embeddingBatchSize < 1 ∨ settings.fileReadBatchSize < 1 then .error .emptyBatches
  else .ok settings

theorem check_eq_ok_iff (settings accepted : Settings α) :
    settings.check = .ok accepted ↔ accepted = settings ∧ settings.Valid := by
  unfold check
  constructor
  · intro success
    split at success
    · cases success
    · split at success
      · cases success
      · split at success
        · cases success
        · cases success
          exact ⟨rfl, by omega, by omega, by omega, by omega⟩
  · rintro ⟨rfl, dimensions, cacheEntries, embeddingBatch, readBatch⟩
    rw [if_neg (by omega), if_neg (by omega), if_neg (by omega)]

end Settings

end CodeSearch
