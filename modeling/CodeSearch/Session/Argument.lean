import CodeSearch.Files.Basic
import CodeSearch.Path
import CodeSearch.Search.OptionsInput

/-! # Arguments of calls

Callers may supply arguments of any kind. An argument of a kind that is not asked for is known only
by the name of its kind, which the refusal mentions.
-/

namespace CodeSearch

/-- An argument: a value of the kind that is asked for, or the name of another kind. -/
inductive Argument (β : Type) where
  | given (value : β)
  | other (kind : String)

/-- The options of a search as a caller supplied them. Lists that hold other things than texts have
no key, which matters once an answer is looked up. -/
inductive OptionsArgument (α : Type) where
  | absent
  | other (kind : String)
  | given (limit : Option (Argument Int)) (minScore : Option (Argument (Number α)))
      (fileTypes boostTypes : Option (List String)) (useCache : Bool)
      (unkeyed : Option OptionsFault := none)

/-- Why a call ends without an answer. -/
inductive CallFault where
  | projectPathKind (kind : String)
  | emptyProjectPath
  | queryKind (kind : String)
  | limitKind (kind : String)
  | negativeLimit
  | optionsKind (kind : String)
  | minScoreKind
  | options (fault : OptionsFault)
  | filePathKind (kind : String)
  | outsideProject (filePath root : String)
  /-- The file system failed in a way that the call does not bear. -/
  | files (fault : FileFault)
  deriving DecidableEq

namespace CallFault

def message : CallFault → String
  | projectPathKind kind => "project path must be a string or path, got " ++ kind
  | emptyProjectPath => "project path must not be empty"
  | queryKind kind => "query must be a string, got " ++ kind
  | limitKind kind => "limit must be an integer, got " ++ kind
  | negativeLimit => "limit must not be negative"
  | optionsKind kind => "options must be SearchOptions, got " ++ kind
  | minScoreKind => "min_score must be a number"
  | options fault => fault.message
  | filePathKind kind => "file path must be a string or path, got " ++ kind
  | outsideProject filePath root => filePath ++ " is outside project " ++ root
  | files fault => fault.message

end CallFault

namespace Argument

/-- The normal form of a project's path. -/
def projectPath : Argument String → Except CallFault String
  | given path => if path.isEmpty then .error .emptyProjectPath else .ok (Path.absolute path)
  | other kind => .error (.projectPathKind kind)

def query : Argument String → Except CallFault String
  | given text => .ok text
  | other kind => .error (.queryKind kind)

def filePath : Argument String → Except CallFault String
  | given path => .ok path
  | other kind => .error (.filePathKind kind)

/-- Limits are not negative. -/
def limit : Argument Int → Except CallFault Int
  | given limit => if limit < 0 then .error .negativeLimit else .ok limit
  | other kind => .error (.limitKind kind)

def minScore {α : Type} : Argument (Number α) → Except CallFault (Number α)
  | given score => .ok score
  | other _ => .error .minScoreKind

end Argument

/-- The options of a search in normal form; the limit is looked at before the least score. -/
def OptionsArgument.check {α : Type} [Scalar α] :
    OptionsArgument α → Except CallFault (SearchOptions α)
  | absent => .ok {}
  | other kind => .error (.optionsKind kind)
  | given limit minScore fileTypes boostTypes useCache _ => do
    let limit ← limit.mapM Argument.limit
    let minScore ← minScore.mapM Argument.minScore
    return SearchOptions.normalized { limit, minScore, fileTypes, boostTypes, useCache }

/-- Why an answer cannot be looked up, if it is to be. -/
def OptionsArgument.keyFault? {α : Type} : OptionsArgument α → Option OptionsFault
  | given _ _ _ _ true unkeyed => unkeyed
  | _ => none

end CodeSearch
