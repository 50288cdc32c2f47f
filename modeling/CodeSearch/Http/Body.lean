import CodeSearch.Http.Field
import CodeSearch.Session.Answer

/-! # Bodies of requests and replies

Each call has its own form of body. A body that has the form is a request to the session, whatever
else stands in it. Answers are written as records.
-/

namespace CodeSearch.Http

def indexBody (body : Value) : Checked (Request Float) :=
  ((required "path" readText body).map fun path force => Request.index (.given path) force).apply
    (optional "force" readBool false body)

def updateBody (body : Value) : Checked (Request Float) :=
  ((required "path" readText body).map fun path filePath =>
    Request.update (.given path) (.given filePath)).apply (required "file_path" readText body)

/-- A search with the options of its body. -/
def searchRequest (query : String) (limit : Option Int) (minScore : Option Float)
    (fileTypes boostTypes : Option (List String)) (useCache : Bool) : Request Float :=
  .search (.given query) (.given (limit.map .given) (minScore.map fun score => .given (.real score))
    fileTypes boostTypes useCache)

def searchBody (body : Value) : Checked (Request Float) :=
  let types (name : String) : Checked (Option (List String)) :=
    optional name (readOptional (readList readText)) none body
  let query := (required "query" readText body).map searchRequest
  let limit := query.apply (optional "limit" (readOptional readInteger) none body)
  let minScore := limit.apply (optional "min_score" (readOptional readNumber) none body)
  let fileTypes := minScore.apply (types "file_types")
  let boostTypes := fileTypes.apply (types "boost_types")
  boostTypes.apply (optional "use_cache" readBool true body)

def contextBody (body : Value) : Checked (Request Float) :=
  let query := (required "query" readText body).map fun query path limit =>
    Request.context (.given query) (.given path) (.given limit)
  (query.apply (required "path" readText body)).apply (optional "limit" readInteger 5 body)

def clearBody (body : Value) : Checked (Request Float) :=
  (optional "path" (readOptional readText) none body).map fun path => .clear (path.map .given)

/-- The calls that have a form of body. -/
inductive Form where
  | index
  | search
  | context
  | update
  | clear

def Form.read : Form → Value → Checked (Request Float)
  | index => indexBody
  | search => searchBody
  | context => contextBody
  | update => updateBody
  | clear => clearBody

/-- Only a record has fields. -/
def readRecord (read : Value → Checked (Request Float)) : Value → Checked (Request Float)
  | .record fields => read (.record fields)
  | value => .refuse value .notRecord

def textOrNull : Option String → Value
  | some text => .text text
  | none => .null

def ofCounts (counts : OrderedMap String Nat) : Value :=
  .record (counts.entries.map fun (kind, count) => (kind, .integer count))

def ofReport (report : PassReport) : Value :=
  .record [
    ("project_path", .text report.projectPath),
    ("total_files_scanned", .integer report.filesScanned),
    ("total_files_indexed", .integer report.filesIndexed),
    ("total_chunks_created", .integer report.chunksCreated),
    ("total_embeddings_generated", .integer report.embeddingsGenerated),
    ("chunks_by_type", ofCounts report.kindCounts),
    ("errors", .list (report.errors.map .text)),
    ("from_cache", .bool report.fromCache)]

def ofHit (hit : Hit Float) : Value :=
  .record [
    ("id", .text hit.chunk.id),
    ("file_path", .text hit.chunk.filePath),
    ("language", .text hit.chunk.language),
    ("chunk_type", .text hit.chunk.kind.name),
    ("start_line", .integer hit.chunk.startLine),
    ("end_line", .integer hit.chunk.endLine),
    ("symbol", textOrNull (hit.chunk.symbol.map Symbol.name)),
    ("content", .text hit.chunk.content),
    ("score", .real hit.score),
    ("relevance", .text hit.relevance.name)]

def ofItem (item : ContextItem Float) : Value :=
  .record [("path", .text item.path), ("content", .text item.content), ("score", .real item.score)]

def ofTotals (totals : Totals Float) : Value :=
  .record [
    ("chunk_count", .integer totals.chunks),
    ("embedding_count", .integer totals.embeddings),
    ("cache_size", .integer totals.cachedAnswers),
    ("path", textOrNull totals.path),
    ("file_count", .integer totals.files),
    ("chunk_types", ofCounts totals.kindCounts),
    ("indexed_at", (totals.indexedAt.map .real).getD .null)]

/-- The record that an answer is sent as. -/
def ofAnswer : Answer Float → Value
  | .indexed report => .record [("success", .bool true), ("stats", ofReport report)]
  | .updated refreshed => .record [("success", .bool refreshed)]
  | .found hits => .record [("results", .list (hits.map ofHit))]
  | .shown items => .record [("context", .list (items.map ofItem))]
  | .cleared => .record [("success", .bool true)]

end CodeSearch.Http
