import Obsidian.Collections
import Obsidian.Data.Text
import Mathlib.Data.List.Infix

namespace Obsidian.App

open Obsidian.Data

/-! # GraphQL requests

`AnalyzeBody` of the GraphQL analyzer.  `encoding/json` is a parameter: which queries a body
decodes to.
-/

structure GraphQLConfig where
  enabled : Bool := true
  maxDepth : Int := 10
  maxComplexity : Int := 1000
  blockIntrospection : Bool := true
  allowBatching : Bool := false
  maxBatchSize : Int := 5
  maxAliases : Int := 20
  maxFieldLength : Int := 64
  fieldComplexityMap : List (Bytes × Int) :=
    [(str "users", 10), (str "allUsers", 50), (str "transactions", 20), (str "logs", 15)]

structure AnalysisResult where
  isValid : Bool := true
  error : Option GoError := none
  depth : Int := 0
  complexity : Int := 0
  aliasCount : Int := 0
  fieldCount : Int := 0
  isBatched : Bool := false
  batchSize : Int := 0
  hasIntrospection : Bool := false
  warnings : List Bytes := []
deriving DecidableEq

def AnalysisResult.refuse (result : AnalysisResult) (error : GoError) : AnalysisResult :=
  { result with isValid := false, error := some error }

@[simp] theorem AnalysisResult.refuse_isValid (result : AnalysisResult) (error : GoError) :
    (result.refuse error).isValid = false := rfl

namespace GraphQL

def errQueryTooDeep : GoError := str "GraphQL query depth exceeds limit"
def errQueryTooComplex : GoError := str "GraphQL query complexity exceeds limit"
def errIntrospectionBlocked : GoError := str "GraphQL introspection is disabled"
def errBatchingDisabled : GoError := str "GraphQL query batching is disabled"
def errFieldTooLong : GoError := str "GraphQL field alias too long"
def errTooManyAliases : GoError := str "too many field aliases in query"
def errMalformedQuery : GoError := str "malformed GraphQL query"
def errBatchSize : GoError := str "batch size exceeds limit"

/-! ## Measures of a query -/

structure Depth where
  current : Int := 0
  max : Int := 0

def Depth.step (depth : Depth) (char : Nat) : Depth :=
  if char = 0x7B then
    { current := depth.current + 1
      max := if depth.max < depth.current + 1 then depth.current + 1 else depth.max }
  else if char = 0x7D then { depth with current := depth.current - 1 }
  else depth

def calculateDepth (query : Bytes) : Int :=
  ((runes query).foldl (fun depth r => depth.step r.code) ({} : Depth)).max

def isWordByte (b : UInt8) : Bool :=
  48 ≤ b ∧ b ≤ 57 ∨ 65 ≤ b ∧ b ≤ 90 ∨ 97 ≤ b ∧ b ≤ 122 ∨ b = 95

def isSpaceByte (b : UInt8) : Bool := b ∈ [9, 10, 12, 13, 32]

/-- What is left after a match of `\w+\s*:\s*\w+` at the beginning.  Neither class holds a
character of what comes next, so that each takes as much as it can. -/
def matchAlias (text : Bytes) : Option Bytes :=
  let name := text.takeWhile isWordByte
  match (text.dropWhile isWordByte).dropWhile isSpaceByte with
  | colon :: rest =>
    let value := rest.dropWhile isSpaceByte
    if name ≠ [] ∧ colon = byte ':' ∧ value.takeWhile isWordByte ≠ [] then
      some (value.dropWhile isWordByte)
    else none
  | [] => none

def countAliasesFrom : (fuel : Nat) → Bytes → Nat
  | fuel + 1, b :: rest =>
    match matchAlias (b :: rest) with
    | some after => countAliasesFrom fuel after + 1
    | none => countAliasesFrom fuel rest
  | _, _ => 0

def countAliases (query : Bytes) : Int := countAliasesFrom query.length query

def words (query : Bytes) : List Bytes := (query.splitOnP fun b => !isWordByte b).filter (· ≠ [])

def hasLongField (config : GraphQLConfig) (query : Bytes) : Bool :=
  (words query).any fun word => config.maxFieldLength < word.length

section

variable (rt : Runtime) (config : GraphQLConfig)

def hasIntrospection (query : Bytes) : Bool :=
  let lower := rt.toLower query
  str "__schema" <:+: lower ∨ str "__type" <:+: lower ∨ str "__typename" <:+: lower

def calculateComplexity (query : Bytes) : Int :=
  let complexity := wrap64 (calculateDepth query * 10)
  let lower := rt.toLower query
  let complexity := config.fieldComplexityMap.foldl (fun complexity (field, weight) =>
    if rt.toLower field <:+: lower then wrap64 (complexity + weight) else complexity) complexity
  let complexity :=
    if str "first:" <:+: lower ∨ str "last:" <:+: lower ∨ str "limit:" <:+: lower ∨
        str "take:" <:+: lower then wrap64 (complexity + 20) else complexity
  if str "edges" <:+: lower ∧ str "node" <:+: lower then wrap64 (complexity + 30) else complexity

def keywords : List Bytes :=
  [str "query", str "mutation", str "subscription", str "fragment", str "on", str "true",
    str "false", str "null", str "type"]

/-- The matches of `wordPattern` are the words that begin with no digit. -/
def countFields (query : Bytes) : Int :=
  ((words query).filter fun word =>
    word.head?.any (fun b => !(48 ≤ b && b ≤ 57)) && !keywords.contains (rt.toLower word)).length

/-! ## The analysis -/

/-- The answer to introspection, with the result it leaves where it is allowed. -/
def checkIntrospection (query : Bytes) (result : AnalysisResult) :
    Except AnalysisResult AnalysisResult :=
  if hasIntrospection rt query then
    let result := { result with hasIntrospection := true }
    if config.blockIntrospection then .error (result.refuse errIntrospectionBlocked)
    else .ok { result with warnings := result.warnings ++ [str "introspection query detected"] }
  else .ok result

/-- It never returns an error besides the one in the result. -/
def analyzeQuery (query : Bytes) (result : AnalysisResult) : AnalysisResult :=
  if query = [] then result
  else
    match checkIntrospection rt config query result with
    | .error result => result
    | .ok result =>
      let depth := calculateDepth query
      let result := { result with depth }
      if config.maxDepth < depth then result.refuse errQueryTooDeep
      else
        let aliasCount := countAliases query
        let result := { result with aliasCount }
        if config.maxAliases < aliasCount then result.refuse errTooManyAliases
        else if hasLongField config query then result.refuse errFieldTooLong
        else
          let complexity := calculateComplexity rt config query
          let result := { result with complexity }
          if config.maxComplexity < complexity then result.refuse errQueryTooComplex
          else { result with fieldCount := countFields rt query }

theorem checkIntrospection_spec (query : Bytes) (result : AnalysisResult) :
    match checkIntrospection rt config query result with
    | .error after => after.isValid = false ∧ after.isBatched = result.isBatched
    | .ok after => after.isValid = result.isValid ∧ after.isBatched = result.isBatched := by
  unfold checkIntrospection
  dsimp only
  split
  · next same =>
      split at same
      · split at same
        · cases same
          exact ⟨rfl, rfl⟩
        · cases same
      · cases same
  · next same =>
      split at same
      · split at same
        · cases same
        · cases same
          exact ⟨rfl, rfl⟩
      · cases same
        exact ⟨rfl, rfl⟩

theorem analyzeQuery_isBatched (query : Bytes) (result : AnalysisResult) :
    (analyzeQuery rt config query result).isBatched = result.isBatched := by
  have introspected := checkIntrospection_spec rt config query result
  unfold analyzeQuery
  split
  · rfl
  · revert introspected
    rcases checkIntrospection rt config query result with refused | after <;> intro introspected
    · exact introspected.2
    · rw [← introspected.2]
      dsimp only
      repeat' split
      all_goals rfl

structure Accepted (query : Bytes) (result : AnalysisResult) : Prop where
  depth : calculateDepth query ≤ config.maxDepth
  aliases : countAliases query ≤ config.maxAliases
  complexity : calculateComplexity rt config query ≤ config.maxComplexity
  aliasCount : result.aliasCount = countAliases query
  total : result.complexity = calculateComplexity rt config query

theorem analyzeQuery_accepted {query : Bytes} (given : query ≠ []) {result : AnalysisResult}
    (accepted : (analyzeQuery rt config query result).isValid = true) :
    Accepted rt config query (analyzeQuery rt config query result) := by
  have introspected := checkIntrospection_spec rt config query result
  revert accepted
  unfold analyzeQuery
  rw [if_neg given]
  revert introspected
  rcases checkIntrospection rt config query result with refused | after <;> intro introspected
  · intro accepted
    exact absurd (introspected.1.symm.trans accepted) Bool.false_ne_true
  · dsimp only
    split
    · simp
    · split
      · simp
      · split
        · simp
        · split
          · simp
          · intro _
            exact ⟨by omega, by omega, by omega, rfl, rfl⟩

/-- What the loop over a batch takes over, `totalComplexity` and `maxDepth` being those of the
result so far. -/
def addQuery (result queryResult : AnalysisResult) : AnalysisResult :=
  { result with
    complexity := wrap64 (result.complexity + queryResult.complexity)
    depth := if result.depth < queryResult.depth then queryResult.depth else result.depth
    aliasCount := result.aliasCount + queryResult.aliasCount
    fieldCount := result.fieldCount + queryResult.fieldCount }

/-- The loop over a batch.  A query that is not valid ends it with its own result. -/
def batchLoop : List Bytes → AnalysisResult → Except AnalysisResult AnalysisResult
  | [], result => .ok result
  | query :: rest, result =>
    let queryResult := analyzeQuery rt config query {}
    if queryResult.isValid then batchLoop rest (addQuery result queryResult)
    else .error queryResult

structure Decoder where
  request : Bytes → Option Bytes
  batch : Bytes → Option (List Bytes)

def analyzeBatch (batch : List Bytes) : AnalysisResult :=
  let result : AnalysisResult := { isBatched := true, batchSize := batch.length }
  if config.allowBatching = false then
    result.refuse errBatchingDisabled
  else if config.maxBatchSize < batch.length then
    result.refuse errBatchSize
  else
    match batchLoop rt config batch result with
    | .error queryResult => queryResult
    | .ok result =>
      if config.maxComplexity < result.complexity then result.refuse errQueryTooComplex
      else result

def analyzeBody (decoder : Decoder) (body : Bytes) : Except GoError AnalysisResult :=
  if config.enabled = false then .ok {}
  else
    match decoder.request body with
    | some query => .ok (analyzeQuery rt config query {})
    | none =>
      match decoder.batch body with
      | none => .error errMalformedQuery
      | some batch => .ok (analyzeBatch rt config batch)

/-! ## Refusal -/

def AcceptedAlone (query : Bytes) : Prop := (analyzeQuery rt config query {}).isValid = true

theorem batchLoop_refused {batch : List Bytes}
    (one : ¬ ∀ query ∈ batch, AcceptedAlone rt config query) (result : AnalysisResult) :
    ∃ query, batchLoop rt config batch result = .error (analyzeQuery rt config query {}) ∧
      ¬AcceptedAlone rt config query := by
  induction batch generalizing result with
  | nil => exact absurd (by simp) one
  | cons query rest ih =>
    unfold batchLoop
    dsimp only
    cases valid : (analyzeQuery rt config query {}).isValid with
    | false => exact ⟨query, rfl, by rw [AcceptedAlone, valid]; exact Bool.false_ne_true⟩
    | true =>
      refine ih (fun others => one fun other found => ?_) _
      rcases List.mem_cons.mp found with rfl | later
      · exact valid
      · exact others other later

end

end GraphQL

end Obsidian.App
