import Obsidian.Api
import Obsidian.App.GraphQL

namespace Obsidian.App.GraphQL

open Obsidian.Data

/-! # Batches

What a batch that is accepted satisfies, and how one that is not is reported.
-/

section

variable (rt : Runtime) (config : GraphQLConfig)

def queryComplexity (query : Bytes) : Int :=
  if query = [] then 0 else calculateComplexity rt config query

def totalComplexity (batch : List Bytes) : Int := (batch.map (queryComplexity rt config)).sum

def totalAliases (batch : List Bytes) : Int := (batch.map countAliases).sum

theorem analyzeQuery_complexity {query : Bytes} (accepted : AcceptedAlone rt config query) :
    (analyzeQuery rt config query {}).complexity = queryComplexity rt config query := by
  by_cases empty : query = []
  · subst empty
    rfl
  · rw [queryComplexity, if_neg empty]
    exact (analyzeQuery_accepted rt config empty accepted).total

/-- Each query is held to the limit by itself, so that the batch is held to a multiple of it. -/
theorem totalAliases_le {batch : List Bytes} (each : ∀ query ∈ batch, AcceptedAlone rt config query) :
    totalAliases batch ≤ (batch.filter (· ≠ [])).length * config.maxAliases := by
  induction batch with
  | nil => simp [totalAliases]
  | cons query rest ih =>
    have later := ih fun other found => each other (by simp [found])
    have sum : totalAliases (query :: rest) = countAliases query + totalAliases rest := rfl
    by_cases empty : query = []
    · subst empty
      have none : countAliases [] = 0 := rfl
      simpa [sum, none] using later
    · have within := (analyzeQuery_accepted rt config empty (each query (by simp))).aliases
      have longer : ((query :: rest).filter (· ≠ [])).length =
          (rest.filter (· ≠ [])).length + 1 := by
        simp [empty]
      rw [longer, sum, Int.natCast_add, Int.add_mul]
      omega

/-! ## The loop -/

theorem wrap64_add (a b : Int) : wrap64 (wrap64 a + b) = wrap64 (a + b) := Int.bmod_add_bmod

structure Totals (batch : List Bytes) (before after : AnalysisResult) : Prop where
  isValid : after.isValid = before.isValid
  isBatched : after.isBatched = before.isBatched
  batchSize : after.batchSize = before.batchSize
  complexity : after.complexity = wrap64 (before.complexity + totalComplexity rt config batch)

theorem batchLoop_ok {batch : List Bytes} (each : ∀ query ∈ batch, AcceptedAlone rt config query)
    {result : AnalysisResult} (fits : IsInt64 result.complexity) :
    ∃ after, batchLoop rt config batch result = .ok after ∧ Totals rt config batch result after := by
  induction batch generalizing result with
  | nil =>
    refine ⟨result, rfl, rfl, rfl, rfl, ?_⟩
    rw [totalComplexity, List.map_nil, List.sum_nil, Int.add_zero, wrap64_eq_self fits]
  | cons query rest ih =>
    have accepted := each query (by simp)
    have complexity := analyzeQuery_complexity rt config accepted
    have wrapped : IsInt64 (addQuery result (analyzeQuery rt config query {})).complexity :=
      wrap64_isInt64 _
    obtain ⟨after, looped, totals⟩ := ih (fun other found => each other (by simp [found])) wrapped
    refine ⟨after, ?_, totals.isValid, totals.isBatched, totals.batchSize, ?_⟩
    · rw [AcceptedAlone] at accepted
      rw [batchLoop, if_pos accepted]
      exact looped
    · rw [totals.complexity, addQuery, complexity, wrap64_add, Int.add_assoc]
      rfl

/-- The batches that are accepted.  The complexities are added in 64 bits. -/
structure Admitted (batch : List Bytes) : Prop where
  allowed : config.allowBatching = true
  small : batch.length ≤ config.maxBatchSize
  each : ∀ query ∈ batch, AcceptedAlone rt config query
  complexity : wrap64 (totalComplexity rt config batch) ≤ config.maxComplexity

def OwnFault (batch : List Bytes) : Prop :=
  config.allowBatching = false ∨ config.maxBatchSize < batch.length ∨
    ∀ query ∈ batch, AcceptedAlone rt config query

theorem analyzeBatch_cases (batch : List Bytes) :
    let result := analyzeBatch rt config batch
    (Admitted rt config batch ∧ result.isValid = true) ∨
    (¬Admitted rt config batch ∧ result.isValid = false ∧ OwnFault rt config batch ∧
      result.isBatched = true ∧ result.batchSize = batch.length) ∨
    (¬Admitted rt config batch ∧ result.isValid = false ∧ ¬OwnFault rt config batch ∧
      result.isBatched = false) := by
  by_cases disabled : config.allowBatching = false
  · refine .inr (.inl ⟨fun admitted => ?_, ?_⟩)
    · exact Bool.false_ne_true (disabled.symm.trans admitted.allowed)
    · rw [analyzeBatch, if_pos disabled]
      exact ⟨rfl, .inl disabled, rfl, rfl⟩
  by_cases large : config.maxBatchSize < batch.length
  · refine .inr (.inl ⟨fun admitted => absurd admitted.small (by omega), ?_⟩)
    rw [analyzeBatch, if_neg disabled, if_pos large]
    exact ⟨rfl, .inr (.inl large), rfl, rfl⟩
  by_cases each : ∀ query ∈ batch, AcceptedAlone rt config query
  · let start : AnalysisResult := { isBatched := true, batchSize := batch.length }
    have zero : IsInt64 start.complexity := (by decide : IsInt64 0)
    obtain ⟨after, looped, totals⟩ := batchLoop_ok rt config each zero
    have complexity : after.complexity = wrap64 (totalComplexity rt config batch) := by
      rw [totals.complexity, show start.complexity = 0 from rfl, Int.zero_add]
    rw [analyzeBatch, if_neg disabled, if_neg large, looped]
    dsimp only
    rw [complexity]
    split
    · next complex =>
        exact .inr (.inl ⟨fun admitted => absurd admitted.complexity (by omega), rfl,
          .inr (.inr each), totals.isBatched, totals.batchSize⟩)
    · exact .inl ⟨⟨by simpa using disabled, by omega, each, by omega⟩, totals.isValid⟩
  · obtain ⟨query, looped, refused⟩ := batchLoop_refused rt config each
      { isBatched := true, batchSize := batch.length }
    refine .inr (.inr ⟨fun admitted => each admitted.each, ?_⟩)
    rw [analyzeBatch, if_neg disabled, if_neg large, looped]
    refine ⟨by simpa [AcceptedAlone] using refused, ?_, analyzeQuery_isBatched rt config query {}⟩
    rintro (own | own | own)
    · exact disabled own
    · exact large own
    · exact each own

end

/-- The batches that are accepted, and when they keep the limits of a request.  The total
complexity does unless the sum overflows.  The aliases do unless the batch is accepted with more:
each query is held to the limit by itself.  A batch that is refused is reported as one, with its
size, exactly if it is refused for what it is as a batch. -/
theorem batch_limits (rt : Runtime) (config : GraphQLConfig) (decoder : Decoder) (body : Bytes)
    (batch : List Bytes) (enabled : config.enabled = true) (several : decoder.request body = none)
    (decoded : decoder.batch body = some batch) :
    ∃ result : AnalysisResult, analyzeBody rt config decoder body = .ok result ∧
      (result.isValid = true ↔ Admitted rt config batch) ∧
      (((result.isValid = true → totalComplexity rt config batch ≤ config.maxComplexity) ↔
          (Admitted rt config batch → totalComplexity rt config batch ≤ config.maxComplexity)) ∧
        (IsInt64 (totalComplexity rt config batch) → result.isValid = true →
          totalComplexity rt config batch ≤ config.maxComplexity)) ∧
      (((result.isValid = true → totalAliases batch ≤ config.maxAliases) ↔
          (Admitted rt config batch → totalAliases batch ≤ config.maxAliases)) ∧
        (result.isValid = true →
          totalAliases batch ≤ (batch.filter (· ≠ [])).length * config.maxAliases)) ∧
      (result.isValid = true →
        ∀ query ∈ batch, ∀ alone, decoder.request alone = some query →
          ∃ single : AnalysisResult, analyzeBody rt config decoder alone = .ok single ∧
            single.isValid = true) ∧
      ((result.isValid = false → result.isBatched = true ∧ result.batchSize = batch.length) ↔
        Admitted rt config batch ∨ OwnFault rt config batch) := by
  have on : ¬ config.enabled = false := by simp [enabled]
  have analyzed : analyzeBody rt config decoder body = .ok (analyzeBatch rt config batch) := by
    rw [analyzeBody, if_neg on, several, decoded]
  have ways := analyzeBatch_cases rt config batch
  have accepted : (analyzeBatch rt config batch).isValid = true ↔ Admitted rt config batch := by
    rcases ways with ⟨admitted, valid⟩ | ⟨admitted, invalid, -⟩ | ⟨admitted, invalid, -⟩
    · exact iff_of_true valid admitted
    · exact iff_of_false (by simp [invalid]) admitted
    · exact iff_of_false (by simp [invalid]) admitted
  refine ⟨_, analyzed, accepted, ⟨by rw [accepted], fun fits valid => ?_⟩,
    ⟨by rw [accepted], fun valid => totalAliases_le rt config (accepted.mp valid).each⟩,
    fun valid query member alone single => ?_, ?_⟩
  · have complexity := (accepted.mp valid).complexity
    rwa [wrap64_eq_self fits] at complexity
  · refine ⟨_, ?_, (accepted.mp valid).each query member⟩
    rw [analyzeBody, if_neg on, single]
  · rcases ways with ⟨admitted, valid⟩ | ⟨-, -, own, reported⟩ | ⟨admitted, invalid, own, unreported⟩
    · exact iff_of_true (fun invalid => absurd (valid.symm.trans invalid) (by decide)) (.inl admitted)
    · exact iff_of_true (fun _ => reported) (.inr own)
    · refine iff_of_false (fun reported => ?_) (not_or.mpr ⟨admitted, own⟩)
      exact Bool.false_ne_true (unreported.symm.trans (reported invalid).1)

def batchingConfig : GraphQLConfig := { allowBatching := true, maxAliases := 1 }

def batchDecoder (batch : List Bytes) : Decoder := ⟨fun _ => none, fun _ => some batch⟩

/-- Two queries without aliases, which are accepted, or refused where one is the limit. -/
theorem batch_limits_pair :
    (∃ result : AnalysisResult,
      analyzeBody Host.plain.toRuntime batchingConfig
        (batchDecoder [str "\x7ba\x7d", str "\x7bb\x7d"]) [] = .ok result ∧
        result.isValid = true ∧ totalComplexity Host.plain.toRuntime batchingConfig
          [str "\x7ba\x7d", str "\x7bb\x7d"] ≤ 1000 ∧
        (result.isValid = true → totalAliases [str "\x7ba\x7d", str "\x7bb\x7d"] ≤ 1)) ∧
    ∃ result : AnalysisResult,
      analyzeBody Host.plain.toRuntime { batchingConfig with maxBatchSize := 1 }
        (batchDecoder [str "\x7ba\x7d", str "\x7bb\x7d"]) [] = .ok result ∧
        (result.isValid = false → result.isBatched = true ∧ result.batchSize = 2) := by
  obtain ⟨result, analyzed, accepted, ⟨-, complexity⟩, ⟨aliases, -⟩, -⟩ :=
    batch_limits Host.plain.toRuntime batchingConfig
      (batchDecoder [str "\x7ba\x7d", str "\x7bb\x7d"]) [] _ rfl rfl rfl
  have admitted : Admitted Host.plain.toRuntime batchingConfig [str "\x7ba\x7d", str "\x7bb\x7d"] :=
    ⟨rfl, by decide, by unfold AcceptedAlone; decide +kernel, by decide +kernel⟩
  obtain ⟨other, analyzedToo, -, -, -, -, reported⟩ :=
    batch_limits Host.plain.toRuntime { batchingConfig with maxBatchSize := 1 }
      (batchDecoder [str "\x7ba\x7d", str "\x7bb\x7d"]) [] _ rfl rfl rfl
  refine ⟨⟨result, analyzed, accepted.mpr admitted,
    complexity (by decide +kernel) (accepted.mpr admitted), aliases.mpr fun _ => by decide⟩,
    other, analyzedToo, reported.mpr (.inr (.inr (.inl (by decide))))⟩

/-- Two queries with an alias each pass a limit of one alias, and a query with two aliases is
refused without a word of the batch it came in. -/
theorem batch_evades :
    analyzeBody Host.plain.toRuntime batchingConfig
        (batchDecoder [str "\x7ba:b\x7d", str "\x7bc:d\x7d"]) [] =
      .ok { depth := 1, complexity := 20, aliasCount := 2, fieldCount := 4,
            isBatched := true, batchSize := 2 } ∧
    analyzeBody Host.plain.toRuntime batchingConfig
        (batchDecoder [str "\x7ba:b c:d\x7d"]) [] =
      .ok { isValid := false, error := some errTooManyAliases, depth := 1, aliasCount := 2 } := by
  have accepted : analyzeBatch Host.plain.toRuntime batchingConfig
      [str "\x7ba:b\x7d", str "\x7bc:d\x7d"] =
      { depth := 1, complexity := 20, aliasCount := 2, fieldCount := 4,
        isBatched := true, batchSize := 2 } := by
    decide +kernel
  have refused : analyzeBatch Host.plain.toRuntime batchingConfig [str "\x7ba:b c:d\x7d"] =
      { isValid := false, error := some errTooManyAliases, depth := 1, aliasCount := 2 } := by
    decide +kernel
  exact ⟨congrArg Except.ok accepted, congrArg Except.ok refused⟩

end Obsidian.App.GraphQL
