import Obsidian.Evaluate
import Obsidian.Data.Tuples
import Mathlib.Data.List.Nodup

namespace Obsidian.Multiphase

open Obsidian.Data

/-! # Chains as tuples

`generateChainMatches` with the result it appends to, and the chains it finds as the tuples
of the values' positions.
-/

/-! ## Chains of matched values -/

def matchedChainDepth (datas : List MatchData) : Nat :=
  datas.foldl (fun depth value => if depth < value.chainLevel then value.chainLevel else depth) 0

/-- The recursion of `generateChainMatches`, `left` levels above the last. -/
def chainMatchesFrom (values : List MatchData) :
    (left currentDepth : Nat) → (building : List MatchData) → List (List MatchData)
  | 0, currentDepth, building =>
    (values.filter (·.chainLevel = currentDepth)).map fun mv => building ++ [mv]
  | left + 1, currentDepth, building =>
    (values.filter (·.chainLevel = currentDepth)).flatMap fun mv =>
      chainMatchesFrom values left (currentDepth + 1) (building ++ [mv])

/-! ## Depths -/

theorem foldl_depth (values : List MatchData) (depth : Nat) :
    values.foldl (fun depth value => if depth < value.chainLevel then value.chainLevel else depth)
        depth = max depth (matchedChainDepth values) := by
  induction values generalizing depth with
  | nil => simp [matchedChainDepth]
  | cons m rest ih =>
    rw [matchedChainDepth, List.foldl_cons, List.foldl_cons, ih, ih]
    split <;> split <;> omega

theorem depth_cons (m : MatchData) (rest : List MatchData) :
    matchedChainDepth (m :: rest) = max m.chainLevel (matchedChainDepth rest) := by
  rw [matchedChainDepth, List.foldl_cons, foldl_depth]
  split <;> omega

theorem depth_append (front back : List MatchData) :
    matchedChainDepth (front ++ back) = max (matchedChainDepth front) (matchedChainDepth back) := by
  induction front with
  | nil => simp [matchedChainDepth]
  | cons m rest ih => rw [List.cons_append, depth_cons, depth_cons, ih, Nat.max_assoc]

theorem depth_le {values : List MatchData} {level : Nat}
    (below : ∀ m ∈ values, m.chainLevel ≤ level) : matchedChainDepth values ≤ level := by
  induction values with
  | nil => exact Nat.zero_le _
  | cons m rest ih =>
    rw [depth_cons]
    exact Nat.max_le.mpr ⟨below m (by simp), ih fun m' member => below m' (by simp [member])⟩

theorem level_le_depth {values : List MatchData} {m : MatchData} (member : m ∈ values) :
    m.chainLevel ≤ matchedChainDepth values := by
  obtain ⟨front, back, rfl⟩ := List.append_of_mem member
  rw [depth_append, depth_cons]
  omega

/-! ## The loop with its result -/

def generateChainMatchesInto (values : List MatchData) :
    (fuel currentDepth : Nat) → (building : List MatchData) → (result : List (List MatchData)) →
      Option (List (List MatchData))
  | 0, _, _, _ => none
  | fuel + 1, currentDepth, building, result =>
    let finalDepth := matchedChainDepth values
    values.foldlM (fun result mv =>
      if mv.chainLevel = currentDepth then
        if mv.chainLevel = finalDepth then some (result ++ [building ++ [mv]])
        else generateChainMatchesInto values fuel (currentDepth + 1) (building ++ [mv]) result
      else some result) result

theorem foldlM_chosen {values : List α} {p : α → Prop} [DecidablePred p]
    {step : List β → α → Option (List β)} {found : α → List β}
    (each : ∀ result x, p x → step result x = some (result ++ found x)) (result : List β) :
    values.foldlM (fun result x => if p x then step result x else some result) result =
      some (result ++ (values.filter (p ·)).flatMap found) := by
  induction values generalizing result with
  | nil => simp
  | cons x rest ih =>
    rw [List.foldlM_cons]
    by_cases chosen : p x
    · rw [if_pos chosen, each result x chosen, Option.bind_eq_bind, Option.bind_some, ih]
      simp [chosen]
    · rw [if_neg chosen, Option.bind_eq_bind, Option.bind_some, ih]
      simp [chosen]

theorem generateChainMatchesInto_eq {values : List MatchData} {left fuel currentDepth : Nat}
    (depth : currentDepth + left = matchedChainDepth values) (enough : left < fuel)
    (building : List MatchData) (result : List (List MatchData)) :
    generateChainMatchesInto values fuel currentDepth building result =
      some (result ++ chainMatchesFrom values left currentDepth building) := by
  induction left generalizing fuel currentDepth building result with
  | zero =>
    obtain ⟨fuel, rfl⟩ := Nat.exists_eq_add_of_lt enough
    rw [generateChainMatchesInto, chainMatchesFrom, List.map_eq_flatMap]
    refine foldlM_chosen (fun result mv level => ?_) result
    rw [if_pos (by omega)]
  | succ left ih =>
    obtain ⟨fuel, rfl⟩ := Nat.exists_eq_add_of_lt enough
    rw [generateChainMatchesInto, chainMatchesFrom]
    refine foldlM_chosen (fun result mv level => ?_) result
    rw [if_neg (by omega), ih (by omega) (by omega)]

/-! ## Tuples of positions -/

def levelPositions (values : List MatchData) (level : Nat) : List Nat :=
  positions (·.chainLevel = level) values

def positionTuples (values : List MatchData) (level count : Nat) : List (List Nat) :=
  tuples ((List.range' level count).map (levelPositions values))

section

variable {values : List MatchData}

theorem mem_levelPositions {level i : Nat} :
    i ∈ levelPositions values level ↔ ∃ mv, values[i]? = some mv ∧ mv.chainLevel = level := by
  simp only [levelPositions, mem_positions, decide_eq_true_eq]

theorem positionTuples_succ (level count : Nat) :
    positionTuples values level (count + 1) = (levelPositions values level).flatMap
      fun i => (positionTuples values (level + 1) count).map (i :: ·) := rfl

theorem chainMatchesFrom_tuples (left level : Nat) (building : List MatchData) :
    chainMatchesFrom values left level building =
      (positionTuples values level (left + 1)).map
        fun tuple => building ++ tuple.filterMap (values[·]?) := by
  induction left generalizing level building with
  | zero =>
    rw [chainMatchesFrom, List.map_eq_flatMap, positionTuples_succ, List.map_flatMap]
    refine flatMap_filter_positions fun i mv found => ?_
    simp [found, positionTuples, tuples]
  | succ left ih =>
    rw [chainMatchesFrom, positionTuples_succ, List.map_flatMap]
    refine flatMap_filter_positions fun i mv found => ?_
    rw [ih]
    simp [found]

theorem mem_positionTuples {level count : Nat} {tuple : List Nat} :
    tuple ∈ positionTuples values level count ↔
      tuple.length = count ∧ ∀ k i, tuple[k]? = some i →
        ∃ mv, values[i]? = some mv ∧ mv.chainLevel = level + k := by
  rw [positionTuples, mem_tuples, List.forall₂_map_right_iff]
  induction tuple generalizing level count with
  | nil => cases count <;> simp
  | cons i rest ih =>
    cases count with
    | zero => simp
    | succ count =>
      rw [List.range'_succ, List.forall₂_cons, ih, mem_levelPositions, List.length_cons]
      constructor
      · rintro ⟨first, length, later⟩
        refine ⟨congrArg (· + 1) length, fun k j found => ?_⟩
        cases k with
        | zero => cases found; exact first
        | succ k => rw [Nat.add_comm k 1, ← Nat.add_assoc]; exact later k j found
      · rintro ⟨length, each⟩
        refine ⟨each 0 i rfl, Nat.succ.inj length, fun k j found => ?_⟩
        rw [Nat.add_assoc, Nat.add_comm 1 k]
        exact each (k + 1) j found

theorem pairwise_positionTuples {level count : Nat} :
    (positionTuples values level count).Pairwise (· < ·) := by
  refine pairwise_tuples fun choices member => ?_
  obtain ⟨k, -, rfl⟩ := List.mem_map.mp member
  exact pairwise_positions

theorem length_positionTuples (n : Nat) :
    (positionTuples values 0 n).length =
      ((List.range n).map fun level => values.countP (·.chainLevel = level)).prod := by
  rw [positionTuples, length_tuples, List.map_map, ← List.range_eq_range']
  simp only [Function.comp_def, levelPositions, length_positions]

theorem positionTuples_eq_nil {level count : Nat} (below : level < count)
    (empty : ∀ mv ∈ values, mv.chainLevel ≠ level) : positionTuples values 0 count = [] := by
  refine tuples_eq_nil (List.mem_map.mpr ⟨level, by simpa using below, ?_⟩)
  rw [List.eq_nil_iff_forall_not_mem]
  intro i member
  obtain ⟨mv, found, same⟩ := mem_levelPositions.mp member
  exact empty mv (List.mem_of_getElem? found) same

theorem depth_of_levels {n : Nat}
    (levels : ∀ level, (∃ mv ∈ values, mv.chainLevel = level) ↔ level ≤ n) :
    matchedChainDepth values = n := by
  apply Nat.le_antisymm
  · exact depth_le fun mv member => (levels _).mp ⟨mv, member, rfl⟩
  · obtain ⟨mv, member, rfl⟩ := (levels n).mpr (Nat.le_refl n)
    exact level_le_depth member

end

/-- The chains found are the tuples of one value for each level, in the order of the values'
positions, each once; there is none if a level below the deepest has no value. -/
theorem generateChainMatches_product (values : List MatchData) (n fuel : Nat) :
    ((∀ level, (∃ mv ∈ values, mv.chainLevel = level) ↔ level ≤ n) → n < fuel →
      ∃ (chains : List (List MatchData)) (indices : List (List Nat)),
        generateChainMatchesInto values fuel 0 [] [] = some chains ∧
        chains = indices.map (fun tuple => tuple.filterMap (values[·]?)) ∧
        (∀ tuple, tuple ∈ indices ↔ tuple.length = n + 1 ∧
          ∀ level i : Nat, tuple[level]? = some i →
            ∃ mv, values[i]? = some mv ∧ mv.chainLevel = level) ∧
        indices.Pairwise (· < ·) ∧ indices.Nodup ∧
        chains.length =
          ((List.range (n + 1)).map fun level => values.countP (·.chainLevel = level)).prod) ∧
    (∀ level < matchedChainDepth values, (∀ mv ∈ values, mv.chainLevel ≠ level) →
      matchedChainDepth values < fuel →
        generateChainMatchesInto values fuel 0 [] [] = some []) := by
  have found (enough : matchedChainDepth values < fuel) :
      generateChainMatchesInto values fuel 0 [] [] =
        some ((positionTuples values 0 (matchedChainDepth values + 1)).map
          fun tuple => tuple.filterMap (values[·]?)) := by
    rw [generateChainMatchesInto_eq (Nat.zero_add _) enough, chainMatchesFrom_tuples]
    simp only [List.nil_append]
  constructor
  · intro levels enough
    obtain rfl := depth_of_levels levels
    refine ⟨_, _, found enough, rfl, fun tuple => ?_, pairwise_positionTuples, ?_, ?_⟩
    · simpa only [Nat.zero_add] using @mem_positionTuples values 0 _ tuple
    · refine List.Pairwise.imp (fun less => ?_) pairwise_positionTuples
      rintro rfl
      exact List.lt_irrefl _ less
    · rw [List.length_map, length_positionTuples]
  · intro level below empty enough
    rw [found enough, positionTuples_eq_nil (by omega) empty, List.map_nil]

def commentMatches : List MatchData :=
  [{ var := .requestURI }, { var := .requestURI, chainLevel := 1 },
    { var := .requestHeaders, chainLevel := 1 }, { var := .requestBody, chainLevel := 2 },
    { var := .requestHeaders, chainLevel := 2 }]

/-- Two values for each of two levels, and none for the level between. -/
theorem generateChainMatches_product_comment :
    (∃ chains, generateChainMatchesInto commentMatches 3 0 [] [] = some chains ∧
      chains.length = 4) ∧
    generateChainMatchesInto (commentMatches.filter (·.chainLevel ≠ 1)) 3 0 [] [] = some [] := by
  constructor
  · obtain ⟨chains, _, found, _, _, _, _, length⟩ :=
      (generateChainMatches_product commentMatches 2 3).1
        (fun level => by simp [commentMatches]; omega) (by decide)
    exact ⟨chains, found, length.trans (by decide)⟩
  · exact (generateChainMatches_product (commentMatches.filter (·.chainLevel ≠ 1)) 2 3).2 1
      (by decide) (by decide) (by decide)

example :
    (generateChainMatchesInto commentMatches 3 0 [] []).map (·.map (·.map (·.var))) =
      some [[.requestURI, .requestURI, .requestBody], [.requestURI, .requestURI, .requestHeaders],
        [.requestURI, .requestHeaders, .requestBody],
        [.requestURI, .requestHeaders, .requestHeaders]] := by
  decide

end Obsidian.Multiphase
