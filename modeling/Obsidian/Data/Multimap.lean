import Mathlib.Data.List.AList
import Mathlib.Data.List.Induction

namespace Obsidian.Data

/-! # Maps of lists

A map that holds a list under each key, as a Go `map[K][]V` does.  What is collected
from all its keys does not depend on the order of the keys.
-/

variable {κ α γ : Type*} [DecidableEq κ]

theorem lookup_foldl_insert {β : Type*} (name : β → κ) (written : β → α) (xs : List β)
    (m : AList fun _ : κ => α) (k : κ) :
    (xs.foldl (fun m x => m.insert (name x) (written x)) m).lookup k =
      ((xs.filter (name · = k)).getLast?.map written).or (m.lookup k) := by
  induction xs using List.reverseRecOn with
  | nil => rfl
  | append_singleton xs x ih =>
    rw [List.foldl_append, List.filter_append]
    by_cases here : name x = k
    · simp [here, AList.lookup_insert]
    · have other : k ≠ name x := fun same => here same.symm
      simp only [List.foldl_cons, List.foldl_nil, AList.lookup_insert_ne other, ih]
      simp [here]

namespace Multimap

abbrev Lists (κ α : Type*) := AList fun _ : κ => List α

def values (m : Lists κ α) (k : κ) : List α := (m.lookup k).getD []

def push (m : Lists κ α) (k : κ) (x : α) : Lists κ α := m.insert k (values m k ++ [x])

def collect (f : κ → α → γ) (m : Lists κ α) : List γ :=
  m.keys.flatMap fun k => (values m k).map (f k)

@[simp] theorem collect_empty (f : κ → α → γ) : collect f (∅ : Lists κ α) = [] := rfl

@[simp] theorem values_insert_self (m : Lists κ α) (k : κ) (xs : List α) :
    values (m.insert k xs) k = xs := by
  simp [values, AList.lookup_insert]

theorem values_insert_ne (m : Lists κ α) {k other : κ} (xs : List α) (ne : other ≠ k) :
    values (m.insert k xs) other = values m other := by
  simp [values, AList.lookup_insert_ne ne]

theorem values_eq_nil {m : Lists κ α} {k : κ} (absent : k ∉ m) : values m k = [] := by
  simp [values, AList.lookup_eq_none.mpr absent]

theorem mem_keys_of_mem_values {m : Lists κ α} {k : κ} {x : α} (found : x ∈ values m k) :
    k ∈ m.keys := by
  by_contra absent
  rw [values_eq_nil absent] at found
  cases found

theorem mem_collect {f : κ → α → γ} {m : Lists κ α} {y : γ} :
    y ∈ collect f m ↔ ∃ k, ∃ x ∈ values m k, f k x = y := by
  simp only [collect, List.mem_flatMap, List.mem_map]
  constructor
  · rintro ⟨k, _, x, found, made⟩
    exact ⟨k, x, found, made⟩
  · rintro ⟨k, x, found, made⟩
    exact ⟨k, mem_keys_of_mem_values found, x, found, made⟩

/-- The keys of a map with one of them in front, whether it is there or not. -/
theorem collect_erase (f : κ → α → γ) (m : Lists κ α) (k : κ) :
    (collect f m).Perm
      ((values m k).map (f k) ++ (m.keys.erase k).flatMap fun other => (values m other).map (f other)) := by
  by_cases present : k ∈ m.keys
  · exact (List.perm_cons_erase present).flatMap_right _
  · rw [values_eq_nil present, List.erase_of_not_mem present]
    exact .refl _

theorem collect_insert (f : κ → α → γ) (m : Lists κ α) (k : κ) (xs : List α) :
    (collect f (m.insert k xs)).Perm
      (xs.map (f k) ++ (m.keys.erase k).flatMap fun other => (values m other).map (f other)) := by
  simp only [collect, AList.keys_insert, List.flatMap_cons, values_insert_self]
  apply List.Perm.append_left
  apply List.Perm.of_eq
  apply List.flatMap_congr
  intro other found
  have ne : other ≠ k := fun same => m.keys_nodup.not_mem_erase (same ▸ found)
  rw [values_insert_ne m xs ne]

theorem collect_insert_new (f : κ → α → γ) {m : Lists κ α} {k : κ} (absent : k ∉ m) (xs : List α) :
    (collect f (m.insert k xs)).Perm (xs.map (f k) ++ collect f m) := by
  have collected := collect_insert f m k xs
  rwa [List.erase_of_not_mem absent] at collected

theorem collect_push (f : κ → α → γ) (m : Lists κ α) (k : κ) (x : α) :
    (collect f (push m k x)).Perm (collect f m ++ [f k x]) := by
  have before := collect_erase f m k
  have after := collect_insert f m k (values m k ++ [x])
  rw [List.map_append, List.append_assoc] at after
  refine after.trans ?_
  refine List.Perm.trans ?_ (before.symm.append_right [f k x])
  rw [List.append_assoc]
  exact (List.perm_append_comm).append_left _

theorem collect_foldl_push (f : κ → α → γ) (pairs : List (κ × α)) (m : Lists κ α) :
    (collect f (pairs.foldl (fun m pair => push m pair.1 pair.2) m)).Perm
      (collect f m ++ pairs.map fun pair => f pair.1 pair.2) := by
  induction pairs generalizing m with
  | nil => simp
  | cons pair rest ih =>
    have first := (collect_push f m pair.1 pair.2).append_right (rest.map fun pair => f pair.1 pair.2)
    rw [List.append_assoc] at first
    exact (ih (push m pair.1 pair.2)).trans first

/-- Writing under names that stay different loses nothing. -/
theorem collect_foldl_insert {β : Type*} (f : κ → α → γ) (name : β → κ) (written : β → List α)
    {xs : List β} (distinct : (xs.map name).Nodup) {m : Lists κ α}
    (absent : ∀ x ∈ xs, name x ∉ m) :
    (collect f (xs.foldl (fun m x => m.insert (name x) (written x)) m)).Perm
      (xs.flatMap (fun x => (written x).map (f (name x))) ++ collect f m) := by
  induction xs generalizing m with
  | nil => exact .refl _
  | cons x rest ih =>
    rw [List.map_cons, List.nodup_cons] at distinct
    have apart : ∀ y ∈ rest, name y ∉ m.insert (name x) (written x) := by
      intro y found present
      rcases (AList.mem_insert m).mp present with same | old
      · exact distinct.1 (List.mem_map.mpr ⟨y, found, same⟩)
      · exact absent y (List.mem_cons_of_mem x found) old
    have later := ih distinct.2 apart
    have first := collect_insert_new f (absent x List.mem_cons_self) (written x)
    simp only [List.foldl_cons, List.flatMap_cons]
    refine later.trans ((first.append_left _).trans ?_)
    rw [← List.append_assoc]
    exact List.perm_append_comm.append_right _

theorem keys_push_length (m : Lists κ α) (k : κ) (x : α) :
    (push m k x).keys.length ≤ m.keys.length + 1 := by
  simp only [push, AList.keys_insert, List.length_cons]
  exact Nat.succ_le_succ (List.length_erase_le)

/-! ## A bound on the keys -/

section

variable (name : α → κ)

def pushAll (xs : List α) : Lists κ α := xs.foldl (fun m x => push m (name x) x) ∅

/-- Elements are pushed until the map has `limit` keys. -/
def fill (limit : Nat) (xs : List α) (m : Lists κ α) : Lists κ α :=
  xs.foldl (fun m x => if limit ≤ m.keys.length then m else push m (name x) x) m

variable {name}

theorem fill_append (limit : Nat) (xs ys : List α) (m : Lists κ α) :
    fill name limit (xs ++ ys) m = fill name limit ys (fill name limit xs m) :=
  List.foldl_append

theorem pushAll_snoc (xs : List α) (x : α) :
    pushAll name (xs ++ [x]) = push (pushAll name xs) (name x) x := by
  rw [pushAll, List.foldl_append]
  rfl

theorem collect_pushAll (f : κ → α → γ) (xs : List α) :
    (collect f (pushAll name xs)).Perm (xs.map fun x => f (name x) x) := by
  have pushed := collect_foldl_push f (xs.map fun x => (name x, x)) ∅
  rw [List.foldl_map, List.map_map, collect_empty, List.nil_append] at pushed
  exact pushed

theorem mem_keys_pushAll {xs : List α} {k : κ} :
    k ∈ (pushAll name xs).keys ↔ k ∈ xs.map name := by
  induction xs using List.reverseRecOn with
  | nil => simp [pushAll]
  | append_singleton xs x ih =>
    rw [pushAll_snoc, push, ← AList.mem_keys, AList.mem_insert, AList.mem_keys, ih]
    simp [or_comm]

theorem keys_pushAll_snoc (xs : List α) (x : α) :
    (pushAll name (xs ++ [x])).keys.length =
      (pushAll name xs).keys.length + if name x ∈ xs.map name then 0 else 1 := by
  rw [pushAll_snoc, push, AList.keys_insert, List.length_cons]
  split
  · next found =>
      have found : name x ∈ (pushAll name xs).keys := mem_keys_pushAll.mpr found
      have positive := List.length_pos_of_mem found
      rw [List.length_erase_of_mem found]
      omega
  · next absent =>
      have absent : name x ∉ (pushAll name xs).keys := fun found => absent (mem_keys_pushAll.mp found)
      rw [List.erase_of_not_mem absent]

theorem keys_pushAll_le (name : α → κ) (xs : List α) : (pushAll name xs).keys.length ≤ xs.length := by
  induction xs using List.reverseRecOn with
  | nil => exact Nat.le_refl _
  | append_singleton xs x ih =>
    rw [keys_pushAll_snoc, List.length_append, List.length_singleton]
    split <;> omega

theorem keys_pushAll_take_succ (name : α → κ) (xs : List α) (n : Nat) :
    (pushAll name (xs.take (n + 1))).keys.length ≤ (pushAll name (xs.take n)).keys.length + 1 := by
  rw [List.take_add_one]
  cases xs[n]? with
  | none => simp
  | some x =>
    rw [Option.toList_some, keys_pushAll_snoc]
    split <;> omega

theorem keys_pushAll_eq_iff (xs : List α) :
    (pushAll name xs).keys.length = xs.length ↔ (xs.map name).Nodup := by
  induction xs using List.reverseRecOn with
  | nil => simp [pushAll]
  | append_singleton xs x ih =>
    have fewer := keys_pushAll_le name xs
    rw [keys_pushAll_snoc, List.length_append, List.length_singleton, List.map_append,
      List.nodup_append, ← ih]
    by_cases again : name x ∈ xs.map name
    · rw [if_pos again]
      constructor
      · omega
      · rintro ⟨_, _, apart⟩
        exact absurd rfl (apart _ again (name x) (by simp))
    · rw [if_neg again]
      constructor
      · intro same
        refine ⟨by omega, by simp, ?_⟩
        intro k found other inside equal
        have last : other = name x := by simpa using inside
        exact again (last ▸ equal ▸ found)
      · rintro ⟨same, _⟩
        omega

/-- What fills a map is a number of elements from the front: all of them, or as many as
have `limit` keys. -/
theorem fill_eq (name : α → κ) (limit : Nat) (xs : List α) :
    ∃ count ≤ xs.length, fill name limit xs ∅ = pushAll name (xs.take count) ∧
      (count < xs.length → (pushAll name (xs.take count)).keys.length = limit) ∧
      ∀ fewer < count, (pushAll name (xs.take fewer)).keys.length < limit := by
  induction xs using List.reverseRecOn with
  | nil => exact ⟨0, Nat.le_refl _, rfl, by simp, by simp⟩
  | append_singleton xs x ih =>
    obtain ⟨count, within, filled, stopped, below⟩ := ih
    have front : ∀ {n}, n ≤ xs.length → (xs ++ [x]).take n = xs.take n := fun fits =>
      List.take_append_of_le_length fits
    have last : fill name limit (xs ++ [x]) ∅ =
        if limit ≤ (fill name limit xs ∅).keys.length then fill name limit xs ∅
        else push (fill name limit xs ∅) (name x) x := by
      rw [fill, List.foldl_append]
      rfl
    rw [filled] at last
    by_cases full : limit ≤ (pushAll name (xs.take count)).keys.length
    · rw [if_pos full] at last
      refine ⟨count, ?_, by rw [last, front within], ?_, ?_⟩
      · rw [List.length_append]
        omega
      · intro _
        rw [front within]
        refine Nat.le_antisymm ?_ full
        cases count with
        | zero => exact Nat.zero_le _
        | succ before =>
          have grown := keys_pushAll_take_succ name xs before
          have earlier := below before (Nat.lt_succ_self _)
          omega
      · intro fewer less
        rw [front (by omega)]
        exact below fewer less
    · have all : count = xs.length := by
        by_contra short
        exact full (Nat.le_of_eq (stopped (by omega)).symm)
      subst all
      rw [if_neg full, List.take_length, ← pushAll_snoc] at last
      refine ⟨xs.length + 1, by simp, ?_, by simp, ?_⟩
      · rw [last, List.take_of_length_le (by simp)]
      · intro fewer less
        rw [front (by omega)]
        rcases Nat.lt_or_eq_of_le (Nat.le_of_lt_succ less) with less | rfl
        · exact below fewer less
        · omega

/-- At least `limit` elements are taken if there are so many, and more of them unless those
have different keys. -/
theorem fill_count (name : α → κ) (limit : Nat) (xs : List α) :
    ∃ count ≤ xs.length, fill name limit xs ∅ = pushAll name (xs.take count) ∧
      min limit xs.length ≤ count ∧
      (count ≤ limit ↔ xs.length ≤ limit ∨ ((xs.take limit).map name).Nodup) := by
  obtain ⟨count, within, filled, stopped, below⟩ := fill_eq name limit xs
  have enough : count < xs.length → limit ≤ count := by
    intro short
    have keys := keys_pushAll_le name (xs.take count)
    rw [stopped short, List.length_take] at keys
    omega
  refine ⟨count, within, filled, by omega, ?_⟩
  rw [← keys_pushAll_eq_iff, List.length_take]
  constructor
  · intro few
    by_cases short : count < xs.length
    · have same : count = limit := Nat.le_antisymm few (enough short)
      have keys := stopped short
      rw [same] at keys
      exact .inr (by omega)
    · exact .inl (by omega)
  · rintro (few | apart)
    · omega
    · by_contra more
      have keys := below limit (by omega)
      omega

end

end Multimap

end Obsidian.Data
