import Mathlib.Data.List.AList
import Mathlib.Data.List.Induction

/-!
# Two stores of keyed records: last write wins, first write wins

Records of a type `ρ` carry their key, `key : ρ → κ`.

* `KeyedMap` is Mathlib's `AList`; `put` files a record under its key and replaces the one that
  was there, and `putAll` puts a whole list.
* `KeyedLog` is a table with a unique key: a list of rows in which no key occurs twice, as a
  field. `insertNew` appends a row unless its key is taken, and then does nothing; `insertAll`
  inserts a whole list.
* `firstByKey` picks, out of a list, the records whose key does not occur before them.

Results:
* `lookup_putAll`: a loaded map holds, for every key, the last record of the list with that
  key; over a table (`lookup_putAll_rows`) that is its only row with that key.
* `find_insertNew`, `mem_insertNew`: what an insertion changes.
* **`rows_insertAll`**: a table into which a list is inserted has the records that are first with
  their key, those of the table before those of the list.
* `size_putAll_rows`: a map into which a table is loaded is as large as the table.
* **`agree_put_insertNew`**: a map and a table that agree on every key still agree after the
  record is put and inserted iff its key was free, or the table already held this very record.
-/

namespace ConsoleCalculator.Base

variable {ρ κ : Type} [DecidableEq κ]

/-- A map from keys to records. -/
abbrev KeyedMap (κ ρ : Type) : Type := AList fun _ : κ => ρ

namespace KeyedMap

/-- Insert or assign: the record replaces whatever its key held. -/
def put (key : ρ → κ) (m : KeyedMap κ ρ) (r : ρ) : KeyedMap κ ρ := m.insert (key r) r

/-- Put the records of a list, in order. -/
def putAll (key : ρ → κ) (m : KeyedMap κ ρ) (rs : List ρ) : KeyedMap κ ρ := rs.foldl (put key) m

/-- The number of keys. -/
def size (m : KeyedMap κ ρ) : ℕ := m.entries.length

variable {key : ρ → κ}

theorem lookup_put (m : KeyedMap κ ρ) (r : ρ) (k : κ) :
    (put key m r).lookup k = if k = key r then some r else m.lookup k := by
  unfold put
  by_cases hk : k = key r
  · rw [hk, if_pos rfl, AList.lookup_insert]
  · rw [if_neg hk, AList.lookup_insert_ne hk]

theorem lookup_putAll (k : κ) : ∀ (rs : List ρ) (m : KeyedMap κ ρ),
    (putAll key m rs).lookup k = (rs.reverse.find? fun r => key r = k).or (m.lookup k)
  | [], m => rfl
  | r :: rs, m => by
    show (putAll key (put key m r) rs).lookup k = _
    rw [lookup_putAll k rs, lookup_put, List.reverse_cons, List.find?_append, Option.or_assoc]
    congr 1
    by_cases hk : k = key r
    · simp [hk]
    · simp [hk, Ne.symm hk]

theorem size_put {m : KeyedMap κ ρ} {r : ρ} (h : key r ∉ m) : (put key m r).size = m.size + 1 := by
  unfold size put
  rw [AList.entries_insert_of_notMem h, List.length_cons]

/-- Records with different keys, none of them taken, all find room. -/
theorem size_putAll : ∀ (rs : List ρ) (m : KeyedMap κ ρ), (rs.map key).Nodup →
    (∀ r ∈ rs, key r ∉ m) → (putAll key m rs).size = m.size + rs.length
  | [], _, _, _ => rfl
  | r :: rs, m, hnodup, hfree => by
    obtain ⟨hr, hrs⟩ := List.nodup_cons.mp hnodup
    have hfree' : ∀ r' ∈ rs, key r' ∉ put key m r := by
      intro r' hr' hmem
      rcases (AList.mem_insert m).mp hmem with he | hm
      · exact hr (he ▸ List.mem_map_of_mem hr')
      · exact hfree r' (List.mem_cons_of_mem r hr') hm
    show (putAll key (put key m r) rs).size = _
    rw [size_putAll rs _ hrs hfree', size_put (hfree r List.mem_cons_self), List.length_cons]
    omega

end KeyedMap

/-! ## The first record with a key -/

/-- The records whose key does not occur before them in the list, in order. -/
def firstByKey (key : ρ → κ) (rs : List ρ) : List ρ :=
  (rs.zipIdx.filter fun p => key p.1 ∉ (rs.take p.2).map key).map Prod.fst

section FirstByKey

variable {key : ρ → κ}

/-- One more record at the end stays if its key is new, and has no part in what stays before it. -/
theorem firstByKey_concat (rs : List ρ) (r : ρ) :
    firstByKey key (rs ++ [r]) =
      firstByKey key rs ++ if key r ∈ rs.map key then [] else [r] := by
  have hbefore : rs.zipIdx.filter (fun p => key p.1 ∉ ((rs ++ [r]).take p.2).map key) =
      rs.zipIdx.filter fun p => key p.1 ∉ (rs.take p.2).map key := by
    refine List.filter_congr fun p hp => ?_
    have hlt := List.snd_lt_of_mem_zipIdx hp
    have hle : p.2 ≤ rs.length := by omega
    rw [List.take_append_of_le_length hle]
  unfold firstByKey
  rw [List.zipIdx_append, List.filter_append, List.map_append, hbefore]
  congr 1
  by_cases hmem : key r ∈ rs.map key
  · simp [hmem]
  · simp [hmem]

/-- No key is lost. -/
theorem mem_map_firstByKey {k : κ} (rs : List ρ) :
    k ∈ (firstByKey key rs).map key ↔ k ∈ rs.map key := by
  induction rs using List.reverseRecOn with
  | nil => rfl
  | append_singleton rs r ih =>
    rw [firstByKey_concat, List.map_append, List.map_append, List.mem_append, List.mem_append, ih]
    by_cases hmem : key r ∈ rs.map key
    · rw [if_pos hmem, List.map_singleton, List.mem_singleton]
      constructor
      · exact fun h => h.imp_right fun hnil => absurd hnil List.not_mem_nil
      · exact fun h => Or.inl (h.elim id fun he => he ▸ hmem)
    · rw [if_neg hmem]

theorem firstByKey_of_nodup {rs : List ρ} (h : (rs.map key).Nodup) : firstByKey key rs = rs := by
  induction rs using List.reverseRecOn with
  | nil => rfl
  | append_singleton rs r ih =>
    rw [List.map_append, List.map_singleton, ← List.concat_eq_append, List.nodup_concat] at h
    rw [firstByKey_concat, ih h.2, if_neg h.1]

end FirstByKey

/-! ## Tables -/

/-- A table whose rows have distinct keys, in the order of insertion. -/
structure KeyedLog (key : ρ → κ) where
  rows : List ρ
  unique : (rows.map key).Nodup

namespace KeyedLog

variable {key : ρ → κ}

/-- The table without rows. -/
def empty : KeyedLog key := ⟨[], List.nodup_nil⟩

/-- The row with key `k`. -/
def find (t : KeyedLog key) (k : κ) : Option ρ := t.rows.find? fun r => key r = k

/-- Insert a row; if its key is taken, do nothing. -/
def insertNew (t : KeyedLog key) (r : ρ) : KeyedLog key :=
  if h : key r ∈ t.rows.map key then t
  else ⟨t.rows ++ [r], by
    rw [List.map_append, List.map_singleton]
    exact List.Nodup.append t.unique (List.nodup_singleton _)
      (List.disjoint_singleton.mpr h)⟩

/-- Insert the rows of a list, in order. -/
def insertAll (t : KeyedLog key) (rs : List ρ) : KeyedLog key := rs.foldl insertNew t

theorem find_eq_none_iff {t : KeyedLog key} {k : κ} :
    t.find k = none ↔ k ∉ t.rows.map key := by
  unfold find
  rw [List.find?_eq_none]
  constructor
  · intro h hk
    obtain ⟨r, hr, rfl⟩ := List.mem_map.mp hk
    exact h r hr (by simp)
  · intro h r hr hk
    have : key r = k := by simpa using hk
    exact h (List.mem_map.mpr ⟨r, hr, this⟩)

theorem find_eq_some_iff {t : KeyedLog key} {k : κ} {r : ρ} :
    t.find k = some r ↔ r ∈ t.rows ∧ key r = k := by
  constructor
  · intro h
    exact ⟨List.mem_of_find?_eq_some h, by simpa using List.find?_some h⟩
  · rintro ⟨hr, rfl⟩
    cases hf : t.find (key r) with
    | none => exact absurd (List.mem_map_of_mem hr) (find_eq_none_iff.mp hf)
    | some r' =>
      have hr' : r' ∈ t.rows := List.mem_of_find?_eq_some hf
      have hk : key r' = key r := by simpa using List.find?_some hf
      rw [List.inj_on_of_nodup_map t.unique hr' hr hk]

theorem rows_insertNew (t : KeyedLog key) (r : ρ) :
    (t.insertNew r).rows = t.rows ++ if key r ∈ t.rows.map key then [] else [r] := by
  unfold insertNew
  by_cases h : key r ∈ t.rows.map key
  · rw [dif_pos h, if_pos h, List.append_nil]
  · rw [dif_neg h, if_neg h]

theorem mem_insertNew {t : KeyedLog key} {r r' : ρ} :
    r' ∈ (t.insertNew r).rows ↔ r' ∈ t.rows ∨ (r' = r ∧ t.find (key r) = none) := by
  rw [rows_insertNew, List.mem_append, find_eq_none_iff]
  refine or_congr_right ?_
  by_cases h : key r ∈ t.rows.map key
  · simp [h]
  · simp [h]

theorem find_insertNew (t : KeyedLog key) (r : ρ) (k : κ) :
    (t.insertNew r).find k = if k = key r then (t.find k).or (some r) else t.find k := by
  have hsplit : (t.insertNew r).find k = (t.find k).or
      ((if key r ∈ t.rows.map key then [] else [r]).find? fun r => key r = k) := by
    unfold find
    rw [rows_insertNew, List.find?_append]
  rw [hsplit]
  by_cases hk : k = key r
  · rw [if_pos hk]
    cases hf : t.find k with
    | some r' => rfl
    | none =>
      -- the key is free, so the row is there
      have hfree : key r ∉ t.rows.map key := find_eq_none_iff.mp (hk ▸ hf)
      rw [if_neg hfree]
      simp [hk]
  · rw [if_neg hk]
    by_cases hmem : key r ∈ t.rows.map key
    · simp [hmem]
    · simp [hmem, Ne.symm hk]

/-- **The first record with a key wins**, and the rows of the table come first. -/
theorem rows_insertAll (t : KeyedLog key) (rs : List ρ) :
    (t.insertAll rs).rows = firstByKey key (t.rows ++ rs) := by
  unfold insertAll
  -- from the right: the last insertion meets the table that the others have left
  induction rs using List.reverseRecOn with
  | nil => rw [List.append_nil, firstByKey_of_nodup t.unique, List.foldl_nil]
  | append_singleton rs r ih =>
    rw [List.foldl_append, List.foldl_cons, List.foldl_nil, rows_insertNew, ih,
      ← List.append_assoc, firstByKey_concat]
    simp only [mem_map_firstByKey]

/-- Loading a table into an empty map: every key holds its row. -/
theorem lookup_putAll_rows (t : KeyedLog key) (k : κ) :
    (KeyedMap.putAll key ∅ t.rows).lookup k = t.find k := by
  rw [KeyedMap.lookup_putAll, AList.lookup_empty, Option.or_none]
  -- distinct keys: the last row with key `k` is the first one
  have hrev : (t.rows.reverse.map key).Nodup := by
    rw [List.map_reverse]; exact List.nodup_reverse.mpr t.unique
  cases hf : t.find k with
  | none =>
    rw [List.find?_eq_none]
    intro r hr hk
    have : key r = k := by simpa using hk
    exact find_eq_none_iff.mp hf (List.mem_map.mpr ⟨r, List.mem_reverse.mp hr, this⟩)
  | some r =>
    obtain ⟨hm, hk⟩ := find_eq_some_iff.mp hf
    exact (find_eq_some_iff (t := ⟨t.rows.reverse, hrev⟩)).mpr ⟨List.mem_reverse.mpr hm, hk⟩

theorem size_putAll_rows (t : KeyedLog key) :
    (KeyedMap.putAll key ∅ t.rows).size = t.rows.length := by
  rw [KeyedMap.size_putAll t.rows ∅ t.unique fun r _ => AList.notMem_empty (key r)]
  exact Nat.zero_add t.rows.length

end KeyedLog

/-- The map and the table hold the same record, or none, under every key. -/
def Agree {key : ρ → κ} (m : KeyedMap κ ρ) (t : KeyedLog key) : Prop :=
  ∀ k, m.lookup k = t.find k

/-- **Opposite policies.** After a record is put into the map and inserted into the table, two
stores that agreed still agree iff the key was free or held this very record. -/
theorem agree_put_insertNew {key : ρ → κ} {m : KeyedMap κ ρ} {t : KeyedLog key} (h : Agree m t)
    (r : ρ) : Agree (KeyedMap.put key m r) (t.insertNew r) ↔
      t.find (key r) = none ∨ t.find (key r) = some r := by
  constructor
  · intro h'
    have hk := h' (key r)
    rw [KeyedMap.lookup_put, if_pos rfl, KeyedLog.find_insertNew, if_pos rfl] at hk
    cases hf : t.find (key r) with
    | none => exact Or.inl rfl
    | some r' => rw [hf] at hk; exact Or.inr hk.symm
  · intro hf k
    rw [KeyedMap.lookup_put, KeyedLog.find_insertNew]
    by_cases hk : k = key r
    · rw [if_pos hk, if_pos hk, hk]
      rcases hf with hf | hf <;> rw [hf] <;> rfl
    · rw [if_neg hk, if_neg hk]
      exact h k

/-- A record put into the map alone keeps the agreement iff the table already held it. -/
theorem agree_put_iff {key : ρ → κ} {m : KeyedMap κ ρ} {t : KeyedLog key} (h : Agree m t) (r : ρ) :
    Agree (KeyedMap.put key m r) t ↔ t.find (key r) = some r := by
  constructor
  · intro h'
    have hk := h' (key r)
    rw [KeyedMap.lookup_put, if_pos rfl] at hk
    exact hk.symm
  · intro hf k
    rw [KeyedMap.lookup_put]
    split
    · rename_i hk; rw [hk, hf]
    · exact h k

end ConsoleCalculator.Base
