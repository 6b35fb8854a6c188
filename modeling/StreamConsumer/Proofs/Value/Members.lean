import Mathlib.Data.List.Nodup
import StreamConsumer.Value.Basic

/-!
# Members with texts for keys

What JSON calls an object has texts for keys. On such members equality of keys is equality of texts
(`Value.equal_text_text`), so `Members.get` finds the first member of a key, `get_cons`. To insert
keeps keys apart, `nodup_keys_insert`, and members whose keys are all different are what
`Members.ofList` makes of them, `ofList_eq_self`. Looking up and keeping apart see the keys alone, so
they commute with any change of the values, `get_mapValues` and `ofList_mapValues`.
-/

namespace StreamConsumer

namespace Value

/-- Texts are equal as values exactly if they are the same. -/
theorem equal_text_text (a b : Text) : (text a).equal (text b) = decide (a = b) := by
  rw [equal, text?]
  by_cases h : a = b
  · simp [h]
  · simp [h, Ne.symm h]

/-- The test for null finds null alone. -/
theorem isNull_iff {v : Value} : v.isNull = true ↔ v = null := by
  cases v <;> simp [isNull]

end Value

namespace Members

/-- All keys are texts. -/
def HasTextKeys (ms : Members) : Prop := ∀ m ∈ ms, ∃ t, m.1 = .text t

/-! ### Looking up -/

/-- Nothing is found where there are no members. -/
@[simp] theorem get_nil (key : Text) : get [] key = .null := rfl

/-- The first member is found under its key, and under other keys the others. -/
theorem get?_cons (k : Text) (v : Value) (ms : Members) (key : Text) :
    get? ((.text k, v) :: ms) (.text key) = if k = key then some v else get? ms (.text key) := by
  rw [get?, List.find?_cons, Value.equal_text_text]
  by_cases h : k = key
  · simp [h]
  · simp only [h, decide_false, if_false]
    rfl

/-- So it is where a missing member is null. -/
theorem get_cons (k : Text) (v : Value) (ms : Members) (key : Text) :
    get ((.text k, v) :: ms) key = if k = key then v else get ms key := by
  rw [get, get?_cons]
  split
  · rfl
  · rfl

/-- What is found under a key is the value of some member, or nothing. -/
theorem get_eq_null_or (ms : Members) (key : Text) :
    ms.get key = .null ∨ ∃ m ∈ ms, m.2 = ms.get key := by
  rcases h : ms.find? fun m => m.1.equal (.text key) with _ | m
  · refine .inl ?_
    rw [get, get?, h]
    rfl
  · refine .inr ⟨m, List.mem_of_find?_eq_some h, ?_⟩
    rw [get, get?, h]
    rfl

/-- Nothing stands under a key: the key is missing, or its value is null. -/
def Lacks (ms : Members) (key : Text) : Prop :=
  ms.get? (.text key) = none ∨ ms.get? (.text key) = some .null

/-- A key that is missing or null is one under which null is found. -/
theorem lacks_iff {ms : Members} {key : Text} : ms.Lacks key ↔ ms.get key = .null := by
  rw [Lacks, get]
  rcases ms.get? (.text key) with _ | v <;> simp

/-! ### Keys kept apart -/

/-- A new key goes to the end. -/
theorem insert_of_not_mem {ms : Members} {key : Text} (hms : ms.HasTextKeys)
    (h : .text key ∉ ms.map Prod.fst) (v : Value) :
    insert ms (.text key) v = ms ++ [(.text key, v)] := by
  induction ms with
  | nil => rfl
  | cons m ms ih =>
    obtain ⟨k, hk⟩ := hms m List.mem_cons_self
    obtain ⟨_, w⟩ := m
    subst hk
    have hne : k ≠ key := by
      rintro rfl
      exact h List.mem_cons_self
    rw [insert, Value.equal_text_text, decide_eq_false hne, List.cons_append, if_neg (by simp),
      ih (fun m hm => hms m (List.mem_cons_of_mem _ hm)) (fun hm => h (List.mem_cons_of_mem _ hm))]

/-- What is inserted stands under its key or under an equal one that was there. -/
theorem mem_insert {ms : Members} {key v : Value} {m : Value × Value} (h : m ∈ insert ms key v) :
    m ∈ ms ∨ m.2 = v ∧ (m.1 = key ∨ ∃ n ∈ ms, n.1 = m.1) := by
  induction ms with
  | nil =>
    obtain rfl := List.mem_singleton.mp h
    exact .inr ⟨rfl, .inl rfl⟩
  | cons n ms ih =>
    rw [insert] at h
    split at h
    · obtain rfl | h := List.mem_cons.mp h
      · exact .inr ⟨rfl, .inr ⟨n, List.mem_cons_self, rfl⟩⟩
      · exact .inl (List.mem_cons_of_mem n h)
    · obtain rfl | h := List.mem_cons.mp h
      · exact .inl List.mem_cons_self
      · obtain h | ⟨hv, hkey | ⟨n', hn', hkey⟩⟩ := ih h
        · exact .inl (List.mem_cons_of_mem n h)
        · exact .inr ⟨hv, .inl hkey⟩
        · exact .inr ⟨hv, .inr ⟨n', List.mem_cons_of_mem n hn', hkey⟩⟩

/-- Keys that are all different stay so. -/
theorem nodup_keys_insert {ms : Members} (hms : ms.HasTextKeys) (hnd : (ms.map Prod.fst).Nodup)
    (key : Text) (v : Value) : ((insert ms (.text key) v).map Prod.fst).Nodup := by
  by_cases hkey : .text key ∈ ms.map Prod.fst
  · -- The member that is there keeps its key, so the keys stay as they are.
    suffices hkeys : (insert ms (.text key) v).map Prod.fst = ms.map Prod.fst by rwa [hkeys]
    clear hnd
    induction ms with
    | nil => cases hkey
    | cons m ms ih =>
      obtain ⟨k, hk⟩ := hms m List.mem_cons_self
      obtain ⟨_, w⟩ := m
      subst hk
      rw [insert, Value.equal_text_text]
      by_cases hkk : k = key
      · rw [decide_eq_true hkk, if_pos rfl]
        rfl
      · have hmem : Value.text key ∈ ms.map Prod.fst := by
          obtain h | h := List.mem_cons.mp hkey
          · exact absurd (Value.text.inj h).symm hkk
          · exact h
        rw [decide_eq_false hkk, if_neg (by simp), List.map_cons,
          ih (fun m hm => hms m (List.mem_cons_of_mem _ hm)) hmem]
        rfl
  · rw [insert_of_not_mem hms hkey, List.map_append]
    refine List.Nodup.append hnd (List.nodup_singleton _) fun k hk hk' => ?_
    obtain rfl := List.mem_singleton.mp hk'
    exact hkey hk

/-- Members under different texts that are inserted one by one stand in their order. -/
theorem foldl_insert_append {acc ms : Members} (hms : (acc ++ ms).HasTextKeys)
    (hnd : ((acc ++ ms).map Prod.fst).Nodup) :
    ms.foldl (fun acc m => acc.insert m.1 m.2) acc = acc ++ ms := by
  induction ms generalizing acc with
  | nil => simp
  | cons m ms ih =>
    obtain ⟨k, hk⟩ := hms m (by simp)
    obtain ⟨_, v⟩ := m
    subst hk
    have hacc : acc.HasTextKeys := fun m hm => hms m (List.mem_append_left _ hm)
    have hk : Value.text k ∉ acc.map Prod.fst := fun hm => by
      rw [List.map_append, List.nodup_append] at hnd
      exact hnd.2.2 _ hm (.text k) (by simp) rfl
    have hsplit : acc ++ (.text k, v) :: ms = (acc ++ [(.text k, v)]) ++ ms := by simp
    rw [List.foldl_cons, insert_of_not_mem hacc hk, hsplit]
    rw [hsplit] at hms hnd
    exact ih hms hnd

/-- Members with different texts for keys stay as they are. -/
theorem ofList_eq_self {ms : Members} (hms : ms.HasTextKeys) (hnd : (ms.map Prod.fst).Nodup) :
    ofList ms = ms :=
  foldl_insert_append (List.nil_append ms ▸ hms) (List.nil_append ms ▸ hnd)

/-! ### Other values under the same keys -/

/-- Members with what a function makes of their values. -/
def mapValues (f : Value → Value) (ms : Members) : Members := ms.map fun m => (m.1, f m.2)

variable (f : Value → Value)

/-- Values are changed member by member. -/
theorem mapValues_cons (m : Value × Value) (ms : Members) :
    mapValues f (m :: ms) = (m.1, f m.2) :: ms.mapValues f := rfl

/-- A change of values keeps the keys. -/
theorem keys_mapValues (ms : Members) : (ms.mapValues f).map Prod.fst = ms.map Prod.fst := by
  rw [mapValues, List.map_map]
  rfl

/-- What is found after a change of values is what was found, changed. -/
theorem get?_mapValues (ms : Members) (key : Value) :
    (ms.mapValues f).get? key = (ms.get? key).map f := by
  induction ms with
  | nil => rfl
  | cons m ms ih =>
    rw [mapValues_cons, get?, get?, List.find?_cons, List.find?_cons]
    cases m.1.equal key with
    | true => rfl
    | false => exact ih

/-- So it is where a missing member is null, if null is kept. -/
theorem get_mapValues (hf : f .null = .null) (ms : Members) (key : Text) :
    (ms.mapValues f).get key = f (ms.get key) := by
  rw [get, get, get?_mapValues]
  cases ms.get? (.text key) with
  | none => exact hf.symm
  | some v => rfl

/-- A changed value is inserted as the value is before the change. -/
theorem insert_mapValues (ms : Members) (key v : Value) :
    (ms.mapValues f).insert key (f v) = (ms.insert key v).mapValues f := by
  induction ms with
  | nil => rfl
  | cons m ms ih =>
    obtain ⟨k, w⟩ := m
    rw [mapValues_cons, insert, insert]
    cases k.equal key with
    | true => rfl
    | false => exact congrArg ((k, f w) :: ·) ih

/-- Repeated keys are dropped alike before a change of values and after it. -/
theorem ofList_mapValues (ms : Members) : ofList (ms.mapValues f) = (ofList ms).mapValues f := by
  have hfold (acc : Members) : (ms.mapValues f).foldl (fun acc m => acc.insert m.1 m.2)
      (acc.mapValues f) = (ms.foldl (fun acc m => acc.insert m.1 m.2) acc).mapValues f := by
    induction ms generalizing acc with
    | nil => rfl
    | cons m ms ih =>
      rw [mapValues_cons, List.foldl_cons, List.foldl_cons, insert_mapValues, ih]
  exact hfold []

end Members

end StreamConsumer
