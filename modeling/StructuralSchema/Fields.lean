namespace StructuralSchema

abbrev Fields (α : Type) := List (String × α)

namespace Fields

variable {α : Type}

def keys (fields : Fields α) : List String :=
  fields.map Prod.fst

def get? (fields : Fields α) (key : String) : Option α :=
  fields.lookup key

/-- Gives `key` the value `value`, at the place that the key has already, else at the end. -/
def put (key : String) (value : α) : Fields α → Fields α
  | [] => [(key, value)]
  | entry :: rest =>
    if entry.1 = key then (key, value) :: rest else entry :: put key value rest

/-- Of two entries of one name the first gives the place and the last the value. -/
def ofList (entries : List (String × α)) : Fields α :=
  entries.foldl (fun fields entry => put entry.1 entry.2 fields) []

def Distinct (fields : Fields α) : Prop :=
  fields.keys.Nodup

instance (fields : Fields α) : Decidable fields.Distinct :=
  inferInstanceAs (Decidable (fields.keys.Nodup))

theorem get?_cons (entry : String × α) (rest : Fields α) (key : String) :
    get? (entry :: rest) key = if key = entry.1 then some entry.2 else get? rest key := by
  obtain ⟨name, value⟩ := entry
  by_cases h : key = name
  · simp [get?, h]
  · simp [get?, List.lookup_cons, h, beq_false_of_ne h]

theorem get?_put (fields : Fields α) (key : String) (value : α) (other : String) :
    get? (put key value fields) other = if other = key then some value else get? fields other := by
  induction fields with
  | nil => simp [put, get?_cons]
  | cons entry rest ih =>
    by_cases h : entry.1 = key
    · by_cases ho : other = key <;> simp [put, h, get?_cons, ho]
    · by_cases ho : other = entry.1
      · simp [put, h, get?_cons, ho]
      · simp [put, h, get?_cons, ho, ih]

theorem isSome_get?_iff (fields : Fields α) (key : String) :
    (fields.get? key).isSome ↔ key ∈ fields.keys := by
  induction fields with
  | nil => simp [get?, keys]
  | cons entry rest ih =>
    by_cases h : key = entry.1
    · simp [get?_cons, keys, h]
    · simpa [get?_cons, keys, h] using ih

theorem mem_of_get? {fields : Fields α} {key : String} {value : α}
    (h : fields.get? key = some value) : (key, value) ∈ fields := by
  induction fields with
  | nil => simp [get?] at h
  | cons entry rest ih =>
    rw [get?_cons] at h
    split at h
    · rename_i hk
      subst hk
      obtain rfl : entry.2 = value := by simpa using h
      exact List.mem_cons_self
    · exact List.mem_cons_of_mem _ (ih h)

theorem keys_put (fields : Fields α) (key : String) (value : α) :
    keys (put key value fields) =
      if key ∈ fields.keys then fields.keys else fields.keys ++ [key] := by
  induction fields with
  | nil => simp [put, keys]
  | cons entry rest ih =>
    by_cases h : entry.1 = key
    · simp [put, keys, h]
    · have hk : key ≠ entry.1 := fun he => h he.symm
      have ht : keys (put key value (entry :: rest)) = entry.1 :: keys (put key value rest) := by
        simp [put, keys, h]
      have hc : keys (entry :: rest) = entry.1 :: keys rest := rfl
      rw [ht, ih, hc]
      by_cases hm : key ∈ keys rest <;> simp [hk, hm]

theorem mem_put {fields : Fields α} {key : String} {value : α}
    {entry : String × α} (h : entry ∈ put key value fields) :
    entry = (key, value) ∨ entry ∈ fields := by
  induction fields with
  | nil => exact .inl (by simpa [put] using h)
  | cons first rest ih =>
    unfold put at h
    split at h
    · obtain rfl | hr := List.mem_cons.mp h
      · exact .inl rfl
      · exact .inr (List.mem_cons_of_mem _ hr)
    · obtain rfl | hr := List.mem_cons.mp h
      · exact .inr List.mem_cons_self
      · exact (ih hr).imp_right (List.mem_cons_of_mem _)

theorem distinct_put {fields : Fields α} (h : fields.Distinct) (key : String) (value : α) :
    (put key value fields).Distinct := by
  unfold Distinct at *
  rw [keys_put]
  split
  · exact h
  · rename_i hm
    rw [List.nodup_append]
    refine ⟨h, by simp, ?_⟩
    intro a ha b hb
    rw [List.mem_singleton.mp hb]
    intro he
    exact hm (he ▸ ha)

theorem distinct_ofList (entries : List (String × α)) : (ofList entries).Distinct := by
  suffices h : ∀ fields : Fields α, fields.Distinct →
      (entries.foldl (fun fields entry => put entry.1 entry.2 fields) fields).Distinct from
    h [] List.nodup_nil
  induction entries with
  | nil => exact fun _ h => h
  | cons entry rest ih => exact fun fields h => ih _ (distinct_put h entry.1 entry.2)

end Fields

end StructuralSchema
