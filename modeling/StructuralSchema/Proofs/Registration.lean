import Mathlib.Data.Finset.Card
import StructuralSchema.Predicate.Builtin
import StructuralSchema.Proofs.Fields

namespace StructuralSchema.Registry

open Fields

variable {χ : Type} {registry : Registry χ} {history : List (Predicate χ)}

def registerAll (registry : Registry χ) (predicates : List (Predicate χ)) : Registry χ :=
  predicates.foldl register registry

def stored (registry : Registry χ) : List (Predicate χ) :=
  registry.entries.map Prod.snd

theorem names_register (registry : Registry χ) (predicate : Predicate χ) :
    (registry.register predicate).names =
      if predicate.name ∈ registry.names then registry.names
      else registry.names ++ [predicate.name] := by
  rw [names, entries_register, keys_put, names]

theorem eraseDups_concat (names : List String) (name : String) :
    (names ++ [name]).eraseDups =
      if name ∈ names then names.eraseDups else names.eraseDups ++ [name] := by
  rw [List.eraseDups_append]
  by_cases h : name ∈ names <;> simp [List.removeAll, List.eraseDups_cons, h]

/-- What a registry holds after a history of registrations. -/
structure Records (registry : Registry χ) (history : List (Predicate χ)) : Prop where
  names_eq : registry.names = (history.map (·.name)).eraseDups
  get?_eq : ∀ name, registry.get? name = history.reverse.find? (·.name = name)
  entries_eq : registry.entries = ofList (history.map fun predicate => (predicate.name, predicate))

theorem records_empty : Records (empty : Registry χ) [] :=
  ⟨rfl, fun _ => rfl, rfl⟩

theorem Records.register (h : Records registry history) (predicate : Predicate χ) :
    Records (registry.register predicate) (history ++ [predicate]) where
  names_eq := by
    have hm : predicate.name ∈ registry.names ↔ predicate.name ∈ history.map (·.name) := by
      rw [h.names_eq, List.mem_eraseDups]
    rw [names_register, List.map_append, List.map_singleton, eraseDups_concat, ← h.names_eq]
    simp only [hm]
  get?_eq name := by
    rw [get?_register, h.get?_eq, List.reverse_append, List.reverse_singleton,
      List.singleton_append, List.find?_cons]
    by_cases hn : predicate.name = name <;> simp [hn]
  entries_eq := by
    rw [entries_register, h.entries_eq, ofList, ofList, List.map_append, List.foldl_append]
    rfl

theorem Records.registerAll (h : Records registry history) (further : List (Predicate χ)) :
    Records (registry.registerAll further) (history ++ further) := by
  induction further generalizing registry history with
  | nil => rwa [List.append_nil]
  | cons predicate further ih =>
    have hr := ih (h.register predicate)
    rw [List.append_assoc] at hr
    exact hr

theorem records_builtin (embed : Builtin → χ) :
    Records (builtin embed) (builtin embed).stored :=
  records_empty.registerAll (builtin embed).stored

theorem Records.nodup_names (h : Records registry history) : registry.names.Nodup := by
  rw [names, h.entries_eq]
  exact distinct_ofList _

theorem Records.size_eq (h : Records registry history) :
    registry.size = (history.map (·.name)).toFinset.card := by
  have hs : registry.names.toFinset = (history.map (·.name)).toFinset := by
    ext name
    rw [List.mem_toFinset, List.mem_toFinset, h.names_eq, List.mem_eraseDups]
  rw [← hs, List.toFinset_card_of_nodup h.nodup_names, size, names, keys, List.length_map]

/-- A registry that begins empty or with the checks that are always at hand lists each name once, at
the place where it first came; under a name it has the predicate that was registered last with it,
and it is as large as there are names. -/
theorem registerAll_tells_history (embed : Builtin → χ) {start : Registry χ}
    (hs : start = .empty ∨ start = .builtin embed) (further : List (Predicate χ)) :
    let history := start.stored ++ further
    let registry := start.registerAll further
    (registry.names.Nodup ∧ registry.names = (history.map (·.name)).eraseDups) ∧
      (∀ name, registry.get? name = history.reverse.find? (·.name = name)) ∧
      (registry.entries = ofList (history.map fun predicate => (predicate.name, predicate)) ∧
        ∀ entry ∈ registry.entries, entry.2.name = entry.1) ∧
      registry.size = (history.map (·.name)).toFinset.card := by
  intro history registry
  have hr : Records start start.stored := by
    obtain rfl | rfl := hs
    · exact records_empty
    · exact records_builtin embed
  have h : Records registry history := hr.registerAll further
  exact ⟨⟨h.nodup_names, h.names_eq⟩, h.get?_eq, ⟨h.entries_eq, registry.named⟩,
    h.size_eq⟩

theorem registerAll_tells_history_uri :
    let further : List (Predicate Builtin) :=
      [⟨"uri", .email⟩, ⟨"phone", .nonEmpty⟩, ⟨"uri", .nonEmpty⟩]
    let registry := (builtin id).registerAll further
    registry.names = ["email", "uri", "non_empty", "phone"] ∧
      registry.get? "uri" = some ⟨"uri", .nonEmpty⟩ ∧ registry.get? "mail" = none ∧
      registry.size = 4 := by
  intro further registry
  obtain ⟨⟨_, hn⟩, hg, _, hs⟩ := registerAll_tells_history id (.inr rfl) further
  refine ⟨?_, ?_, ?_, ?_⟩
  · rw [hn]
    decide
  · rw [hg]
    decide
  · rw [hg]
    decide
  · rw [hs]
    decide

end StructuralSchema.Registry
