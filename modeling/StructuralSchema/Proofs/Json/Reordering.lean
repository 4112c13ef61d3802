import Mathlib.Data.List.Perm.Basic
import StructuralSchema.Instance
import StructuralSchema.Proofs.Trees

namespace StructuralSchema.Json

open Fields
open scoped List

theorem itemsReordered_iff (items others : List Json) :
    ItemsReordered items others ↔ List.Forall₂ Reordered items others := by
  induction items generalizing others with
  | nil => cases others <;> simp [ItemsReordered]
  | cons item items ih => cases others <;> simp [ItemsReordered, ih]

theorem membersReordered_iff (members others : Fields Json) :
    MembersReordered members others ↔ Within Reordered members others :=
  iff_forall_mem_of_cons (MembersReordered · others) trivial (fun _ _ => .rfl) members

theorem reordered_array {items : List Json} {other : Json} :
    (array items).Reordered other ↔ ∃ others, other = array others ∧
      List.Forall₂ Reordered items others := by
  cases other with
  | array others => simp [Reordered, itemsReordered_iff]
  | _ => simp [Reordered, isScalar]

theorem reordered_object {members : Fields Json} {other : Json} :
    (object members).Reordered other ↔ ∃ others, other = object others ∧
      Fields.SameKeys members others ∧ members.length = others.length ∧
        Within Reordered members others := by
  cases other with
  | object others =>
    simp only [Reordered, membersReordered_iff, object.injEq, exists_eq_left']
    rfl
  | _ => simp [Reordered, isScalar]

/-- Members may be put into another order, and each value into another order of its own. -/
theorem reordered_object_of_perm {members entries others : Fields Json} (hd : members.Distinct)
    (h : List.Forall₂ (fun a b => a.1 = b.1 ∧ a.2.Reordered b.2) members entries)
    (hp : entries.Perm others) : (object members).Reordered (object others) := by
  have hk : members.keys.Perm others.keys := keys_eq_of_forall₂ h ▸ hp.map Prod.fst
  refine reordered_object.mpr ⟨others, rfl, fun _ => hk.mem_iff, ?_, ?_⟩
  · exact h.length_eq.trans hp.length_eq
  · exact within_of_perm (hk.nodup_iff.mp hd) h hp

theorem reordered_of_isScalar {value other : Json} (hs : value.isScalar = true) :
    value.Reordered other ↔ value = other := by
  cases value <;> simp_all [Reordered, isScalar]

theorem reordered_refl {value : Json} (hv : value.WellFormed) : value.Reordered value := by
  induction value with
  | array items ih =>
    have hw := wellFormed_array.mp hv
    exact reordered_array.mpr
      ⟨items, rfl, List.forall₂_same.mpr fun item hm => ih item hm (hw item hm)⟩
  | object members ih =>
    obtain ⟨hd, hw⟩ := wellFormed_object.mp hv
    refine reordered_object_of_perm hd (List.forall₂_same.mpr fun entry hm => ?_) (.refl _)
    exact ⟨rfl, ih entry hm (hw entry hm)⟩
  | _ => exact (reordered_of_isScalar rfl).mpr rfl

theorem reordered_of_perm {members others : Fields Json} (hv : (object members).WellFormed)
    (hp : members.Perm others) : (object members).Reordered (object others) := by
  obtain ⟨hd, hw⟩ := wellFormed_object.mp hv
  refine reordered_object_of_perm hd (List.forall₂_same.mpr fun entry hm => ?_) hp
  exact ⟨rfl, reordered_refl (hw entry hm)⟩

theorem kind_eq_of_reordered {value other : Json} (h : value.Reordered other) :
    value.kind = other.kind := by
  cases value with
  | array items =>
    obtain ⟨others, rfl, _⟩ := reordered_array.mp h
    rfl
  | object members =>
    obtain ⟨others, rfl, _⟩ := reordered_object.mp h
    rfl
  | _ => rw [(reordered_of_isScalar rfl).mp h]

theorem perm_keys_of_reordered {members others : Fields Json} (hv : (object members).WellFormed)
    (hr : (object members).Reordered (object others)) : members.keys.Perm others.keys := by
  obtain ⟨_, ho, _, hl, hm⟩ := reordered_object.mp hr
  cases ho
  exact perm_keys_of_subset (wellFormed_object.mp hv).1 hm.keys_subset hl

namespace Layout

variable (layout : Layout) (depth : Nat)

theorem writeItems_eq_map (items : List Json) :
    layout.writeItems depth items = items.map (layout.write depth) :=
  eq_map_of_cons (layout.writeItems depth) rfl (fun _ _ => rfl) items

theorem writeMembers_eq_map (members : Fields Json) :
    layout.writeMembers depth members = members.map fun entry =>
      Quoted.encode entry.1.toList ++ ':' :: layout.afterColon ++ layout.write depth entry.2 :=
  eq_map_of_cons (layout.writeMembers depth) rfl (fun _ _ => rfl) members

theorem perm_intercalate (between : List Char) (entries : List (List Char)) :
    (List.intercalate between entries).Perm
      (entries.flatten ++ (List.replicate (entries.length - 1) between).flatten) := by
  induction entries with
  | nil => rfl
  | cons entry entries ih =>
    cases entries with
    | nil => simp
    | cons other entries =>
      rw [List.perm_iff_count] at ih ⊢
      intro c
      have hc := ih c
      simp only [List.intercalate_cons_cons, List.flatten_cons, List.count_append,
        List.length_cons, Nat.add_sub_cancel, List.replicate_succ] at hc ⊢
      omega

theorem perm_enclose {first last : Char} {entries others : List (List Char)}
    (h : entries.flatten.Perm others.flatten) (hl : entries.length = others.length) :
    (layout.enclose depth first last entries).Perm (layout.enclose depth first last others) := by
  have hi (between : List Char) :
      (List.intercalate between entries).Perm (List.intercalate between others) :=
    calc (List.intercalate between entries)
      _ ~ entries.flatten ++ (List.replicate (entries.length - 1) between).flatten :=
        perm_intercalate between entries
      _ ~ others.flatten ++ (List.replicate (others.length - 1) between).flatten := by
        rw [hl]
        exact h.append_right _
      _ ~ List.intercalate between others := (perm_intercalate between others).symm
  cases entries with
  | nil =>
    obtain rfl : others = [] := List.eq_nil_of_length_eq_zero hl.symm
    rfl
  | cons entry entries =>
    cases others with
    | nil => cases hl
    | cons other others =>
      simp only [enclose]
      exact (((hi _).append_left _).append_right _).append_right _

theorem perm_write {value other : Json} (hv : value.WellFormed) (h : value.Reordered other) :
    (layout.write depth value).Perm (layout.write depth other) := by
  induction value generalizing depth other with
  | array items ih =>
    obtain ⟨others, rfl, hr⟩ := reordered_array.mp h
    have hw := wellFormed_array.mp hv
    rw [write, write, writeItems_eq_map, writeItems_eq_map]
    apply perm_enclose
    · apply List.Perm.flatten_congr
      rw [List.forall₂_map_left_iff, List.forall₂_map_right_iff]
      refine imp_mem_of_forall₂ hr fun item hm other _ h => ?_
      exact ih item hm (depth + 1) (hw item hm) h
    · simpa using hr.length_eq
  | object members ih =>
    obtain ⟨others, rfl, _, hl, hr⟩ := reordered_object.mp h
    obtain ⟨hd, hw⟩ := wellFormed_object.mp hv
    obtain ⟨entries, he, hp⟩ := hr.exists_perm hd hl
    rw [write, write, writeMembers_eq_map, writeMembers_eq_map]
    apply perm_enclose
    · refine List.Perm.trans ?_ (hp.map _).flatten
      apply List.Perm.flatten_congr
      rw [List.forall₂_map_left_iff, List.forall₂_map_right_iff]
      refine imp_mem_of_forall₂ he fun entry hm other _ h => ?_
      rw [h.1]
      exact (ih entry hm (depth + 1) (hw entry hm) h.2).append_left _
    · simpa using hl
  | _ => rw [(reordered_of_isScalar rfl).mp h]

end Layout

theorem utf8ByteSize_eq_of_perm {chars others : List Char} (h : chars.Perm others) :
    (String.ofList chars).utf8ByteSize = (String.ofList others).utf8ByteSize := by
  induction h with
  | nil => rfl
  | cons c _ ih =>
    rw [String.ofList_cons, String.ofList_cons, String.utf8ByteSize_append,
      String.utf8ByteSize_append, ih]
  | swap c d chars =>
    simp only [String.ofList_cons, String.utf8ByteSize_append]
    omega
  | trans _ _ ih ih' => exact ih.trans ih'

theorem size_eq_of_reordered {value other : Json} (hv : value.WellFormed)
    (h : value.Reordered other) : (Instance.value value).size = (Instance.value other).size :=
  utf8ByteSize_eq_of_perm (Layout.perm_write Layout.compact 0 hv h)

end StructuralSchema.Json
