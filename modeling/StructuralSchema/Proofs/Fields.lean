import Mathlib.Data.List.Forall2
import Mathlib.Data.List.Nodup
import Mathlib.Data.List.Perm.Subperm
import StructuralSchema.Fields

namespace StructuralSchema

section Rows

variable {α β : Type}

theorem iff_forall_mem_of_cons {p : α → Prop} (all : List α → Prop) (nil : all [])
    (cons : ∀ x xs, all (x :: xs) ↔ p x ∧ all xs) (xs : List α) : all xs ↔ ∀ x ∈ xs, p x := by
  induction xs with
  | nil => simp [nil]
  | cons x xs ih => rw [cons, ih, List.forall_mem_cons]

theorem eq_map_of_cons {f : α → β} (g : List α → List β) (nil : g [] = [])
    (cons : ∀ x xs, g (x :: xs) = f x :: g xs) (xs : List α) : g xs = xs.map f := by
  induction xs with
  | nil => exact nil
  | cons x xs ih => rw [cons, ih, List.map_cons]

variable {R : α → β → Prop} {xs : List α} {ys : List β}

theorem exists_forall₂ (h : ∀ x ∈ xs, ∃ y, R x y) : ∃ ys, List.Forall₂ R xs ys := by
  induction xs with
  | nil => exact ⟨[], .nil⟩
  | cons x xs ih =>
    obtain ⟨⟨y, hy⟩, hr⟩ := List.forall_mem_cons.mp h
    obtain ⟨ys, hys⟩ := ih hr
    exact ⟨y :: ys, .cons hy hys⟩

theorem exists_mem_right_of_forall₂ (h : List.Forall₂ R xs ys) {x : α} (hx : x ∈ xs) :
    ∃ y ∈ ys, R x y := by
  induction h with
  | nil => cases hx
  | @cons a b _ _ hab _ ih =>
    obtain rfl | hx := List.mem_cons.mp hx
    · exact ⟨b, List.mem_cons_self, hab⟩
    · obtain ⟨y, hy, hr⟩ := ih hx
      exact ⟨y, List.mem_cons_of_mem b hy, hr⟩

theorem exists_mem_left_of_forall₂ (h : List.Forall₂ R xs ys) {y : β} (hy : y ∈ ys) :
    ∃ x ∈ xs, R x y :=
  exists_mem_right_of_forall₂ h.flip hy

theorem imp_mem_of_forall₂ {S : α → β → Prop} (h : List.Forall₂ R xs ys)
    (hs : ∀ x ∈ xs, ∀ y ∈ ys, R x y → S x y) : List.Forall₂ S xs ys := by
  induction h with
  | nil => exact .nil
  | cons hab _ ih =>
    refine .cons (hs _ List.mem_cons_self _ List.mem_cons_self hab) (ih fun x hx y hy => ?_)
    exact hs x (List.mem_cons_of_mem _ hx) y (List.mem_cons_of_mem _ hy)

theorem forall₂_of_forall_mem (hl : xs.length = ys.length) (h : ∀ x ∈ xs, ∀ y ∈ ys, R x y) :
    List.Forall₂ R xs ys :=
  List.forall₂_iff_zip.mpr ⟨hl, fun hm => h _ (List.of_mem_zip hm).1 _ (List.of_mem_zip hm).2⟩

theorem forall₂_of_replaced {R : α → α → Prop} {before after : List α} {x y : α}
    (hb : ∀ a ∈ before, R a a) (h : R x y) (ha : ∀ a ∈ after, R a a) :
    List.Forall₂ R (before ++ x :: after) (before ++ y :: after) :=
  List.rel_append (List.forall₂_same.mpr hb) (.cons h (List.forall₂_same.mpr ha))

end Rows

namespace Fields

variable {α β γ δ : Type}

theorem mem_keys_of_mem {fields : Fields α} {entry : String × α} (h : entry ∈ fields) :
    entry.1 ∈ fields.keys :=
  List.mem_map_of_mem h

theorem exists_get?_of_mem_keys {fields : Fields α} {key : String} (h : key ∈ fields.keys) :
    ∃ value, fields.get? key = some value :=
  Option.isSome_iff_exists.mp ((isSome_get?_iff fields key).mpr h)

theorem mem_keys_of_get? {fields : Fields α} {key : String} {value : α}
    (h : fields.get? key = some value) : key ∈ fields.keys :=
  mem_keys_of_mem (mem_of_get? h)

theorem decide_not_mem_keys (fields : Fields α) (key : String) :
    decide (key ∉ fields.keys) = (fields.get? key).isNone := by
  simp only [← isSome_get?_iff]
  cases fields.get? key <;> rfl

theorem find?_isNone_eq_none_iff (names : List String) (fields : Fields α) :
    (names.find? fun name => (fields.get? name).isNone) = none ↔
      ∀ name ∈ names, name ∈ fields.keys := by
  simp [← decide_not_mem_keys]

theorem get?_of_mem {fields : Fields α} (hd : fields.Distinct) {entry : String × α}
    (h : entry ∈ fields) : fields.get? entry.1 = some entry.2 := by
  induction fields with
  | nil => cases h
  | cons first rest ih =>
    have hn : first.1 ∉ keys rest ∧ Distinct rest := List.nodup_cons.mp hd
    rw [get?_cons]
    cases h with
    | head => simp
    | tail _ h =>
      have hne : entry.1 ≠ first.1 := by
        intro he
        exact hn.1 (he ▸ mem_keys_of_mem h)
      rw [if_neg hne]
      exact ih hn.2 h

def Within (R : α → β → Prop) (fields : Fields α) (others : Fields β) : Prop :=
  ∀ entry ∈ fields, ∃ other, others.get? entry.1 = some other ∧ R entry.2 other

def SameKeys (fields : Fields α) (others : Fields β) : Prop :=
  ∀ key, key ∈ fields.keys ↔ key ∈ others.keys

theorem sameKeys_iff {fields : Fields α} {others : Fields β} :
    SameKeys fields others ↔
      (∀ key ∈ fields.keys, key ∈ others.keys) ∧ ∀ key ∈ others.keys, key ∈ fields.keys :=
  ⟨fun h => ⟨fun key => (h key).mp, fun key => (h key).mpr⟩, fun h key => ⟨h.1 key, h.2 key⟩⟩

theorem within_cons {R : α → β → Prop} (entry : String × α) (rest : Fields α) (others : Fields β) :
    Within R (entry :: rest) others ↔
      (∃ other, others.get? entry.1 = some other ∧ R entry.2 other) ∧ Within R rest others :=
  List.forall_mem_cons

theorem Within.keys_subset {R : α → β → Prop} {fields : Fields α} {others : Fields β}
    (h : Within R fields others) : fields.keys ⊆ others.keys := by
  intro key hk
  obtain ⟨entry, he, rfl⟩ := List.mem_map.mp hk
  obtain ⟨other, ho, _⟩ := h entry he
  exact mem_keys_of_get? ho

theorem Within.trans {R : α → β → Prop} {S : β → γ → Prop} {T : α → γ → Prop} {fields : Fields α}
    {others : Fields β} {thirds : Fields γ} (h : Within R fields others)
    (h' : Within S others thirds)
    (ht : ∀ a ∈ fields, ∀ b ∈ others, ∀ c ∈ thirds, R a.2 b.2 → S b.2 c.2 → T a.2 c.2) :
    Within T fields thirds := by
  intro a ha
  obtain ⟨b, hb, hr⟩ := h a ha
  have hmb := mem_of_get? hb
  obtain ⟨c, hc, hs⟩ := h' _ hmb
  exact ⟨c, hc, ht a ha _ hmb _ (mem_of_get? hc) hr hs⟩

theorem perm_keys_of_subset {fields : Fields α} {others : Fields β} (hf : fields.Distinct)
    (hs : fields.keys ⊆ others.keys) (hl : fields.length = others.length) :
    fields.keys.Perm others.keys :=
  (hf.subperm hs).perm_of_length_le (by simp [keys, hl])

theorem sameKeys_of_keys_subset {fields : Fields α} {others : Fields β} (hf : fields.Distinct)
    (hs : fields.keys ⊆ others.keys) (hl : fields.length = others.length) :
    SameKeys fields others :=
  fun _ => (perm_keys_of_subset hf hs hl).mem_iff

theorem length_eq_of_sameKeys {fields : Fields α} {others : Fields β} (hf : fields.Distinct)
    (ho : others.Distinct) (h : SameKeys fields others) : fields.length = others.length := by
  have hp : fields.keys.Perm others.keys := (List.perm_ext_iff_of_nodup hf ho).mpr h
  simpa [keys] using hp.length_eq

theorem Within.imp {R S : α → β → Prop} {fields : Fields α} {others : Fields β}
    (h : Within R fields others)
    (hs : ∀ entry ∈ fields, ∀ other ∈ others, R entry.2 other.2 → S entry.2 other.2) :
    Within S fields others := by
  intro entry he
  obtain ⟨other, ho, hr⟩ := h entry he
  exact ⟨other, ho, hs entry he _ (mem_of_get? ho) hr⟩

theorem Within.symm {R : α → β → Prop} {S : β → α → Prop} {fields : Fields α} {others : Fields β}
    (hf : fields.Distinct) (ho : others.Distinct) (hl : fields.length = others.length)
    (h : Within R fields others)
    (hs : ∀ entry ∈ fields, ∀ other ∈ others, R entry.2 other.2 → S other.2 entry.2) :
    Within S others fields := by
  intro other hm
  have hk : other.1 ∈ fields.keys :=
    (sameKeys_of_keys_subset hf h.keys_subset hl other.1).mpr (mem_keys_of_mem hm)
  obtain ⟨value, hv⟩ := exists_get?_of_mem_keys hk
  have he := mem_of_get? hv
  obtain ⟨found, hg, hr⟩ := h _ he
  obtain rfl : other.2 = found := by
    rw [get?_of_mem ho hm] at hg
    exact Option.some.inj hg
  exact ⟨value, hv, hs _ he other hm hr⟩

theorem keys_eq_of_forall₂ {R : α → β → Prop} {fields : Fields α} {entries : Fields β}
    (h : List.Forall₂ (fun a b => a.1 = b.1 ∧ R a.2 b.2) fields entries) :
    fields.keys = entries.keys := by
  rw [← List.forall₂_eq_eq_eq, keys, keys, List.forall₂_map_left_iff, List.forall₂_map_right_iff]
  exact h.imp fun _ _ hab => hab.1

theorem within_of_perm {R : α → β → Prop} {fields : Fields α} {entries others : Fields β}
    (ho : others.Distinct) (h : List.Forall₂ (fun a b => a.1 = b.1 ∧ R a.2 b.2) fields entries)
    (hp : entries.Perm others) : Within R fields others := by
  intro a ha
  obtain ⟨b, hb, hk, hr⟩ := exists_mem_right_of_forall₂ h ha
  exact ⟨b.2, hk ▸ get?_of_mem ho (hp.mem_iff.mp hb), hr⟩

theorem Within.exists_perm {R : α → β → Prop} {fields : Fields α} {others : Fields β}
    (hf : fields.Distinct) (hl : fields.length = others.length) (h : Within R fields others) :
    ∃ entries : Fields β,
      List.Forall₂ (fun a b => a.1 = b.1 ∧ R a.2 b.2) fields entries ∧ entries.Perm others := by
  have hm : ∀ a ∈ fields, ∃ b : String × β, (a.1 = b.1 ∧ R a.2 b.2) ∧ b ∈ others := by
    intro a ha
    obtain ⟨other, ho, hr⟩ := h a ha
    exact ⟨(a.1, other), ⟨rfl, hr⟩, mem_of_get? ho⟩
  obtain ⟨entries, he⟩ := exists_forall₂ hm
  have hr : List.Forall₂ (fun a b => a.1 = b.1 ∧ R a.2 b.2) fields entries :=
    he.imp fun _ _ hab => hab.1
  refine ⟨entries, hr, ?_⟩
  have hd : (keys entries).Nodup := keys_eq_of_forall₂ hr ▸ hf
  have hs : entries ⊆ others := by
    intro b hb
    obtain ⟨_, _, hab⟩ := exists_mem_left_of_forall₂ he hb
    exact hab.2
  have hn : entries.Nodup := List.Nodup.of_map Prod.fst hd
  exact (hn.subperm hs).perm_of_length_le (Nat.le_of_eq (hl.symm.trans hr.length_eq))

section Map

variable (f : α → β)

@[simp]
theorem keys_map (fields : Fields α) :
    keys (fields.map fun entry => (entry.1, f entry.2)) = fields.keys := by
  simp [keys]

theorem get?_map (fields : Fields α) (key : String) :
    get? (fields.map fun entry => (entry.1, f entry.2)) key = (fields.get? key).map f := by
  induction fields with
  | nil => rfl
  | cons entry rest ih =>
    rw [List.map_cons, get?_cons, get?_cons, ih]
    split <;> rfl

theorem within_map (g : γ → δ) {R : β → δ → Prop} (fields : Fields α) (others : Fields γ) :
    Within R (fields.map fun entry => (entry.1, f entry.2))
        (others.map fun entry => (entry.1, g entry.2)) ↔
      Within (fun a c => R (f a) (g c)) fields others := by
  unfold Within
  rw [List.forall_mem_map]
  simp [get?_map]

theorem within_map_left {R : β → δ → Prop} (fields : Fields α) (others : Fields δ) :
    Within R (fields.map fun entry => (entry.1, f entry.2)) others ↔
      Within (fun a d => R (f a) d) fields others :=
  List.forall_mem_map

end Map

theorem put_of_not_mem {fields : Fields α} {key : String} (h : key ∉ fields.keys) (value : α) :
    put key value fields = fields ++ [(key, value)] := by
  induction fields with
  | nil => rfl
  | cons entry rest ih =>
    have hn : key ≠ entry.1 ∧ key ∉ keys rest := by simpa [keys] using h
    rw [put, if_neg (Ne.symm hn.1), ih hn.2]
    rfl

theorem mem_ofList {entries : List (String × α)} {entry : String × α} (h : entry ∈ ofList entries) :
    entry ∈ entries := by
  suffices hs : ∀ fields : Fields α,
      entry ∈ entries.foldl (fun fields entry => put entry.1 entry.2 fields) fields →
        entry ∈ fields ∨ entry ∈ entries by
    obtain hn | he := hs [] h
    · cases hn
    · exact he
  clear h
  induction entries with
  | nil => exact fun _ h => .inl h
  | cons first rest ih =>
    intro fields h
    obtain hp | hr := ih _ h
    · obtain rfl | hf := mem_put hp
      · exact .inr List.mem_cons_self
      · exact .inl hf
    · exact .inr (List.mem_cons_of_mem _ hr)

theorem not_mem_keys_of_distinct {fields rest : Fields α} {entry : String × α}
    (h : Distinct (fields ++ entry :: rest)) : entry.1 ∉ fields.keys := by
  intro hm
  have hd : (fields.keys ++ entry.1 :: rest.map Prod.fst).Nodup := by
    simpa [Distinct, keys] using h
  exact (List.nodup_append.mp hd).2.2 entry.1 hm entry.1 List.mem_cons_self rfl

theorem ofList_of_distinct {entries : Fields α} (h : entries.Distinct) : ofList entries = entries := by
  suffices hs : ∀ fields : Fields α, Distinct (fields ++ entries) →
      entries.foldl (fun fields entry => put entry.1 entry.2 fields) fields = fields ++ entries from
    hs [] h
  clear h
  induction entries with
  | nil => simp
  | cons entry rest ih =>
    intro fields hd
    rw [List.foldl_cons, put_of_not_mem (not_mem_keys_of_distinct hd), ih _ (by simpa using hd)]
    simp

theorem length_ofList_lt {entries : Fields α} (h : ¬ entries.Distinct) :
    (ofList entries).length < entries.length := by
  have hs : keys (ofList entries) ⊆ entries.keys := by
    intro key hk
    obtain ⟨entry, he, rfl⟩ := List.mem_map.mp hk
    exact mem_keys_of_mem (mem_ofList he)
  have hd := distinct_ofList entries
  by_contra hl
  have hp : (keys (ofList entries)).Perm entries.keys :=
    (hd.subperm hs).perm_of_length_le (by simpa [keys] using hl)
  exact h (hp.nodup_iff.mp hd)

end Fields

end StructuralSchema
