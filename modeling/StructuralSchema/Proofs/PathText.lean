import StructuralSchema.Predicate.Builtin
import StructuralSchema.Proofs.Violations
import StructuralSchema.Schema.Place

namespace StructuralSchema

namespace Path

/-- The path without the empty keys that it begins with. -/
def trimmed : Path → Path
  | root => root
  | key parent name =>
    if parent.trimmed = root ∧ name = "" then root else key parent.trimmed name
  | index parent position => index parent.trimmed position

def firstKey? : Path → Option String
  | root => none
  | key root name => some name
  | key parent _ => parent.firstKey?
  | index parent _ => parent.firstKey?

def isMark (c : Char) : Bool := c = '.' || c = '['

theorem append_mark_inj {before before' after after' : List Char} {mark mark' : Char}
    (hm : isMark mark = true) (hm' : isMark mark' = true)
    (ha : ∀ c ∈ after, isMark c = false) (ha' : ∀ c ∈ after', isMark c = false)
    (h : before ++ mark :: after = before' ++ mark' :: after') :
    before = before' ∧ mark = mark' ∧ after = after' := by
  obtain ⟨between, hb, hr⟩ | ⟨between, hb, hr⟩ := List.append_eq_append_iff.mp h
  · cases between with
    | nil =>
      obtain ⟨rfl, rfl⟩ := List.cons.inj hr
      exact ⟨by simp [hb], rfl, rfl⟩
    | cons c between =>
      have hn := ha mark' (by simp [(List.cons.inj hr).2])
      rw [hm'] at hn
      cases hn
  · cases between with
    | nil =>
      obtain ⟨rfl, rfl⟩ := List.cons.inj hr
      exact ⟨by simp [hb], rfl, rfl⟩
    | cons c between =>
      have hn := ha' mark (by simp [(List.cons.inj hr).2])
      rw [hm] at hn
      cases hn

theorem Plain.isMark_of_mem {parent : Path} {name : String} (h : (key parent name).Plain)
    {c : Char} (hc : c ∈ name.toList) : isMark c = false := by
  obtain ⟨hd, hb, _⟩ := h.2 c hc
  simp [isMark, hd, hb]

theorem isMark_of_mem_position {position : Nat} {c : Char}
    (h : c ∈ Nat.toDigits 10 position ++ [']']) : isMark c = false := by
  obtain hd | hb := List.mem_append.mp h
  · have hn : c.isDigit = true := Nat.isDigit_of_mem_toDigits (by decide) (by decide) hd
    cases hm : isMark c with
    | false => rfl
    | true =>
      simp only [isMark, Bool.or_eq_true, decide_eq_true_eq] at hm
      obtain rfl | rfl := hm <;> cases hn
  · obtain rfl := List.mem_singleton.mp hb
    rfl

theorem chars_key_of_nil {parent : Path} (h : parent.chars = []) (name : String) :
    (key parent name).chars = name.toList := by
  rw [chars, if_pos h]

theorem chars_key_of_ne_nil {parent : Path} (h : parent.chars ≠ []) (name : String) :
    (key parent name).chars = parent.chars ++ '.' :: name.toList := by
  rw [chars, if_neg h]

theorem chars_index (parent : Path) (position : Nat) :
    (index parent position).chars =
      parent.chars ++ '[' :: (Nat.toDigits 10 position ++ [']']) := by
  simp [chars]

theorem toDigits_inj {position position' : Nat}
    (h : Nat.toDigits 10 position = Nat.toDigits 10 position') : position = position' := by
  calc position
      = Nat.ofDigitChars 10 (Nat.toDigits 10 position) 0 := Nat.ofDigitChars_ten_toDigits.symm
    _ = Nat.ofDigitChars 10 (Nat.toDigits 10 position') 0 := by rw [h]
    _ = position' := Nat.ofDigitChars_ten_toDigits

theorem trimmed_eq_root_iff (path : Path) : path.trimmed = root ↔ path.chars = [] := by
  cases path with
  | root => simp [trimmed, chars]
  | key parent name =>
    have hp := trimmed_eq_root_iff parent
    by_cases h : parent.chars = []
    · rw [chars_key_of_nil h, trimmed, hp.mpr h]
      simp
    · rw [chars_key_of_ne_nil h, trimmed, if_neg fun ht => h (hp.mp ht.1)]
      simp
  | index parent position => simp [trimmed, chars]

theorem chars_trimmed (path : Path) : path.trimmed.chars = path.chars := by
  induction path with
  | root => rfl
  | key parent name ih =>
    rw [trimmed]
    split
    · rename_i h
      have hp : parent.chars = [] := (trimmed_eq_root_iff parent).mp h.1
      rw [chars_key_of_nil hp, h.2]
      rfl
    · rw [chars, chars, ih]
  | index parent position ih => rw [trimmed, chars, chars, ih]

theorem trimmed_of_unmarked {path : Path} (h : ∀ c ∈ path.chars, isMark c = false) :
    path.trimmed = if path.chars = [] then root else key root (String.ofList path.chars) := by
  split
  · rename_i hn
    exact (trimmed_eq_root_iff path).mpr hn
  · rename_i hn
    cases path with
    | root => exact absurd rfl hn
    | key parent name =>
      by_cases hp : parent.chars = []
      · rw [chars_key_of_nil hp] at hn ⊢
        rw [trimmed, (trimmed_eq_root_iff parent).mpr hp, String.ofList_toList, if_neg]
        rintro ⟨_, rfl⟩
        exact hn rfl
      · have hm := h '.' (by simp [chars_key_of_ne_nil hp])
        cases hm
    | index parent position =>
      have hm := h '[' (by simp [chars_index])
      cases hm

/-- A text ends in a name or in a position, not in both. -/
theorem chars_key_ne_chars_index {parent parent' : Path} {name : String}
    (h : (key parent name).Plain) (position : Nat) :
    (key parent name).chars ≠ (index parent' position).chars := by
  rw [chars_index]
  intro he
  by_cases hn : parent.chars = []
  · rw [chars_key_of_nil hn] at he
    have hm := h.isMark_of_mem (c := '[') (by simp [he])
    cases hm
  · rw [chars_key_of_ne_nil hn] at he
    obtain ⟨_, hm, _⟩ := append_mark_inj rfl rfl (fun _ => h.isMark_of_mem)
      (fun _ => isMark_of_mem_position) he
    cases hm

/-- By induction on the one path. Where the text has a mark, the last one tells how the other path
ends; a text without marks is a single key at most. -/
theorem trimmed_eq_of_chars_eq {path other : Path} (hp : path.Plain) (ho : other.Plain)
    (h : path.chars = other.chars) : path.trimmed = other.trimmed := by
  induction path generalizing other with
  | root => exact ((trimmed_eq_root_iff other).mpr h.symm).symm
  | key parent name ih =>
    by_cases hn : parent.chars = []
    · have hm : ∀ c ∈ (key parent name).chars, isMark c = false := by
        rw [chars_key_of_nil hn]
        exact fun _ => hp.isMark_of_mem
      rw [trimmed_of_unmarked hm, trimmed_of_unmarked (h ▸ hm), h]
    · cases other with
      | root =>
        rw [chars_key_of_ne_nil hn] at h
        simp [chars] at h
      | key parent' name' =>
        rw [chars_key_of_ne_nil hn] at h
        by_cases hn' : parent'.chars = []
        · rw [chars_key_of_nil hn'] at h
          have hm := ho.isMark_of_mem (c := '.') (by simp [← h])
          cases hm
        · rw [chars_key_of_ne_nil hn'] at h
          obtain ⟨hc, _, hl⟩ := append_mark_inj rfl rfl (fun _ => hp.isMark_of_mem)
            (fun _ => ho.isMark_of_mem) h
          rw [trimmed, trimmed, ih hp.1 ho.1 hc, String.toList_inj.mp hl]
      | index parent' position' => exact absurd h (chars_key_ne_chars_index hp position')
  | index parent position ih =>
    cases other with
    | root => simp [chars] at h
    | key parent' name' => exact absurd h.symm (chars_key_ne_chars_index ho position)
    | index parent' position' =>
      rw [chars_index, chars_index] at h
      obtain ⟨hc, _, hl⟩ := append_mark_inj rfl rfl (fun _ => isMark_of_mem_position)
        (fun _ => isMark_of_mem_position) h
      have ht : parent.trimmed = parent'.trimmed := ih hp ho hc
      rw [trimmed, trimmed, ht, toDigits_inj (List.append_cancel_right hl)]

theorem trimmed_of_firstKey? {path : Path} (hk : path.BeginsWithKey)
    (h : path.firstKey? ≠ some "") : path.trimmed = path := by
  induction path with
  | root => cases hk
  | key parent name ih =>
    by_cases hp : parent = root
    · subst hp
      have hn : name ≠ "" := fun hn => h (hn ▸ rfl)
      simp [trimmed, hn]
    · have hb : parent.BeginsWithKey ∧ parent.firstKey? ≠ some "" := by
        cases parent with
        | root => exact absurd rfl hp
        | _ => exact ⟨hk, h⟩
      rw [trimmed, ih hb.1 hb.2, if_neg fun ht => hp ht.1]
  | index parent position ih => rw [trimmed, ih hk h]

/-- Two places have one text just if they differ in nothing but the number of empty keys that they
begin with, and so not at all if the first key of each is not empty. -/
theorem text_eq_text_iff {path other : Path} (hp : path.Plain) (ho : other.Plain)
    (hk : path.BeginsWithKey) (hk' : other.BeginsWithKey) :
    (path.text = other.text ↔ path.trimmed = other.trimmed) ∧
      (path.firstKey? ≠ some "" → other.firstKey? ≠ some "" → path ≠ other →
        path.text ≠ other.text) := by
  have h : path.text = other.text ↔ path.trimmed = other.trimmed := by
    rw [text, text, String.ofList_inj]
    constructor
    · exact trimmed_eq_of_chars_eq hp ho
    · intro ht
      rw [← chars_trimmed, ht, chars_trimmed]
  refine ⟨h, fun hf hf' hne he => hne ?_⟩
  rw [h, trimmed_of_firstKey? hk hf, trimmed_of_firstKey? hk' hf'] at he
  exact he

/-- Below an empty key that is no first key, and below one that is; in the first pair only the
positions differ, and in the second one only the number of empty keys. -/
theorem text_eq_text_iff_rows :
    let row (position : Nat) : Path := .key (.index (.key (.key .root "rows") "") position) "n"
    let cell : Path := .index (.key .root "") 1
    let cell' : Path := .index (.key (.key .root "") "") 1
    ((row 2).text = "rows.[2].n" ∧ (row 2).text ≠ (row 12).text) ∧ cell.text = cell'.text := by
  intro row cell cell'
  have hr : ∀ position, (row position).Plain := fun _ => by simp [row, Plain]
  have hc : cell.Plain ∧ cell'.Plain := by simp [cell, cell', Plain]
  refine ⟨⟨by decide, ?_⟩, ?_⟩
  · exact (text_eq_text_iff (hr 2) (hr 12) trivial trivial).2 (by decide) (by decide) (by decide)
  · exact (text_eq_text_iff hc.1 hc.2 trivial trivial).1.mpr (by decide)

end Path

open Schema

/-- The faults of two instances under one schema point at different places with the same text: at
the field of the empty key, and at a field beside it. -/
theorem text_eq_text_of_empty_key :
    let schema : Schema Builtin :=
      object [("", object [("a", scalar .int)]), ("a", scalar .int)]
    let one : Json := .number (.int 1 (by decide))
    let inner : Instance := .value (.object [("", .object [("a", .string "x")]), ("a", one)])
    let outer : Instance := .value (.object [("", .object [("a", one)]), ("a", .string "x")])
    let path : Path := .key (.key .root "") "a"
    let other : Path := .key .root "a"
    (path.Plain ∧ path.BeginsWithKey) ∧ (other.Plain ∧ other.BeginsWithKey) ∧
      (path ≠ other ∧ path.text = other.text) ∧
      validate {} inner schema = .error (.wrongType path "int" .string) ∧
      validate {} outer schema = .error (.wrongType other "int" .string) := by
  intro schema one inner outer path other
  have hp : path.Plain ∧ path.BeginsWithKey := by simp [path, Path.Plain, Path.BeginsWithKey]
  have ho : other.Plain ∧ other.BeginsWithKey := by simp [other, Path.Plain, Path.BeginsWithKey]
  exact ⟨hp, ho, ⟨by decide, by decide⟩, by rfl, by rfl⟩

end StructuralSchema
