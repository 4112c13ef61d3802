import StructuralSchema.Json.Comparison
import StructuralSchema.Json.Reader
import StructuralSchema.Proofs.Json.Integers

namespace StructuralSchema.Json

open Numeral

theorem lexemes_blank {c : Char} (h : isBlank c = true) (rest : List Char) :
    lexemes (c :: rest) = lexemes rest := by
  rw [lexemes, if_pos h]

theorem lexemes_cons {c : Char} {rest left : List Char} {token : Token} (h : isBlank c = false)
    (ht : nextToken c rest = (token, left)) :
    lexemes (c :: rest) = ⟨token, c :: rest, left⟩ :: lexemes left := by
  rw [lexemes, h, ht]
  rfl

theorem lexemes_append_blanks {blanks : List Char} (h : ∀ c ∈ blanks, isBlank c = true)
    (rest : List Char) : lexemes (blanks ++ rest) = lexemes rest := by
  induction blanks with
  | nil => rfl
  | cons c blanks ih =>
    obtain ⟨hc, hb⟩ := List.forall_mem_cons.mp h
    rw [List.cons_append, lexemes_blank hc, ih hb]

theorem lexemes_punctuation {c : Char} {token : Token} (h : punctuation? c = some token)
    (rest : List Char) : lexemes (c :: rest) = ⟨token, c :: rest, rest⟩ :: lexemes rest := by
  have hb : isBlank c = false := by
    unfold punctuation? at h
    split at h <;> first | rfl | cases h
  apply lexemes_cons hb
  simp [nextToken, h]

theorem nextToken_encode (text : String) (rest : List Char) :
    nextToken '"' ((Quoted.encode text.toList).drop 1 ++ rest) = (.string (.ok text), rest) := by
  have hq : ∀ left, nextToken '"' left = stringToken (Quoted.decode left) := fun _ => rfl
  rw [hq, Quoted.decode_encode, stringToken, String.ofList_toList]

theorem lexemes_encode (text : String) (rest : List Char) :
    lexemes (Quoted.encode text.toList ++ rest) =
      ⟨.string (.ok text), Quoted.encode text.toList ++ rest, rest⟩ :: lexemes rest :=
  lexemes_cons rfl (nextToken_encode text rest)

theorem closed_of_blank {c : Char} (h : isBlank c = true) (rest : List Char) :
    Closed (c :: rest) := by
  simp only [isBlank, Bool.or_eq_true, decide_eq_true_eq] at h
  obtain ((rfl | rfl) | rfl) | rfl := h <;> rfl

theorem closed_append_blanks {blanks rest : List Char} (h : ∀ c ∈ blanks, isBlank c = true)
    (hr : Closed rest) : Closed (blanks ++ rest) := by
  cases blanks with
  | nil => exact hr
  | cons c blanks => exact closed_of_blank (h c List.mem_cons_self) (blanks ++ rest)

theorem nextToken_of_number {c : Char} (h : c = '-' ∨ c.isDigit = true) (rest : List Char) :
    nextToken c rest = numberToken (Numeral.read (c :: rest)) := by
  have hp : punctuation? c = none := by
    unfold punctuation?
    split <;> first | rfl | (obtain h | h := h <;> cases h)
  have hw : word? c = none := by
    unfold word?
    split <;> first | rfl | (obtain h | h := h <;> cases h)
  have hq : c ≠ '"' := by
    rintro rfl
    obtain h | h := h <;> cases h
  simp [nextToken, hp, hw, hq, h]

theorem isBlank_of_number {c : Char} (h : c = '-' ∨ c.isDigit = true) : isBlank c = false := by
  cases hb : isBlank c with
  | false => rfl
  | true =>
    simp only [isBlank, Bool.or_eq_true, decide_eq_true_eq] at hb
    obtain ((rfl | rfl) | rfl) | rfl := hb <;> obtain h | h := h <;> cases h

theorem exists_chars_eq_cons (value : Int) (fits : -2 ^ 63 ≤ value ∧ value < 2 ^ 64) :
    ∃ c digits, (Number.int value fits).chars = c :: digits ∧ (c = '-' ∨ c.isDigit = true) := by
  rw [Number.chars]
  split
  · exact ⟨'-', _, rfl, .inl rfl⟩
  · obtain ⟨c, digits, hd, hc⟩ := exists_toDigits_eq_cons value.natAbs
    exact ⟨c, digits, hd, .inr hc⟩

theorem lexemes_integer (value : Int) (fits : -2 ^ 63 ≤ value ∧ value < 2 ^ 64) {rest : List Char}
    (hr : Closed rest) :
    lexemes ((Number.int value fits).chars ++ rest) =
      ⟨.scalar (.ok (.number (.int value fits))), (Number.int value fits).chars ++ rest, rest⟩ ::
        lexemes rest := by
  obtain ⟨c, digits, hc, hn⟩ := exists_chars_eq_cons value fits
  have hread := read_chars value fits hr
  rw [hc, List.cons_append] at hread ⊢
  apply lexemes_cons (isBlank_of_number hn)
  rw [nextToken_of_number hn, hread, numberToken]

theorem exists_lexeme_of_isScalar {value : Json} (hs : value.isScalar = true) (hw : value.Whole)
    (layout : Layout) (depth : Nat) {rest : List Char} (hr : Closed rest) :
    ∃ lexeme, lexemes (layout.write depth value ++ rest) = lexeme :: lexemes rest ∧
      ∀ frames, Reading.begin frames lexeme = .ok ⟨frames, .next value⟩ := by
  cases value with
  | null => exact ⟨_, lexemes_cons rfl rfl, fun frames => rfl⟩
  | bool b =>
    cases b
    · exact ⟨_, lexemes_cons rfl rfl, fun frames => rfl⟩
    · exact ⟨_, lexemes_cons rfl rfl, fun frames => rfl⟩
  | number n =>
    cases n with
    | int value fits => exact ⟨_, lexemes_integer value fits hr, fun frames => rfl⟩
    | float value => cases hw
  | string text => exact ⟨_, lexemes_encode text rest, fun frames => rfl⟩
  | array items => cases hs
  | object members => cases hs

end StructuralSchema.Json
